import ServingPack.KeyManager.RequestRuns
import ServingPack.Oidc.Outcomes

open golang apiserver concurrency kube models secrets

namespace api

/-- `AuthConfig`. Its validator is the one of the gate, if it has one. -/
structure AuthConfig where
  groupsClaim : GoString := []
  validator : Bool := true
  devMode : Bool := false
  devIdentity : UserInfo := { username := [] }

/-- An `http.Error`, and its Retry-After header. -/
structure Refusal where
  status : Nat
  text : GoString
  retryAfter : Option GoString := none

/-- The raw token of an Authorization header, empty where there is none. -/
def extractBearerToken (authHeader : GoString) : Except GoString GoString :=
  if authHeader = [] then .error "no Authorization header"
  else if hasPrefix authHeader "Bearer " = false
    then .error "authorization header must use Bearer scheme"
  else if authHeader.drop (lit "Bearer ").length = [] then .error "bearer token is empty"
  else .ok (authHeader.drop (lit "Bearer ").length)

/-- The text an element of a claim is, if it is one. -/
def groupOf : Json → Option GoString
  | .string s => some s
  | _ => none

def extractGroups (claims : oidc.Claims) (claimName : GoString) : List GoString :=
  match claims.get claimName with
  | some (.array elems) => elems.filterMap groupOf
  | some (.string s) => [s]
  | _ => []

/-- `userInfoFromClaims`. -/
def userInfoFromClaims (claims : oidc.Claims) (groupsClaim : GoString) : UserInfo where
  username := if claims.text "preferred_username" = [] then claims.text "sub"
    else claims.text "preferred_username"
  subject := claims.text "sub"
  name := claims.text "name"
  email := claims.text "email"
  groups := extractGroups claims groupsClaim

/-- The claim that `AuthMiddleware` reads the groups from. -/
def AuthConfig.groups (cfg : AuthConfig) : GoString :=
  if cfg.groupsClaim = [] then "groups" else cfg.groupsClaim

/-- `AuthMiddleware`. -/
def authMiddleware (cfg : AuthConfig) : oidc.Middleware UserInfo Refusal where
  enter header :=
    if cfg.devMode then .admitted cfg.devIdentity
    else if cfg.validator = false then .refused { status := 500, text := "auth not configured" }
    else
      match extractBearerToken header with
      | .error text => .refused { status := 401, text := lit "unauthorized: " ++ text }
      | .ok token => .validate token
  leave
    | .error e =>
      if e.wraps.isSome then
        .error { status := 503, text := lit "auth unavailable: " ++ e.text, retryAfter := some "5" }
      else .error { status := 401, text := lit "unauthorized: " ++ e.text }
    | .ok claims => .ok (userInfoFromClaims claims cfg.groups)

/-- The key manager behind its middleware. -/
structure Service where
  gate : oidc.Gate UserInfo Refusal
  /-- The requests that handlers run for. -/
  config : Config State Request Answer Response Nat
  /-- Which requests of the gate they are, in the order the handlers began. -/
  served : List Nat := []
  /-- What there is to tell of the gate so far. -/
  notes : List oidc.Note := []

/-- The machine of the handlers, apart from the begin of a handler. -/
def handlers (m : Manager) : Machine State Request Answer Response Nat :=
  { machine m with start := fun _ _ _ _ => False }

section Service

variable (jwt : oidc.Jwt) (x : oidc.Expected) (cfg : AuthConfig) (m : Manager)

inductive Service.Step : Service → Service → Prop where
  /-- A step of the validator, the arrival of a request or the end of its check. -/
  | gate {s : Service} {a : oidc.Gate.Act} {gate : oidc.Gate UserInfo Refusal}
    {noted : List oidc.Note}
      (hstep : s.gate.step jwt x (authMiddleware cfg) a = some (gate, noted)) :
      Step s { s with gate := gate, notes := noted ++ s.notes }
  /-- The handler of a request begins: `next.ServeHTTP` with the user in its context. -/
  | serve {s : Service} {i : Nat} {user : UserInfo} (request : ApiRequest)
      (hadmitted : s.gate.passages i = .ended (.ok user)) (hnew : i ∉ s.served)
      (hidle : s.config.threads s.config.state.requests.length = none) :
      Step s { s with
        config := {
          state := { s.config.state with
            requests := s.config.state.requests ++ [⟨user, request, s.config.state.cache⟩] }
          threads := Function.update s.config.threads s.config.state.requests.length
            (some (handle m s.config.state.cache (some user) request)) }
        served := s.served ++ [i] }
  | handlers {s : Service} {config : Config State Request Answer Response Nat}
      (hstep : Machine.Step (handlers m) s.config config) : Step s { s with config := config }

/-- The services of the runs that begin with a validator without keys and a store without keys. -/
inductive Service.Reachable : Service → Prop where
  | init {now : Int} {state : State} (hinit : Initial state) :
      Reachable { gate := { validator := { now := now } }, config := ⟨state, fun _ => none⟩ }
  | step {s s' : Service} (hreach : Reachable s) (hstep : Service.Step jwt x cfg m s s') :
    Reachable s'

/-- A handler's request is one of the gate's whose token is vouched for, and its user is
the one that the token's claims name. -/
structure SignedIn (s : Service) (h : Handled) (i : Nat) (raw : GoString) (claims : oidc.Claims) :
    Prop where
  vouched : ∃ header began, .arrived i header began ∈ s.notes ∧
    extractBearerToken header = .ok raw ∧
    oidc.Gate.Vouched jwt x s.notes s.gate.validator.now i header began raw claims
  user : h.user = userInfoFromClaims claims cfg.groups

/-- What is done to the keys is done for tokens. -/
structure Authorised (s : Service) : Prop where
  /-- Every handler runs for a request of the gate, and for each of those only once. -/
  signedIn : s.served.Nodup ∧ ∀ (k : Nat) h, s.config.state.requests[k]? = some h →
    ∃ i raw claims, s.served[k]? = some i ∧ SignedIn jwt x cfg s h i raw claims
  /-- A key is stored only for a token that names a group of the model, if the model is not
  public. -/
  granted : ∀ w ∈ s.config.state.secretWrites, ∀ id key, w.after.lookup id = some key →
    w.before.lookup id ≠ some key →
    ∃ h body i raw claims, s.config.state.requests[w.request]? = some h ∧
      h.request = .createKey (some body) ∧
      w.name = secretName body.modelName ∧ SignedIn jwt x cfg s h i raw claims ∧
      Granted h.cache (extractGroups claims cfg.groups) body.modelName
  /-- A key is removed only for a token that names the user it was minted for. -/
  owned : ∀ w ∈ s.config.state.secretWrites, ∀ id key, w.before.lookup id = some key →
    w.after.lookup id ≠ some key →
    ∃ h ns modelName i raw claims, s.config.state.requests[w.request]? = some h ∧
      h.request = .deleteKey ns modelName id ∧ w.name = secretName modelName ∧
        SignedIn jwt x cfg s h i raw claims ∧
      Minted s.config.state w.name id key (userInfoFromClaims claims cfg.groups).username

end Service

section Invariant

variable {jwt : oidc.Jwt} {x : oidc.Expected} {cfg : AuthConfig} {m : Manager}

/-- What every step keeps. -/
structure Service.Inv (jwt : oidc.Jwt) (x : oidc.Expected) (cfg : AuthConfig) (m : Manager)
    (s : Service) : Prop where
  run : ∃ now : Int, Run (fun g a => g.step jwt x (authMiddleware cfg) a)
    { validator := { now := now } } s.gate s.notes
  reachable : (machine m).Reachable Initial s.config
  length : s.served.length = s.config.state.requests.length
  nodup : s.served.Nodup
  admitted : ∀ (k i : Nat) (h : Handled), s.served[k]? = some i →
    s.config.state.requests[k]? = some h →
    s.gate.passages i = .ended (.ok h.user)

private theorem step_of_handlers {c c' : Config State Request Answer Response Nat}
    (h : Machine.Step (handlers m) c c') :
    Machine.Step (machine m) c c' ∧ c'.state.requests = c.state.requests := by
  cases h with
  | start i hidle hstart => exact hstart.elim
  | exec i hcall hexec =>
    refine ⟨.exec i hcall hexec, ?_⟩
    cases hexec with
    | server hexec => exact answered_requests ..
    | rand bytes => rfl
    | randFailed e => rfl
    | now seconds => rfl
  | finish i hpure hfinish =>
    refine ⟨.finish i hpure hfinish, ?_⟩
    obtain rfl := hfinish
    rfl
  | env henv =>
    refine ⟨.env henv, ?_⟩
    cases henv with
    | sync fleet => rfl
    | others q huntouched => rfl

private theorem Service.Inv.step {s s' : Service} (h : s.Inv jwt x cfg m)
    (hstep : Service.Step jwt x cfg m s s') :
    s'.Inv jwt x cfg m := by
  cases hstep with
  | gate hstep =>
    obtain ⟨now, hrun⟩ := h.run
    refine ⟨⟨now, hrun.step hstep⟩, h.reachable, h.length, h.nodup, ?_⟩
    intro k i hd hi hhd
    exact oidc.Gate.ended_of_step hstep (h.admitted k i hd hi hhd)
  | @serve i user request hadmitted hnew hidle =>
    refine ⟨h.run, ?_, ?_, ?_, ?_⟩
    · exact .step h.reachable
        (.start s.config.state.requests.length hidle ⟨rfl, user, request, rfl, rfl⟩)
    · simp [h.length]
    · rw [List.nodup_append]
      refine ⟨h.nodup, List.nodup_singleton i, ?_⟩
      intro j hj j' hj'
      obtain rfl := List.mem_singleton.mp hj'
      intro heq
      rw [heq] at hj
      exact hnew hj
    · intro k j hd hj hhd
      by_cases hk : k < s.served.length
      · rw [List.getElem?_append_left hk] at hj
        rw [List.getElem?_append_left (h.length ▸ hk)] at hhd
        exact h.admitted k j hd hj hhd
      · have hkeq : k = s.served.length := by
          have hlt := (List.getElem?_eq_some_iff.mp hj).1
          rw [List.length_append, List.length_singleton] at hlt
          omega
        rw [hkeq, List.getElem?_concat_length] at hj
        rw [hkeq, h.length, List.getElem?_concat_length] at hhd
        obtain rfl := Option.some.inj hj
        obtain rfl := Option.some.inj hhd
        exact hadmitted
  | handlers hstep =>
    obtain ⟨hmachine, hrequests⟩ := step_of_handlers hstep
    refine ⟨h.run, .step h.reachable hmachine, ?_, h.nodup, ?_⟩
    · rw [hrequests]
      exact h.length
    · rw [hrequests]
      exact h.admitted

private theorem Service.Inv.of_reachable {s : Service} (h : Service.Reachable jwt x cfg m s) :
    s.Inv jwt x cfg m := by
  induction h with
  | @init now state hinit =>
    refine ⟨⟨now, .start⟩, .init hinit, ?_, List.nodup_nil, by simp⟩
    rw [hinit.requests]
    rfl
  | step hreach hstep ih => exact ih.step hstep

private theorem dev_of_admitted {header : GoString} {user : UserInfo}
    (h : (authMiddleware cfg).enter header = .admitted user) :
    cfg.devMode = true := by
  simp only [authMiddleware] at h
  split_ifs at h with hdev
  · exact hdev
  · split at h
    · cases h
    · cases h

private theorem token_of_validate {header raw : GoString}
    (h : (authMiddleware cfg).enter header = .validate raw) :
    extractBearerToken header = .ok raw := by
  simp only [authMiddleware] at h
  split_ifs at h
  split at h
  · cases h
  · next htoken =>
    obtain rfl := oidc.Entry.validate.inj h
    exact htoken

/-- A user the middleware lets pass, where it is not in dev mode. -/
theorem vouched_of_passed (hdoc : jwt.AsDocumented) (hdev : cfg.devMode = false)
    {log : List oidc.Note} {now began : Int} {i : Nat} {header : GoString} {user : UserInfo}
    (h : oidc.Gate.Outcome jwt x (authMiddleware cfg) log now i header began (.ok user)) :
    ∃ raw claims,
      extractBearerToken header = .ok raw ∧
      oidc.Gate.Vouched jwt x log now i header began raw claims ∧
        user = userInfoFromClaims claims cfg.groups := by
  generalize hpassed : (.ok user : Except Refusal UserInfo) = outcome at h
  cases h with
  | admitted henter =>
    rw [dev_of_admitted henter] at hdev
    cases hdev
  | refused henter => cases hpassed
  | @validated raw result henter haccounted =>
    cases result with
    | error e =>
      simp only [authMiddleware] at hpassed
      split_ifs at hpassed
    | ok claims =>
      obtain rfl := Except.ok.inj hpassed
      exact ⟨raw, claims, token_of_validate henter, haccounted.vouched hdoc, rfl⟩

private theorem Service.Inv.signedIn {s : Service} (h : s.Inv jwt x cfg m) (hdoc : jwt.AsDocumented)
    (hdev : cfg.devMode = false)
    {k : Nat} {hd : Handled} (hk : s.config.state.requests[k]? = some hd) :
    ∃ i raw claims, s.served[k]? = some i ∧ SignedIn jwt x cfg s hd i raw claims := by
  have hlt : k < s.served.length := h.length ▸ (List.getElem?_eq_some_iff.mp hk).1
  obtain ⟨now, hrun⟩ := h.run
  obtain ⟨header, began, harrived, houtcome⟩ := (oidc.Gate.Inv.of_run hrun).ended _ _
    (h.admitted k s.served[k] hd (List.getElem?_eq_getElem hlt) hk)
  obtain ⟨raw, claims, htoken, hvouched, huser⟩ := vouched_of_passed hdoc hdev houtcome
  exact ⟨s.served[k], raw, claims, List.getElem?_eq_getElem hlt,
    ⟨header, began, harrived, htoken, hvouched⟩, huser⟩

/-- In every run of the key manager outside its dev mode, however requests, refreshes of
the provider's keys, Syncs and calls that fail fall together: handlers run only for
tokens that are vouched for, and what they do to the keys is what these tokens allow. -/
theorem authorised {fed : Set GoString} (hdoc : jwt.AsDocumented) (hdev : cfg.devMode = false)
    (hlength : ∀ text, (m.sha256 text).length = 32)
    (hinj : Set.InjOn (fun text => (m.sha256 text).take 16) fed)
    {s : Service} (hreach : Service.Reachable jwt x cfg m s)
    (hfed : ∀ h ∈ s.config.state.requests, ∀ modelName, h.request.modelName = some modelName →
      List.intercalate [0] [h.user.username, modelName] ∈ fed) : Authorised jwt x cfg s := by
  have hs := Service.Inv.of_reachable hreach
  obtain ⟨φ, hinv, -⟩ := keeps.reachable hs.reachable
  refine ⟨⟨hs.nodup, fun k h hk => hs.signedIn hdoc hdev hk⟩, ?_, ?_⟩
  · intro w hw id key hafter hbefore
    obtain ⟨h, body, hrequest, hreq, hname, hgranted⟩ := hinv.granted_of_stored hw hafter hbefore
    obtain ⟨i, raw, claims, -, hsigned⟩ := hs.signedIn hdoc hdev hrequest
    refine ⟨h, body, i, raw, claims, hrequest, hreq, hname, hsigned, ?_⟩
    rw [hsigned.user] at hgranted
    exact hgranted
  · intro w hw id key hbefore hafter
    obtain ⟨h, ns, modelName, hrequest, hreq, hname, hminted⟩ :=
      hinv.owned_of_removed hlength hinj hfed hw hbefore hafter
    obtain ⟨i, raw, claims, -, hsigned⟩ := hs.signedIn hdoc hdev hrequest
    refine ⟨h, ns, modelName, i, raw, claims, hrequest, hreq, hname, hsigned, ?_⟩
    rw [hsigned.user] at hminted
    exact hminted

end Invariant

section Scripts

variable {jwt : oidc.Jwt} {x : oidc.Expected} {cfg : AuthConfig} {m : Manager}

/-- A step of a scripted run. -/
inductive Turn where
  | gate (a : oidc.Gate.Act)
  | serve (i : Nat) (request : ApiRequest)
  | handlers (move : Machine.Move Nat (Choice Begin))

/-- The runner of the requests, for the handlers that have begun. -/
def begun (m : Manager) : Machine.Runner State Request Answer Response Nat (Choice Begin) :=
  { runner m with start := fun _ _ _ => none }

private theorem begun_sound (m : Manager) : (begun m).Sound (handlers m) where
  start o i s p s' h := by cases h
  answer := (runner_sound m).answer
  finish := (runner_sound m).finish
  env := (runner_sound m).env

def Service.turn (jwt : oidc.Jwt) (x : oidc.Expected) (cfg : AuthConfig) (m : Manager)
    (s : Service) : Turn → Option Service
  | .gate a =>
    (s.gate.step jwt x (authMiddleware cfg) a).map
      (fun r => { s with gate := r.1, notes := r.2 ++ s.notes })
  | .serve i request =>
    match s.gate.passages i with
    | .ended (.ok user) =>
      if i ∉ s.served ∧ (s.config.threads s.config.state.requests.length).isNone then
        some { s with
          config := {
            state := { s.config.state with
              requests := s.config.state.requests ++ [⟨user, request, s.config.state.cache⟩] }
            threads := Function.update s.config.threads s.config.state.requests.length
              (some (handle m s.config.state.cache (some user) request)) }
          served := s.served ++ [i] }
      else none
    | _ => none
  | .handlers move => ((begun m).step s.config move).map (fun config => { s with config := config })

private theorem step_of_turn {s s' : Service} {turn : Turn}
    (h : s.turn jwt x cfg m turn = some s') :
    Service.Step jwt x cfg m s s' := by
  cases turn with
  | gate a =>
    obtain ⟨⟨gate, noted⟩, hstep, rfl⟩ := Option.map_eq_some_iff.mp h
    exact .gate hstep
  | serve i request =>
    rw [Service.turn] at h
    split at h
    · next user hadmitted =>
      split_ifs at h with hserve
      obtain rfl := Option.some.inj h
      exact .serve request hadmitted hserve.1 (Option.isNone_iff_eq_none.mp hserve.2)
    · cases h
  | handlers move =>
    obtain ⟨config, hstep, rfl⟩ := Option.map_eq_some_iff.mp h
    exact .handlers ((begun_sound m).step hstep)

def Service.play (jwt : oidc.Jwt) (x : oidc.Expected) (cfg : AuthConfig) (m : Manager) :
    List Turn → Service → Option Service
  | [], s => some s
  | turn :: rest, s => (s.turn jwt x cfg m turn).bind (Service.play jwt x cfg m rest)

private theorem Service.Reachable.play {s s' : Service} {turns : List Turn}
    (h : Service.Reachable jwt x cfg m s)
    (hplay : Service.play jwt x cfg m turns s = some s') : Service.Reachable jwt x cfg m s' := by
  induction turns generalizing s with
  | nil =>
    obtain rfl := Option.some.inj hplay
    exact h
  | cons turn rest ih =>
    obtain ⟨mid, hturn, hrest⟩ := Option.bind_eq_some_iff.mp hplay
    exact ih (.step h (step_of_turn hturn)) hrest

/-- The realm and the client that the key manager takes tokens of. -/
def spa : oidc.Expected where
  issuer := "https://id.example/realms/nebari"
  clientID := "llm-keys"

/-- A request with alice's token comes in, and its token is checked. -/
def signsIn (i : Nat) : List Turn :=
  [.gate (.arrive i (lit "Bearer " ++ oidc.realm.token)), .gate (.validator (.lookup i)),
    .gate (.conclude i)]

/-- The realm's keys are fetched, and alice signs in twice: to mint a key, and to delete it. -/
def mintDelete : List Turn :=
  [.gate (.validator .attempt), .gate (.validator (.request .background)),
    .gate (.validator (.respond .background (.ok [oidc.realm.entry]))),
      .gate (.validator (.settle .background)),
    .gate (.validator .markReady),
    .handlers (.env (.call (.others (.create .secret (secretName "chat") ⟨chatLabels, {}⟩)))),
    .handlers (.env (.call
      (.others (.create .configMap (configMapName "chat") ⟨chatLabels, {}⟩))))] ++
  signsIn 0 ++ [.serve 0 (.createKey (some ⟨"chat", []⟩)), .handlers (.answer 0 .reply),
    .handlers (.answer 0 .reply),
    .handlers (.answer 0 (.bytes [0, 0, 0, 0, 0, 0, 0, 0])),
      .handlers (.answer 0 (.bytes (List.replicate 24 0))),
    .handlers (.answer 0 .reply), .handlers (.answer 0 (.seconds 0)), .handlers (.answer 0 .reply),
      .handlers (.finish 0)] ++
  signsIn 1 ++ [.serve 1 (.deleteKey "llm-serving" "chat" firstID), .handlers (.answer 1 .reply),
    .handlers (.answer 1 .reply), .handlers (.answer 1 .reply), .handlers (.answer 1 .reply),
    .handlers (.answer 1 (.seconds 60)), .handlers (.answer 1 .reply), .handlers (.finish 1)]

def signedIn : Option Service :=
  Service.play oidc.realm.jwt spa {} chatManager mintDelete
    { gate := { validator := { now := 1 } }, config := ⟨emptyStore, fun _ => none⟩ }

private theorem signedIn_ends : signedIn.any (fun s =>
    s.config.state.secretWrites.any (fun w => firstID ∈ w.before && firstID ∉ w.after) &&
    s.config.state.requests.all (fun h => h.request.modelName.all (fun modelName =>
      List.intercalate [0] [h.user.username, modelName] = lit "alice\x00chat"))) = true := by
  decide +kernel

/-- Alice mints a key with her token and deletes it with it. -/
theorem alice_authorised : ∃ s : Service,
    (∃ w ∈ s.config.state.secretWrites, firstID ∈ w.before ∧ firstID ∉ w.after) ∧
      Authorised oidc.realm.jwt spa {} s := by
  obtain ⟨s, hplay, hends⟩ := (Option.any_eq_true _ _).mp signedIn_ends
  rw [Bool.and_eq_true] at hends
  obtain ⟨hremoved, hrequests⟩ := hends
  obtain ⟨w, hw, hremoved⟩ := List.any_eq_true.mp hremoved
  rw [Bool.and_eq_true, decide_eq_true_eq, decide_eq_true_eq] at hremoved
  have hreach : Service.Reachable oidc.realm.jwt spa {} chatManager s :=
    .play (.init emptyStore_initial) hplay
  refine ⟨s, ⟨w, hw, hremoved⟩, ?_⟩
  refine authorised oidc.realm.jwt_asDocumented rfl chatDigest_length
    (Set.injOn_singleton _ (lit "alice\x00chat")) hreach ?_
  intro h hh modelName hmodel
  have hfed := List.all_eq_true.mp hrequests h hh
  rw [hmodel, Option.all_some] at hfed
  exact of_decide_eq_true hfed

end Scripts

end api
