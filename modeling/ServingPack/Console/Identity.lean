import ServingPack.Lib.Delimited
import ServingPack.Oidc.Outcomes

open golang concurrency

namespace openmeter

section Groups

/-- Whether a byte ends a space that begins with 0xE2 and 0x80. -/
def endsSpace (c : UInt8) : Bool := (0x80 ≤ c && c ≤ 0x8A) || c == 0xA8 || c == 0xA9 || c == 0xAF

/-- A text without the white space before it. -/
def trimLeft : GoString → GoString
  | [] => []
  | 0xC2 :: 0x85 :: rest => trimLeft rest
  | 0xC2 :: 0xA0 :: rest => trimLeft rest
  | 0xE1 :: 0x9A :: 0x80 :: rest => trimLeft rest
  | 0xE2 :: 0x80 :: c :: rest => if endsSpace c then trimLeft rest else 0xE2 :: 0x80 :: c :: rest
  | 0xE2 :: 0x81 :: 0x9F :: rest => trimLeft rest
  | 0xE3 :: 0x80 :: 0x80 :: rest => trimLeft rest
  | c :: rest => if c == 32 || (9 ≤ c && c ≤ 13) then trimLeft rest else c :: rest

/-- A reversed text without the white space after the text. -/
def trimRight : GoString → GoString
  | [] => []
  | 0x85 :: 0xC2 :: rest => trimRight rest
  | 0xA0 :: 0xC2 :: rest => trimRight rest
  | 0x80 :: 0x9A :: 0xE1 :: rest => trimRight rest
  | c :: 0x80 :: 0xE2 :: rest => if endsSpace c then trimRight rest else c :: 0x80 :: 0xE2 :: rest
  | 0x9F :: 0x81 :: 0xE2 :: rest => trimRight rest
  | 0x80 :: 0x80 :: 0xE3 :: rest => trimRight rest
  | c :: rest => if c == 32 || (9 ≤ c && c ≤ 13) then trimRight rest else c :: rest

/-- `strings.TrimSpace`. -/
def trimSpace (s : GoString) : GoString := (trimRight (trimLeft s).reverse).reverse

/-- The segments of a group path. -/
def segments (g : GoString) : List GoString := ((trimSpace g).splitOn 47).filter (· ≠ [])

def groupPath (g : GoString) : GoString :=
  if segments g = [] then [] else 47 :: List.intercalate [47] (segments g)

def memberOfAny (have_ want : List GoString) : Bool :=
  have_.any (fun h => want.any (fun w => groupPath h ≠ [] && groupPath h = groupPath w))

private theorem segments_noSlash {g segment : GoString} (h : segment ∈ segments g) : 47 ∉ segment :=
  delimited.sep_notMem_of_mem_splitOn (List.mem_filter.mp h).1

private theorem groupPath_ne_nil {g : GoString} : groupPath g ≠ [] ↔ segments g ≠ [] := by
  rw [groupPath]
  split_ifs with hnil
  · simp [hnil]
  · simp [hnil]

/-- The segments can be told from a path. -/
theorem segments_of_groupPath {g : GoString} (h : segments g ≠ []) :
    (groupPath g).tail.splitOn 47 = segments g := by
  rw [groupPath, if_neg h, List.tail_cons]
  exact List.splitOn_intercalate 47 (fun _ hmem => segments_noSlash hmem) h

private theorem groupPath_eq_iff {g w : GoString} (h : segments g ≠ []) :
    groupPath g = groupPath w ↔ segments g = segments w := by
  constructor
  · intro hpath
    have hw : segments w ≠ [] := by
      rw [← groupPath_ne_nil, ← hpath, groupPath_ne_nil]
      exact h
    rw [← segments_of_groupPath h, ← segments_of_groupPath hw, hpath]
  · intro hsegments
    rw [groupPath, groupPath, hsegments]

/-- A group is wanted where its segments are those of one that is, and it has any. -/
theorem memberOfAny_iff {have_ want : List GoString} : memberOfAny have_ want = true ↔
    ∃ h ∈ have_, ∃ w ∈ want, segments h ≠ [] ∧ segments h = segments w := by
  simp only [memberOfAny, List.any_eq_true, Bool.and_eq_true, decide_eq_true_eq]
  constructor
  · rintro ⟨h, hh, w, hw, hne, heq⟩
    rw [groupPath_ne_nil] at hne
    exact ⟨h, hh, w, hw, hne, (groupPath_eq_iff hne).mp heq⟩
  · rintro ⟨h, hh, w, hw, hne, heq⟩
    exact ⟨h, hh, w, hw, groupPath_ne_nil.mpr hne, (groupPath_eq_iff hne).mpr heq⟩

/-- A path and a name are the same group. -/
example : memberOfAny [lit "/team-a", lit "/llm-usage-admins/"] [lit "llm-usage-admins"] = true :=
  by decide

end Groups

structure SessionActor where
  name : GoString := []
  email : GoString
  roles : List GoString

structure SessionAuth where
  mode : GoString
  signOutURL : GoString := []

/-- The person that makes a request, and how they signed in. -/
structure Caller where
  actor : SessionActor
  auth : SessionAuth

/-- How the console checks who is calling. -/
inductive Identity where
  | dev
  | gateway (discoveryURL : GoString) (tokens : oidc.Expected) (groups : List GoString)
  deriving DecidableEq

/-- What `authenticated` answers a request that it does not let pass. -/
structure SignInError where
  status : Nat
  code : GoString
  message : GoString
  retryAfter : Option GoString := none
  deriving DecidableEq

section Answers

def forbidden : SignInError where
  status := 403
  code := "forbidden"
  message := "ask an administrator to add you to the group that may see usage"

def identityUnavailable : SignInError where
  status := 503
  code := "identity_unavailable"
  message := "sign-in cannot be checked right now"
  retryAfter := some "5"

def unauthenticated : SignInError where
  status := 401
  code := "unauthenticated"
  message := "sign in again"

end Answers

/-- The groups claim; a text alone is none. -/
def groupsOf (claims : oidc.Claims) : List GoString :=
  match claims.get "groups" with
  | some (.array elems) => elems.filterMap (fun
    | .string s => some s
    | _ => none)
  | _ => []

/-- The person that a token's claims name. -/
def callerOf (claims : oidc.Claims) : Caller where
  actor := {
    name :=
      if claims.text "name" = [] then
        trimSpace (claims.text "given_name" ++ lit " " ++ claims.text "family_name")
      else claims.text "name"
    email := if claims.text "email" = [] then claims.text "preferred_username"
      else claims.text "email"
    roles := ["viewer"] }
  auth := { mode := "oidc", signOutURL := "/logout" }

/-- The token after the prefix of an Authorization header. -/
def bearer (header : GoString) : Option GoString :=
  if hasPrefix header "Bearer " = false ∨ header.drop (lit "Bearer ").length = [] then none
  else some (header.drop (lit "Bearer ").length)

/-- `Caller` of `GatewayIdentity` or `DevIdentity`, and what `authenticated` makes of its errors. -/
def authenticated : Identity → oidc.Middleware Caller SignInError
  | .dev => {
      enter _ := .admitted { actor := { email := "viewer", roles := ["viewer"] }, auth := { mode := "dev" } }
      leave _ := .error unauthenticated }
  | .gateway _ _ groups => {
      enter header :=
        match bearer header with
        | none => .refused unauthenticated
        | some raw => .validate raw
      leave
        | .error e => if e.wraps.isSome then .error identityUnavailable else .error unauthenticated
        | .ok claims =>
          if groups ≠ [] ∧ memberOfAny (groupsOf claims) groups = false then .error forbidden
            else .ok (callerOf claims) }

/-- The groups of a comma-separated list. -/
def requiredGroups (groups : GoString) : List GoString :=
  ((groups.splitOn 44).map trimSpace).filter (· ≠ [])

/-- `newIdentity`. -/
def newIdentity (issuer discovery clientID groups : GoString) (dev : Bool) :
    Except GoString Identity :=
  if dev ∧ issuer ≠ [] then
    .error "set either -dev ($CONSOLE_DEV_MODE) or -oidc-issuer-url ($OIDC_ISSUER_URL), not both"
  else if dev then .ok .dev
  else if issuer = [] then
    .error "-oidc-issuer-url ($OIDC_ISSUER_URL) is required unless -dev ($CONSOLE_DEV_MODE=true): the console shows everyone's usage"
  else if clientID = []
    then .error "-oidc-client-id ($OIDC_CLIENT_ID) is required with -oidc-issuer-url"
  else
    .ok (.gateway (trimSuffix (if discovery = [] then issuer else discovery) "/")
      { issuer := issuer, clientID := clientID, acceptAudience := true } (requiredGroups groups))

/-- What the validator of an identity checks tokens against. -/
def Identity.expected : Identity → oidc.Expected
  | .dev => { issuer := [] }
  | .gateway _ tokens _ => tokens

/-- What there is for how a request to the console ended: who may see the usage is a
member of a required group, if any is, by a token that is vouched for; who is to sign in
again brought none that is acceptable. -/
inductive Admission (jwt : oidc.Jwt) (x : oidc.Expected) (required : List GoString)
    (log : List oidc.Note) (now : Int)
    (i : Nat) (header : GoString) (began : Int) : Except SignInError Caller → Prop where
  | session {raw : GoString} {claims : oidc.Claims} (htoken : bearer header = some raw)
      (hvouched : oidc.Gate.Vouched jwt x log now i header began raw claims)
      (hmember : required = [] ∨ ∃ g ∈ groupsOf claims, ∃ w ∈ required, segments g ≠ [] ∧
        segments g = segments w) :
      Admission jwt x required log now i header began (.ok (callerOf claims))
  | forbidden {raw : GoString} {claims : oidc.Claims} (htoken : bearer header = some raw)
      (hvouched : oidc.Gate.Vouched jwt x log now i header began raw claims)
        (hrequired : required ≠ [])
      (hnone : ∀ g ∈ groupsOf claims, ∀ w ∈ required, segments g ≠ [] → segments g ≠ segments w) :
      Admission jwt x required log now i header began (.error forbidden)
  | unavailable {raw : GoString} (htoken : bearer header = some raw)
      (hunavailable : oidc.Gate.Unavailable jwt log i header began raw) :
      Admission jwt x required log now i header began (.error identityUnavailable)
  | noToken (htoken : bearer header = none) :
    Admission jwt x required log now i header began (.error unauthenticated)
  | unacceptable {raw : GoString} (htoken : bearer header = some raw)
      (hunacceptable : oidc.Gate.Unacceptable jwt x log now i header began raw) :
      Admission jwt x required log now i header began (.error unauthenticated)

section Calls

variable {jwt : oidc.Jwt} {issuer discovery clientID groups : GoString} {identity : Identity}

/-- An identity that is not the dev one pins tokens to an issuer and a client. -/
theorem newIdentity_inv (h : newIdentity issuer discovery clientID groups false = .ok identity) :
    issuer ≠ [] ∧ clientID ≠ [] ∧ ∃ discoveryURL, identity = .gateway discoveryURL
      { issuer := issuer, clientID := clientID, acceptAudience := true } (requiredGroups groups) := by
  rw [newIdentity] at h
  simp only [Bool.false_eq_true, false_and, if_false] at h
  by_cases hissuer : issuer = []
  · rw [if_pos hissuer] at h
    cases h
  · rw [if_neg hissuer] at h
    by_cases hclientID : clientID = []
    · rw [if_pos hclientID] at h
      cases h
    · rw [if_neg hclientID] at h
      exact ⟨hissuer, hclientID, _, (Except.ok.inj h).symm⟩

private theorem admission_of_claims {x : oidc.Expected} {required : List GoString} {log : List oidc.Note} {now began : Int} {i : Nat}
    {header raw discoveryURL : GoString} {result : Except oidc.TokenError oidc.Claims} (hdoc : jwt.AsDocumented)
    (htoken : bearer header = some raw) (h : oidc.Gate.Accounted jwt x log now i header began raw result) :
    Admission jwt x required log now i header began ((authenticated (.gateway discoveryURL x required)).leave result) := by
  cases result with
  | error e =>
    obtain ⟨hwraps, hunacceptable⟩ | ⟨hwraps, hunavailable⟩ := h.refused
    · have hleave : (authenticated (.gateway discoveryURL x required)).leave (.error e) = .error unauthenticated := by
        simp [authenticated, hwraps]
      rw [hleave]
      exact .unacceptable htoken hunacceptable
    · have hleave : (authenticated (.gateway discoveryURL x required)).leave (.error e) = .error identityUnavailable := by
        simp [authenticated, hwraps]
      rw [hleave]
      exact .unavailable htoken hunavailable
  | ok claims =>
    simp only [authenticated]
    split_ifs with hgroups
    · refine .forbidden htoken (h.vouched hdoc) hgroups.1 ?_
      intro g hg w hw hne heq
      have hmember := memberOfAny_iff.mpr ⟨g, hg, w, hw, hne, heq⟩
      rw [hgroups.2] at hmember
      cases hmember
    · refine .session htoken (h.vouched hdoc) ?_
      by_cases hrequired : required = []
      · exact .inl hrequired
      · right
        rw [← memberOfAny_iff]
        by_contra hnot
        exact hgroups ⟨hrequired, Bool.eq_false_iff.mpr hnot⟩

/-- In every run of a console that does not start in dev mode, however requests and
refreshes of the provider's keys fall together, each request ends as its token deserves:
it is pinned to the issuer, to the client and to the required groups. -/
theorem calls_admitted (hdoc : jwt.AsDocumented) (hnew : newIdentity issuer discovery clientID groups false = .ok identity)
    {now : Int} {g : oidc.Gate Caller SignInError} {log : List oidc.Note}
    (hrun : Run (fun g a => g.step jwt identity.expected (authenticated identity) a) { validator := { now := now } } g log)
    {i : Nat} {result : Except SignInError Caller} (hended : g.passages i = .ended result) :
    issuer ≠ [] ∧ clientID ≠ [] ∧ ∃ header began, .arrived i header began ∈ log ∧
      Admission jwt { issuer := issuer, clientID := clientID, acceptAudience := true } (requiredGroups groups) log
        g.validator.now i header began result := by
  obtain ⟨hissuer, hclientID, discoveryURL, rfl⟩ := newIdentity_inv hnew
  refine ⟨hissuer, hclientID, ?_⟩
  obtain ⟨header, began, harrived, houtcome⟩ := (oidc.Gate.Inv.of_run hrun).ended i result hended
  refine ⟨header, began, harrived, ?_⟩
  cases houtcome with
  | admitted henter =>
    simp only [authenticated] at henter
    split at henter
    · cases henter
    · cases henter
  | refused henter =>
    simp only [authenticated] at henter
    split at henter
    · next htoken =>
      obtain rfl := oidc.Entry.refused.inj henter
      exact .noToken htoken
    · cases henter
  | @validated raw result henter haccounted =>
    simp only [authenticated] at henter
    split at henter
    · cases henter
    · next htoken =>
      obtain rfl := oidc.Entry.validate.inj henter
      exact admission_of_claims hdoc htoken haccounted

end Calls

section Example

/-- The console of a realm, for two groups of it. -/
def consoleIdentity : Identity :=
  .gateway "https://id.example/realms/nebari"
    { issuer := "https://id.example/realms/nebari", clientID := "llm-keys", acceptAudience := true }
    [lit "admins", lit "/llm-users/"]

/-- The realm's keys are fetched, and alice's token is checked. -/
def opensConsole : List oidc.Gate.Act :=
  [.validator .attempt, .validator (.request .background),
    .validator (.respond .background (.ok [oidc.realm.entry])),
    .validator (.settle .background), .validator .markReady,
      .arrive 0 (lit "Bearer " ++ oidc.realm.token),
    .validator (.lookup 0), .conclude 0]

/-- The email of the person a request ended with. -/
def endedAs : oidc.Passage Caller SignInError → Option GoString
  | .ended (.ok caller) => some caller.actor.email
  | _ => none

def opened : Option (oidc.Gate Caller SignInError × List oidc.Note) :=
  take (fun g a => g.step oidc.realm.jwt consoleIdentity.expected (authenticated consoleIdentity) a)
    opensConsole
    ({ validator := { now := 1 } }, [])

private theorem opened_ends : opened.any (fun r => endedAs (r.1.passages 0) = some (lit "alice")) = true := by
  decide +kernel

/-- Alice is a member of the second group. -/
theorem alice_admitted :
    ∃ (now : Int) (log : List oidc.Note) (caller : Caller) (header : GoString) (began : Int),
    caller.actor.email = "alice" ∧ .arrived 0 header began ∈ log ∧
      Admission oidc.realm.jwt { issuer := "https://id.example/realms/nebari", clientID := "llm-keys", acceptAudience := true }
        [lit "admins", lit "/llm-users/"] log now 0 header began (.ok caller) := by
  obtain ⟨⟨g, log⟩, htake, hends⟩ := (Option.any_eq_true _ _).mp opened_ends
  have hrun := Run.take .start htake
  have hnew : newIdentity "https://id.example/realms/nebari"
      [] "llm-keys" "admins, /llm-users/" false = .ok consoleIdentity := by
    decide +kernel
  rw [decide_eq_true_eq] at hends
  cases hpassage : g.passages 0 with
  | idle =>
    rw [hpassage] at hends
    cases hends
  | looking raw claims =>
    rw [hpassage] at hends
    cases hends
  | ended result =>
    rw [hpassage] at hends
    cases result with
    | error e => cases hends
    | ok caller =>
      obtain ⟨-, -, header, began, harrived, hadmission⟩ :=
        calls_admitted oidc.realm.jwt_asDocumented hnew hrun hpassage
      have hgroups : requiredGroups "admins, /llm-users/" = [lit "admins", lit "/llm-users/"] := by
        decide +kernel
      rw [hgroups] at hadmission
      exact ⟨_, log, caller, header, began, Option.some.inj hends, harrived, hadmission⟩

end Example

end openmeter
