import ServingPack.KeyManager.Manager

open golang apiserver concurrency kube

namespace secrets

/-- Whether a text has one of the words that `isConflict` looks for. -/
def mentions (s : GoString) : Bool := contains s "conflict" || contains s "409"

private theorem isConflict_eq (e : StatusError) : isConflict e = mentions e.message := rfl

/-- The bytes that the texts put around a name: a blank, a quote, a dash and a colon. -/
def separators : List UInt8 := [32, 34, 45, 58]

/-- The words have no separator, so they are found on one side of it. -/
theorem mentions_sep {c : UInt8} (hc : c ∈ separators) (s t : GoString) :
    mentions (s ++ c :: t) = (mentions s || mentions t) := by
  have habsent : ∀ word : GoString, separators.all (fun c => decide (c ∉ word)) = true →
      c ∉ word := by
    intro word h
    simpa using List.all_eq_true.mp h c hc
  have hconflict : c ∉ lit "conflict" := habsent _ (by decide)
  have hcode : c ∉ lit "409" := habsent _ (by decide)
  rw [mentions, mentions, mentions, contains_sep hconflict, contains_sep hcode]
  ac_rfl

private theorem mentions_before {c : UInt8} {s : GoString} (hc : c ∈ separators)
    (h : s.head? = some c) (t : GoString) :
    mentions (t ++ s) = (mentions t || mentions s) := by
  obtain ⟨rest, rfl⟩ := List.head?_eq_some_iff.mp h
  have hrest : mentions (c :: rest) = mentions rest := mentions_sep hc [] rest
  rw [mentions_sep hc, hrest]

private theorem mentions_after {c : UInt8} {s : GoString} (hc : c ∈ separators)
    (h : s.getLast? = some c) (t : GoString) :
    mentions (s ++ t) = (mentions s || mentions t) := by
  obtain ⟨init, rfl⟩ := List.getLast?_eq_some_iff.mp h
  have hinit : mentions (init ++ [c]) = mentions init := by
    rw [mentions_sep hc, show mentions [] = false from rfl, Bool.or_false]
  rw [hinit, List.append_assoc, List.singleton_append, mentions_sep hc]

/-- What a failed request is described as on its way out of an attempt. -/
def sites (modelName : GoString) : List GoString :=
  [("API key secret not found for model " : GoString) ++ modelName ++
    (" - has the operator created it?" : GoString),
    ("API key metadata ConfigMap not found for model " : GoString) ++ modelName ++
      (" - has the operator created it?" : GoString),
    ("updating Secret for model " : GoString) ++ modelName,
    ("updating ConfigMap for model " : GoString) ++ modelName]

/-- The names of the model's objects. -/
def objectsOf (modelName : GoString) : List (Kind × GoString) :=
  [(.secret, secretName modelName), (.configMap, configMapName modelName)]

/-- The texts of the client library: that of a conflict and that of a missing object name the
object. -/
def Reads (modelName : GoString) (e : StatusError) : Prop :=
  (e.reason = .conflict →
    ∃ object ∈ objectsOf modelName, e = conflict (B := Body) object.1 object.2 modified) ∧
    (e.reason = .notFound →
      ∃ object ∈ objectsOf modelName, e = notFound (B := Body) object.1 object.2)

section Texts

variable {modelName site : GoString} {e : StatusError}

private theorem mentions_site (h : site ∈ sites modelName) :
    mentions site = mentions modelName := by
  have hlast : ∀ left : GoString, left.getLast? = some 32 → mentions left = false →
      mentions (left ++ modelName) = mentions modelName := by
    intro left hblank hleft
    rw [mentions_after (by decide) hblank, hleft, Bool.false_or]
  have hinner : ∀ left : GoString, left.getLast? = some 32 → mentions left = false →
      mentions (left ++ modelName ++ (" - has the operator created it?" : GoString)) =
        mentions modelName := by
    intro left hblank hleft
    have hend : mentions " - has the operator created it?" = false := by decide
    rw [@mentions_before 32 _ (by decide) (by decide), hlast left hblank hleft, hend, Bool.or_false]
  simp only [sites, List.mem_cons, List.not_mem_nil, or_false] at h
  rcases h with rfl | rfl | rfl | rfl
  · exact hinner _ (by decide) (by decide)
  · exact hinner _ (by decide) (by decide)
  · exact hlast _ (by decide) (by decide)
  · exact hlast _ (by decide) (by decide)

/-- A described error mentions a conflict where the model's name or the error's own text does. -/
theorem isConflict_wrap (h : site ∈ sites modelName) (e : StatusError) :
    isConflict (e.wrap site) = (mentions modelName || mentions e.message) := by
  have hcolon : mentions ": " = false := by decide
  rw [isConflict_eq, StatusError.wrap, List.append_assoc, @mentions_before 58 _ (by decide) rfl,
    @mentions_after 32 _ (by decide) (by decide), mentions_site h, hcolon, Bool.false_or]

private theorem mentions_describe {object : Kind × GoString} (h : object ∈ objectsOf modelName) :
    mentions (describe (B := Body) object.1 object.2) = mentions modelName := by
  have hname : ∀ suffix : GoString, suffix.head? = some 45 → mentions suffix = false →
      mentions (quote (modelName ++ suffix)) = mentions modelName := by
    intro suffix hdash hsuffix
    have hquote : mentions "\"" = false := by decide
    rw [quote, @mentions_before 34 _ (by decide) (by decide),
      @mentions_after 34 _ (by decide) (by decide), @mentions_before 45 _ (by decide) hdash, hquote,
      hsuffix, Bool.false_or, Bool.or_false, Bool.or_false]
  have hkind : ∀ (resource : GoString) (quoted : GoString), mentions resource = false →
      mentions (resource ++ (" " : GoString) ++ quoted) = mentions quoted := by
    intro resource quoted hresource
    have hblank : mentions " " = false := by decide
    rw [List.append_assoc, @mentions_before 32 _ (by decide) rfl,
      @mentions_after 32 _ (by decide) (by decide), hresource, hblank, Bool.false_or, Bool.false_or]
  simp only [objectsOf, List.mem_cons, List.not_mem_nil, or_false] at h
  rcases h with rfl | rfl
  · exact (hkind (resource .secret) _ (by decide)).trans (hname "-api-keys" (by decide) (by decide))
  · exact (hkind (resource .configMap) _ (by decide)).trans
      (hname "-api-key-metadata" (by decide) (by decide))

/-- The text of a conflict mentions one only in the model's name. -/
theorem mentions_conflict {object : Kind × GoString} (h : object ∈ objectsOf modelName) :
    mentions (conflict (B := Body) object.1 object.2 modified).message = mentions modelName := by
  have hstart : mentions "Operation cannot be fulfilled on " = false := by decide
  have hcolon : mentions ": " = false := by decide
  have hcause : mentions modified = false := by decide
  rw [conflict, List.append_assoc, @mentions_before 58 _ (by decide) rfl,
    @mentions_after 32 _ (by decide) (by decide), @mentions_after 32 _ (by decide) (by decide),
    hstart, hcolon, hcause, mentions_describe h]
  simp

end Texts

section Attempts

variable {α β : Type} {modelName : GoString}

/-- The error of an API request ends the attempt, described by one of the model's sites. -/
def FailsAt (modelName : GoString) :
    (q : Request) → (Answer q → Program Request Answer (Except StatusError α)) → Prop
  | .api _, rest => ∀ e, ∃ site ∈ sites modelName, rest (.error e) = .pure (.error (e.wrap site))
  | .rand _ _, _ => True
  | .now, _ => True

private theorem failsAt_bind {x : Call α} {f : α → Call β} (hx : x.run.EachCall (FailsAt modelName))
    (hf : ∀ value, (f value).run.EachCall (FailsAt modelName)) :
    (x >>= f).run.EachCall (FailsAt modelName) := by
  rw [Fallible.run_bind_eq]
  generalize x.run = p at hx
  induction p with
  | pure r =>
    cases r with
    | ok value => exact hf value
    | error e => trivial
  | call request rest ih =>
    refine ⟨?_, fun answer => ih answer (hx.2 answer)⟩
    cases request with
    | api request =>
      intro e
      obtain ⟨site, hsite, hrest⟩ := hx.1 e
      refine ⟨site, hsite, ?_⟩
      show (rest (.error e)).bind _ = _
      rw [hrest]
      rfl
    | rand n accept => trivial
    | now => trivial

private theorem failsAt_api {site : GoString} (hsite : site ∈ sites modelName)
    (request : apiserver.Request Body) :
    (Fallible.mapError (wrapped site)
      (ExceptT.mk (.ask (Request.api request)) : Call request.Result)).run.EachCall
      (FailsAt modelName) :=
  ⟨fun _ => ⟨site, hsite, rfl⟩, fun _ => trivial⟩

private theorem failsAt_createKeyOnce (m : Manager) (creator : Creator) (description : GoString) :
    (m.createKeyOnce modelName creator description).run.EachCall (FailsAt modelName) := by
  refine failsAt_bind (failsAt_api (by simp [sites]) _) fun secret => ?_
  refine failsAt_bind (failsAt_api (by simp [sites]) _) fun cm => ?_
  refine failsAt_bind ⟨trivial, fun _ => trivial⟩ fun suffix => ?_
  refine failsAt_bind ⟨trivial, fun answer => ?_⟩ fun apiKey => ?_
  · cases answer with
    | ok bytes => trivial
    | error e => trivial
  refine failsAt_bind (failsAt_api (by simp [sites]) _) fun _ => ?_
  refine failsAt_bind ⟨trivial, fun _ => trivial⟩ fun createdAt => ?_
  exact failsAt_bind (failsAt_api (by simp [sites]) _) fun _ => trivial

private theorem failsAt_revokeKeyOnce (clientID : GoString) :
    (Manager.revokeKeyOnce modelName clientID).run.EachCall (FailsAt modelName) := by
  refine failsAt_bind (failsAt_api (by simp [sites]) _) fun secret => ?_
  refine failsAt_bind (failsAt_api (by simp [sites]) _) fun cm => ?_
  split_ifs
  · refine failsAt_bind (failsAt_api (by simp [sites]) _) fun _ => ?_
    refine failsAt_bind ⟨trivial, fun _ => trivial⟩ fun now => ?_
    exact failsAt_bind (failsAt_api (by simp [sites]) _) fun _ => trivial
  · trivial

/-- An attempt that is not the last one, and what follows it. -/
theorem retry_run (tooMany : StatusError) (once : Call α) (n : Nat) :
    (retry tooMany once (n + 1)).run = once.run.bind (fun r => match r with
      | .ok result => .pure (.ok result)
      | .error e => if isConflict e then (retry tooMany once n).run else .pure (.error e)) := by
  rw [retry, Fallible.run_bind_eq, Fallible.run_attempt, Program.bind_assoc]
  rfl

/-- What the claim of a retry asks for: after the request of an attempt failed with `e`,
the error is taken for a conflict exactly if it is one; then the next attempt follows,
and otherwise the call returns the error. -/
def RetriesConflicts (tooMany : StatusError) (once : Call α) (log : List (Σ q : Request, Answer q))
    (request : apiserver.Request Body)
    (rest : Answer (.api request) → Program Request Answer (Except StatusError α))
    (e : StatusError) (n : Nat) : Prop :=
  ∃ w : StatusError, w.reason = e.reason ∧ rest (.error e) = .pure (.error w) ∧
    (isConflict w = true ↔ e.reason = .conflict) ∧
    (retry tooMany once (n + 2)).run.Reaches (log ++ [⟨.api request, .error e⟩])
      (if e.reason = .conflict then (retry tooMany once (n + 1)).run else .pure (.error w))

/-- Exactly when an attempt's error is told apart: a conflict by its model's name, any other
error by the lack of the words in the name and in its own text. -/
def ToldApart (modelName : GoString) (e : StatusError) : Prop :=
  if e.reason = .conflict then mentions modelName = true else mentions modelName = false ∧
    mentions e.message = false

private theorem isConflict_wrap_iff {site : GoString} (hsite : site ∈ sites modelName)
    {e : StatusError} (hreads : Reads modelName e) :
    (isConflict (e.wrap site) = true ↔ e.reason = .conflict) ↔ ToldApart modelName e := by
  rw [isConflict_wrap hsite, ToldApart]
  split_ifs with hconflict
  · obtain ⟨object, hobject, heq⟩ := hreads.1 hconflict
    have hown : mentions e.message = mentions modelName := by rw [heq, mentions_conflict hobject]
    simp [hconflict, hown]
  · simp [hconflict]

/-- An attempt's error is retried exactly if it is a conflict, where it is told apart and only
there. -/
theorem retriesConflicts_iff {tooMany : StatusError} {once : Call α}
    {log : List (Σ q : Request, Answer q)} {request : apiserver.Request Body}
    {rest : Answer (.api request) → Program Request Answer (Except StatusError α)}
    {e : StatusError} (n : Nat) (honce : once.run.EachCall (FailsAt modelName))
    (hasked : once.run.Reaches log (.call (.api request) rest)) (hreads : Reads modelName e) :
    RetriesConflicts tooMany once log request rest e n ↔ ToldApart modelName e := by
  obtain ⟨site, hsite, hrest⟩ := (honce.reaches hasked).1 e
  rw [← isConflict_wrap_iff hsite hreads]
  constructor
  · rintro ⟨w, _, hw, htold, _⟩
    obtain rfl : e.wrap site = w := Except.error.inj (Program.pure.inj (hrest.symm.trans hw))
    exact htold
  · intro htold
    refine ⟨e.wrap site, e.wrap_reason site, hrest, htold, ?_⟩
    have hreach := hasked.bind (fun r => match r with
      | .ok result => .pure (.ok result)
      | .error e => if isConflict e then (retry tooMany once (n + 1)).run else .pure (.error e))
    rw [← retry_run] at hreach
    have hstep := hreach.step (.error e)
    simp only [hrest, Program.pure_bind] at hstep
    simp only [htold] at hstep
    exact hstep

end Attempts

namespace Manager

/-- For every error the API answers an attempt's request with, creating and revoking a
key retry exactly the conflicts where the error is told apart, and only there. -/
theorem attempts_retry_iff (m : Manager) (modelName : GoString) (e : StatusError)
    (tooMany : StatusError) (n : Nat)
    (log : List (Σ q : Request, Answer q)) (request : apiserver.Request Body)
    (hreads : Reads modelName e) :
    (∀ creator description rest,
      (m.createKeyOnce modelName creator description).run.Reaches log (.call (.api request) rest) →
        (RetriesConflicts tooMany (m.createKeyOnce modelName creator description) log request rest e
          n ↔
          ToldApart modelName e)) ∧
    ∀ clientID rest, (revokeKeyOnce modelName clientID).run.Reaches log
      (.call (.api request) rest) →
      (RetriesConflicts tooMany (revokeKeyOnce modelName clientID) log request rest e n ↔
        ToldApart modelName e) :=
  ⟨fun creator description _ hasked =>
    retriesConflicts_iff n (failsAt_createKeyOnce m creator description) hasked hreads,
    fun clientID _ hasked => retriesConflicts_iff n (failsAt_revokeKeyOnce clientID) hasked hreads⟩

/-- A revocation that finds its key goes on to write the Secret. -/
theorem revokeKeyOnce_updates (modelName clientID : GoString) (secret : Object SecretBody)
    (cm : Object ConfigMapBody)
    (h : clientID ∈ secret.body.data) : ∃ rest, (revokeKeyOnce modelName clientID).run.Reaches
      [⟨.api (.get .secret (secretName modelName)), .ok secret⟩,
        ⟨.api (.get .configMap (configMapName modelName)), .ok cm⟩]
      (.call (.api (.update .secret (secretName modelName)
        { secret with body.data := secret.body.data.erase clientID })) rest) := by
  obtain ⟨rest, hrest⟩ : ∃ rest, (removeKey modelName clientID secret cm).run =
    .call (.api (.update .secret
      (secretName modelName) { secret with body.data := secret.body.data.erase clientID })) rest :=
        ⟨_, rfl⟩
  refine ⟨rest, .call (.call ?_)⟩
  show Program.Reaches (if clientID ∈ secret.body.data then removeKey modelName clientID secret cm
    else throw _ : Call Unit).run [] _
  rw [if_pos h, hrest]
  exact .refl _

def plainManager : Manager where
  «namespace» := "llm-serving"
  sha256 _ := List.replicate 32 0

def refused : StatusError := ⟨.other, "dial tcp 10.0.0.1:443: connect: connection refused"⟩

/-- A connection error while reading the Secret of the model `chat` is returned at once. -/
theorem refused_returned : ∃ rest, (revokeKeyOnce "chat" "user-alice-1").run.Reaches []
    (.call (.api (.get .secret (secretName "chat"))) rest) ∧
      RetriesConflicts (errorf "too many conflicts") (revokeKeyOnce "chat" "user-alice-1") []
        (.get .secret (secretName "chat")) rest refused 1 := by
  refine ⟨_, .refl _, ((attempts_retry_iff plainManager "chat" refused
    (errorf "too many conflicts") 1 []
    (.get .secret (secretName "chat")) ⟨fun h => (by cases h), fun h => (by cases h)⟩).2
      "user-alice-1" _ (.refl _)).mpr ?_⟩
  exact ⟨by decide, by decide⟩

/-- The secret of the model `chat`, with one key. -/
def chatSecret : Object SecretBody where
  metadata := { uid := 1, resourceVersion := 1 }
  body := { data := GoMap.ofList [("user-alice-1", "sk-1")] }

def chatConfigMap : Object ConfigMapBody where
  metadata := { uid := 2, resourceVersion := 2 }
  body := { data := ∅ }

/-- The server's conflict on the Secret of the model `chat` does not mention one: the
revocation gives up at its first attempt. -/
theorem chatConflict_returned :
    ¬∀ (modelName clientID : GoString) (e tooMany : StatusError) (n : Nat)
    (log : List (Σ q : Request, Answer q))
    (request : apiserver.Request Body) rest, Reads modelName e →
      (revokeKeyOnce modelName clientID).run.Reaches log (.call (.api request) rest) →
        RetriesConflicts tooMany (revokeKeyOnce modelName clientID) log request rest e n := by
  intro h
  obtain ⟨rest, hasked⟩ :=
    revokeKeyOnce_updates "chat" "user-alice-1" chatSecret chatConfigMap (by decide +kernel)
  have hreads : Reads "chat" (conflict (B := Body) .secret (secretName "chat") modified) :=
    ⟨fun _ => ⟨(.secret, secretName "chat"), List.mem_cons_self, rfl⟩, fun h => (by cases h)⟩
  have htold := (retriesConflicts_iff 1 (failsAt_revokeKeyOnce "user-alice-1") hasked hreads).mp
    (h "chat" "user-alice-1" _ (errorf "too many conflicts") 1 _ _ rest hreads hasked)
  have hconflict : (conflict (B := Body) .secret (secretName "chat") modified).reason = .conflict :=
    rfl
  rw [ToldApart, if_pos hconflict] at htold
  exact absurd htold (by decide)

end Manager

end secrets
