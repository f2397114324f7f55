import ServingPack.Operator.Controller.Conditions
import ServingPack.Operator.Controller.Told

open golang apiserver concurrency kube v1alpha1 reconcilers

namespace controller

/-- A reconcile was told that an object is not there, or could not look. -/
def Gone (log : CallLog) (kind : Kind) (name : GoString) : Prop :=
  (∃ e, Told log (.get kind name) (.error e)) ∨ Deleted log kind name {}

/-- The client IDs a reconcile takes from its first look at a model's Secret. -/
def Identified (log : CallLog) (name : GoString) (clientIDs : List GoString) : Prop :=
  ∃ found, FirstTold log (.get .secret (apiKeySecretName name)) found ∧
    ((∃ secret, found = .ok secret ∧ clientIDs = clientIDsFromSecret secret) ∨
      ∃ e : StatusError, found = .error e ∧ e.reason = .notFound ∧ clientIDs = [])

/-- The Secret names a reconcile pools, from the first listing it read. -/
def Pooled (log : CallLog) (name : GoString) (names : List GoString) : Prop :=
  ∃ listed, FirstTold log (.list .secret managedByOperator) (.ok listed) ∧
    names = pooledNames (apiKeySecretName name) listed

/-- A request for policies failed because their kind is not installed. -/
def Unserved (log : CallLog) : Prop :=
  ∃ (q : Request Body) (e : StatusError), q.kind = .securityPolicy ∧ e.reason = .noMatch ∧
    Told log q (.error e)

/-- The model a reconcile cleans up after. -/
def Deleting {kind : Kind} (log : CallLog) (name : GoString) (first : Object (Body kind)) : Prop :=
  Began log name first ∧ first.metadata.deletionTimestamp = true ∧ containsFinalizer first = true

/-- A change of labels, annotations and contents only. -/
def KeepsIdentity {B : Type} (merge : Object B → Object B) : Prop :=
  ∀ existing, ∃ labels annotations,
    (merge existing).metadata = { existing.metadata with labels := labels, annotations := annotations }

section Suffix

variable {log log' : CallLog} {kind : Kind} {name : GoString}

private theorem Deleted.suffix {preconditions : Preconditions}
    (h : Deleted log kind name preconditions) (hlog : log <:+ log') :
    Deleted log' kind name preconditions := by
  rcases h with h | ⟨e, hreason, h⟩
  · exact .inl (h.suffix hlog)
  · exact .inr ⟨e, hreason, h.suffix hlog⟩

/-- What was seen gone stays seen as the log grows. -/
theorem Gone.suffix (h : Gone log kind name) (hlog : log <:+ log') : Gone log' kind name := by
  rcases h with ⟨e, h⟩ | h
  · exact .inl ⟨e, h.suffix hlog⟩
  · exact .inr (h.suffix hlog)

/-- A run that began by cleaning up after a model does so throughout. -/
theorem Deleting.suffix {first : Object (Body kind)} (h : Deleting log name first)
    (hlog : log <:+ log') :
    Deleting log' name first := ⟨h.1.suffix hlog, h.2⟩

/-- Client IDs that were read stay read. -/
theorem Identified.suffix {clientIDs : List GoString} (h : Identified log name clientIDs)
    (hlog : log <:+ log') :
    Identified log' name clientIDs := by
  obtain ⟨found, hfound, hids⟩ := h
  exact ⟨found, hfound.suffix hlog, hids⟩

/-- A run reads the client IDs of its Secret once. -/
theorem Identified.unique {clientIDs clientIDs' : List GoString} (h : Identified log name clientIDs)
    (h' : Identified log name clientIDs') : clientIDs = clientIDs' := by
  obtain ⟨found, hfound, hids⟩ := h
  obtain ⟨found', hfound', hids'⟩ := h'
  obtain rfl := hfound.unique hfound'
  rcases hids with ⟨secret, rfl, rfl⟩ | ⟨e, rfl, _, rfl⟩
  · rcases hids' with ⟨secret', heq, rfl⟩ | ⟨e, heq, _⟩
    · rw [Except.ok.inj heq]
    · cases heq
  · rcases hids' with ⟨secret', heq, rfl⟩ | ⟨e, _, _, rfl⟩
    · cases heq
    · rfl

/-- A pool that was listed stays listed. -/
theorem Pooled.suffix {names : List GoString} (h : Pooled log name names) (hlog : log <:+ log') :
    Pooled log' name names := by
  obtain ⟨listed, h, heq⟩ := h
  exact ⟨listed, h.suffix hlog, heq⟩

/-- A run lists its pool once. -/
theorem Pooled.unique {names names' : List GoString} (h : Pooled log name names)
    (h' : Pooled log name names') :
    names = names' := by
  obtain ⟨listed, hlisted, rfl⟩ := h
  obtain ⟨listed', hlisted', rfl⟩ := h'
  rw [Except.ok.inj (hlisted.unique hlisted')]

/-- A kind that isn't served stays so for the run. -/
theorem Unserved.suffix (h : Unserved log) (hlog : log <:+ log') : Unserved log' := by
  obtain ⟨q, e, hkind, hreason, h⟩ := h
  exact ⟨q, e, hkind, hreason, h.suffix hlog⟩

end Suffix

section Apply

variable {log : CallLog} {q : Request Body} {B : Type}

/-- Whatever an apply sends is for the desired object's name. -/
theorem applyRequest_target {kind : Kind} {merge : Object (Body kind) → Object (Body kind)}
    {desired : Named (Body kind)}
    (h : ApplyRequest log kind merge desired q) : q.target = some (kind, desired.name) := by
  cases h with
  | create => rfl
  | update => rfl

/-- Merging labels moves neither the name nor what says whose object it is. -/
theorem keepsIdentity_labels (desired : Named B) : KeepsIdentity (mergeLabels desired) :=
  fun existing => ⟨desired.metadata.labels, existing.metadata.annotations, rfl⟩

/-- Nor does merging the body. -/
theorem keepsIdentity_body (desired : Named B) : KeepsIdentity (mergeBody desired) :=
  fun existing => ⟨desired.metadata.labels, existing.metadata.annotations, rfl⟩

end Apply

open Protocol

/-- A step of a reconcile that asks only what is allowed. -/
abbrev Keeping (allowed : CallLog → Request Body → Prop) (log : CallLog) {α : Type} (x : Call α) :
    Prop :=
  (logged allowed).Follows log x.run (fun _ _ => True)

/-- Reads are always allowed. -/
structure Reads (allowed : CallLog → Request Body → Prop) : Prop where
  get : ∀ log kind name, allowed log (.get kind name)
  list : ∀ log kind matching, allowed log (.list kind matching)

section Combinators

variable {allowed : CallLog → Request Body → Prop} {log : CallLog} {name : GoString} {α β : Type}

theorem keeping_pure (value : α) : Keeping allowed log (pure value) := trivial

/-- Programs in a row keep to their requests where each one does, whatever the first was
answered. -/
theorem keeping_bind {x : Call α} {next : α → Call β} (hx : Keeping allowed log x)
    (hnext : ∀ value log', log <:+ log' → Keeping allowed log' (next value)) :
    Keeping allowed log (x >>= next) :=
  Follows.andThen hx (fun value log' hlog _ => hnext value log' hlog) (fun _ _ _ _ => trivial)

/-- A step whose error is looked at keeps to its requests, in both outcomes. -/
theorem keeping_attempt {x : Call α} {next : Except StatusError α → Call β}
    (hx : Keeping allowed log x)
    (hnext : ∀ value log', log <:+ log' → Keeping allowed log' (next value)) :
    Keeping allowed log (Fallible.attempt x >>= next) :=
  Follows.attemptThen hx (fun value log' hlog _ => hnext value log' hlog)

/-- Wrapping an error asks nothing. -/
theorem keeping_orFail {text : GoString} {x : Call α} (hx : Keeping allowed log x) :
    Keeping allowed log (orFail text x) :=
  Follows.mapError hx (fun _ _ _ => trivial) (fun _ _ _ => trivial)

/-- Neither does dropping one. -/
theorem keeping_orSkip {x : Call Unit} (hx : Keeping allowed log x) :
    Keeping allowed log (orSkip x) :=
  keeping_attempt hx (fun _ _ _ => trivial)

theorem keeping_ask {q : Request Body} (h : allowed log q) :
    Keeping allowed log (ExceptT.mk (Program.ask q) : Call q.Result) :=
  (follows_ask h).mono (fun _ _ _ => trivial)

/-- An apply keeps to its requests where its writes do: it reads the object and no other. -/
theorem keeping_createOrUpdate (hreads : Reads allowed) {kind : Kind}
    {merge : Object (Body kind) → Object (Body kind)} {desired : Named (Body kind)}
    (hwrite : ∀ log' q, log <:+ log' → ApplyRequest log' kind merge desired q → allowed log' q) :
    Keeping allowed log (createOrUpdate kind merge desired) :=
  (follows_createOrUpdate (hreads.get _ _ _) hwrite).mono (fun _ _ _ => trivial)

/-- What holds after a success still does when errors are described further. -/
theorem follows_orFail {text : GoString} {x : Call α} {P : α → CallLog → Prop}
    (hx : (logged allowed).Follows log x.run (fun res log' => ∀ value, res = .ok value →
      P value log')) :
    (logged allowed).Follows log (orFail text x).run
    (fun res log' => ∀ value, res = .ok value → P value log') :=
  Follows.mapError hx (fun _ _ h => h) (fun _ _ _ => nofun)

/-- Where it succeeds, the object was deleted or seen absent. -/
theorem follows_deleteIfFound (hreads : Reads allowed) {kind : Kind} {text : GoString}
    (hdelete : ∀ log', log <:+ log' → allowed log' (.delete kind name {})) :
    (logged allowed).Follows log (deleteIfFound kind name text).run
      (fun res log' => ∀ value, res = .ok value → Gone log' kind name) := by
  refine Follows.attemptThen (follows_ask (hreads.get _ _ _)) (fun res log' hlog htold => ?_)
  cases res with
  | ok found =>
    refine follows_orFail ((follows_deleteFound (hdelete log' hlog)).mono ?_)
    exact fun res log'' h value hres => .inr (h hres)
  | error e => exact fun _ _ => .inl ⟨e, htold⟩

end Combinators

section Keys

variable {allowed : CallLog → Request Body → Prop} {log : CallLog} {name : GoString}

/-- Neither the Secret nor the listing of Secrets was read yet. -/
def Unread (log : CallLog) (name : GoString) : Prop :=
  (∀ b, (⟨.get .secret (apiKeySecretName name), b⟩ : Σ q : Request Body, Answer q) ∉ log) ∧
    ∀ b, (⟨.list .secret managedByOperator, b⟩ : Σ q : Request Body, Answer q) ∉ log

/-- The client IDs come from the model's own Secret, read once and before any list. -/
theorem follows_apiKeyClientIDs (hreads : Reads allowed) (hunread : Unread log name) :
    (logged allowed).Follows log (apiKeyClientIDs name).run
      (fun res log' => ∀ clientIDs, res = .ok clientIDs → Identified log' name clientIDs ∧
        ∀ b, (⟨.list .secret managedByOperator, b⟩ : Σ q : Request Body, Answer q) ∉ log') := by
  refine Follows.attemptThen (follows_askFirst (hreads.get _ _ _) hunread.1) ?_
  rintro res log' _ ⟨rfl, htold⟩
  have hunlisted (b) : (⟨.list .secret managedByOperator, b⟩ : Σ q : Request Body, Answer q) ∉
      ⟨.get .secret (apiKeySecretName name), res⟩ :: log := by
    rintro (_ | ⟨_, hmem⟩)
    exact hunread.2 b hmem
  cases res with
  | ok secret =>
    rintro clientIDs ⟨⟩
    exact ⟨⟨_, htold, .inl ⟨secret, rfl, rfl⟩⟩, hunlisted⟩
  | error e =>
    change (logged allowed).Follows _
      (ExceptT.run (if e.reason = .notFound then pure [] else throw e)) _
    split_ifs with hreason
    · rintro clientIDs ⟨⟩
      exact ⟨⟨_, htold, .inr ⟨e, rfl, hreason, rfl⟩⟩, hunlisted⟩
    · exact nofun

/-- The pool comes from one list of the Secrets that the operator manages. -/
theorem follows_apiKeySecretNames (hreads : Reads allowed)
    (hunlisted : ∀ b, (⟨.list .secret managedByOperator, b⟩ : Σ q : Request Body, Answer q) ∉ log) :
    (logged allowed).Follows log (apiKeySecretNamesWith (apiKeySecretName name)).run
      (fun res log' => ∀ names, res = .ok names → Pooled log' name names) := by
  refine Follows.andThen (follows_askFirst (hreads.list _ _ _) hunlisted) ?_
    (fun e log' _ _ => nofun)
  rintro listed log' _ ⟨_, htold⟩ names ⟨⟩
  exact ⟨listed, htold, rfl⟩

end Keys

end controller
