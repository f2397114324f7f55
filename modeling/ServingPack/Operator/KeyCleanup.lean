import ServingPack.Operator.RouteGuard
import ServingPack.Operator.Controller.PassthroughModelFollows

open golang apiserver concurrency Protocol kube v1alpha1 config reconcilers controller

namespace keycleanup

open routeguard (servingReconciler chat)

/-- The objects that hold the keys of a model. -/
def keyObjects (name : GoString) : List (Kind × GoString) :=
  [(.secret, apiKeySecretName name), (.configMap, apiKeyMetadataConfigMapName name)]

/-- Anything may happen next to the reconciler, but nobody else creates the
objects that hold the keys, or puts finalizers on them. -/
def foreign (name : GoString) (_ : Cluster) : Request Body → Prop
  | .create kind name' _ => (kind, name') ∉ keyObjects name
  | .update kind name' object => (kind, name') ∈ keyObjects name → object.metadata.finalizers = []
  | _ => True

/-- What a failed read was to find. -/
def failedRead : (q : Request Body) → Answer q → Option (Kind × GoString)
  | .get kind name, .error _ => some (kind, name)
  | _, _ => none

/-- Whether a reconcile that began with this entry cleans up. -/
def beginsCleanup (kind : Kind) (name : GoString) : (Σ q : Request Body, Answer q) → Bool
  | ⟨.get kind' name', .ok first⟩ =>
    kind' == kind && name' == name && first.metadata.deletionTimestamp && containsFinalizer first
  | _ => false

/-- A reconcile that cleans up fails to read only what is not there. -/
def MissesNothing (kind : Kind) (name : GoString) (s : Run) (q : Request Body) (a : Answer q) :
    Prop :=
  (s.log.getLast?.any (beginsCleanup kind name)) = true →
    ∀ key ∈ failedRead q a, key ∈ keyObjects name → s.state.cluster.lookup key.1 key.2 = none

instance (kind : Kind) (name : GoString) (s : Run) (q : Request Body) (a : Answer q) :
    Decidable (MissesNothing kind name s q a) := by
  unfold MissesNothing
  infer_instance

/-- The objects that hold the keys carry no finalizers, and never did. -/
structure Bare (name : GoString) (history : History Body) : Prop where
  current : ∀ kind name' object, (kind, name') ∈ keyObjects name →
    history.current.lookup kind name' = some object →
    object.metadata.finalizers = []
  past : ∀ t ∈ history.past, ∀ kind name' object, (kind, name') ∈ keyObjects name →
    t.lookup kind name' = some object →
    object.metadata.finalizers = []

/-- What a reconciler of a kind does with the objects that hold the keys. -/
structure Cleans (kind : Kind) (name : GoString) (allowed : CallLog → Request Body → Prop) :
    Prop where
  create : ∀ {log kind' name' submitted}, (kind', name') ∈ keyObjects name →
    allowed log (.create kind' name' submitted) →
    submitted.metadata.finalizers = [] ∧ ∀ first : Object (Body kind), ¬Deleting log name first
  update : ∀ {log kind' name' submitted}, (kind', name') ∈ keyObjects name →
    allowed log (.update kind' name' submitted) →
    ∃ existing, Told log (.get kind' name') (.ok existing) ∧
      submitted.metadata.finalizers = existing.metadata.finalizers
  release : ∀ {log submitted}, allowed log (.update kind name submitted) →
    containsFinalizer submitted = false →
    ∃ first : Object (Body kind), Deleting log name first ∧
      ∀ kind' name', (kind', name') ∈ keyObjects name →
      Gone log kind' name'

section Bare

variable {name : GoString} {history history' : History Body} {q : Request Body} {kind : Kind}
  {name' : GoString}

/-- What a request leaves of the objects that hold the keys carries no finalizers. -/
theorem Bare.origin (h : Bare name history) {object : Object (Body kind)}
    (hkey : (kind, name') ∈ keyObjects name)
    (horigin : Origin history.current kind name' q object)
    (hcreate : ∀ kind name' submitted, (kind, name') ∈ keyObjects name →
      q = .create kind name' submitted →
      submitted.metadata.finalizers = [])
    (hupdate : ∀ kind name' submitted, (kind, name') ∈ keyObjects name →
      q = .update kind name' submitted →
      submitted.metadata.finalizers = []) : object.metadata.finalizers = [] := by
  cases horigin with
  | kept hlookup => exact h.current kind name' object hkey hlookup
  | @created submitted => exact hcreate kind name' submitted hkey rfl
  | @updated submitted => exact hupdate kind name' submitted hkey rfl
  | @statusUpdated _ existing hlookup => exact h.current kind name' existing hkey hlookup
  | @deleting _ existing hlookup hfinalizers =>
    exact absurd (h.current kind name' existing hkey hlookup) hfinalizers

private theorem Bare.advance (h : Bare name history) {absent : Kind → Prop} {a : Answer q}
    {s : Cluster} (hexec : Exec absent history.current q a s)
    (hcreate : ∀ kind name' submitted, (kind, name') ∈ keyObjects name →
      q = .create kind name' submitted →
      submitted.metadata.finalizers = [])
    (hupdate : ∀ kind name' submitted, (kind, name') ∈ keyObjects name →
      q = .update kind name' submitted →
      submitted.metadata.finalizers = []) : Bare name (history.advance s) := by
  refine ⟨fun kind name' object hkey hlookup =>
    h.origin hkey (hexec.origin hlookup) hcreate hupdate,
    fun t ht kind name' object hkey hlookup => ?_⟩
  rcases List.mem_cons.mp ht with rfl | hold
  · exact h.current kind name' object hkey hlookup
  · exact h.past t hold kind name' object hkey hlookup

private theorem Bare.observed (h : Bare name history) {absent : Kind → Prop} {reads : Kind → Bool}
    {a : Answer q} (hobserved : Observed absent reads history q a history')
    (hcreate : ∀ kind name' submitted, (kind, name') ∈ keyObjects name →
      q = .create kind name' submitted →
      submitted.metadata.finalizers = [])
    (hupdate : ∀ kind name' submitted, (kind, name') ∈ keyObjects name →
      q = .update kind name' submitted →
      submitted.metadata.finalizers = []) : Bare name history' := by
  cases hobserved with
  | direct hexec => exact h.advance hexec hcreate hupdate
  | cachedGet => exact h
  | cachedList => exact h

/-- A read of an object that holds the keys shows no finalizers. -/
theorem Bare.read (h : Bare name history) {absent : Kind → Prop} {reads : Kind → Bool}
    {object : Object (Body kind)} (hkey : (kind, name') ∈ keyObjects name)
    (hobserved : Observed absent reads history (.get kind name') (.ok object) history') :
    object.metadata.finalizers = [] := by
  generalize ha : (Except.ok object : Answer (.get kind name' : Request Body)) = a at hobserved
  cases hobserved with
  | direct hexec => exact h.current kind name' object hkey (hexec.get.2 object ha.symm)
  | @cachedGet _ _ t hcached hpast =>
    simp only [ApiServer.handle] at ha
    split at ha
    · next found hfound =>
      obtain rfl := Except.ok.inj ha
      exact h.past t hpast kind name' object hkey hfound
    · cases ha

end Bare

section Invariant

variable {kind : Kind} {name : GoString} {s s' : Run} {allowed : CallLog → Request Body → Prop}
  {absent : Kind → Prop}

structure Inv (kind : Kind) (name : GoString) (s : Run) : Prop where
  bare : Bare name s.state.history
  told : ∀ kind' name' object, (kind', name') ∈ keyObjects name →
    Told s.log (.get kind' name') (.ok object) →
    object.metadata.finalizers = []
  gone : ∀ first : Object (Body kind), Deleting s.log name first →
    ∀ kind' name', (kind', name') ∈ keyObjects name →
    Gone s.log kind' name' → s.state.cluster.lookup kind' name' = none

/-- The last request of a reconcile that cleans up was its first one, or came later. -/
theorem deleting_cons {log : CallLog} {q : Request Body} {a : Answer q} {first : Object (Body kind)}
    (h : Deleting (⟨q, a⟩ :: log) name first) :
    (⟨q, a⟩ : Σ q : Request Body, Answer q) = ⟨.get kind name, .ok first⟩ ∧ log =
    [] ∨ Deleting log name first := by
  obtain ⟨hbegan, hrest⟩ := h
  rcases List.suffix_cons_iff.mp hbegan with heq | hlater
  · obtain ⟨hhead, hnil⟩ := List.cons.inj heq
    exact .inl ⟨hhead.symm, hnil.symm⟩
  · exact .inr ⟨hlater, hrest⟩

private theorem gone_cons {log : CallLog} {q : Request Body} {a : Answer q} {kind' : Kind}
    {name' : GoString} (h : Gone (⟨q, a⟩ :: log) kind' name') :
    Gone log kind' name' ∨ failedRead q a = some (kind', name') ∨
      ∃ b : Answer (.delete kind' name' {} : Request Body),
      (⟨q, a⟩ : Σ q : Request Body, Answer q) = ⟨.delete kind' name' {}, b⟩ ∧
        (b = .ok () ∨ ∃ e : StatusError, e.reason = .notFound ∧ b = .error e) := by
  rcases h with ⟨e, h⟩ | h | ⟨e, hreason, h⟩
  · rcases List.mem_cons.mp h with heq | hold
    · cases heq
      exact .inr (.inl rfl)
    · exact .inl (.inl ⟨e, hold⟩)
  · rcases List.mem_cons.mp h with heq | hold
    · exact .inr (.inr ⟨_, heq.symm, .inl rfl⟩)
    · exact .inl (.inr (.inl hold))
  · rcases List.mem_cons.mp h with heq | hold
    · exact .inr (.inr ⟨_, heq.symm, .inr ⟨e, hreason, rfl⟩⟩)
    · exact .inl (.inr (.inr ⟨e, hreason, hold⟩))

private theorem beginsCleanup_of_deleting {log : CallLog} {first : Object (Body kind)}
    (h : Deleting log name first) :
    (log.getLast?.any (beginsCleanup kind name)) = true := by
  obtain ⟨⟨earlier, rfl⟩, hdeleting, hfinalizer⟩ := h
  simp [beginsCleanup, hdeleting, hfinalizer]

private theorem Inv.exec (hinv : Inv kind name s) (hcleans : Cleans kind name allowed)
    {q : Request Body} {a : Answer q} (hallowed : allowed s.log q)
    (hobserved : Observed absent cached s.state.history q a s'.state.history)
    (hlog : s'.log = ⟨q, a⟩ :: s.log)
    (hmisses : MissesNothing kind name s q a) : Inv kind name s' := by
  have hcreate : ∀ kind' name' submitted, (kind', name') ∈ keyObjects name →
    q = .create kind' name' submitted →
      submitted.metadata.finalizers = [] := by
    rintro kind' name' submitted hkey rfl
    exact (hcleans.create hkey hallowed).1
  have hupdate : ∀ kind' name' submitted, (kind', name') ∈ keyObjects name →
    q = .update kind' name' submitted →
      submitted.metadata.finalizers = [] := by
    rintro kind' name' submitted hkey rfl
    obtain ⟨existing, htold, hsame⟩ := hcleans.update hkey hallowed
    rw [hsame]
    exact hinv.told kind' name' existing hkey htold
  refine ⟨hinv.bare.observed hobserved hcreate hupdate, fun kind' name' object hkey htold => ?_,
    fun first hdeleting kind' name' hkey hgone => ?_⟩
  · rw [hlog] at htold
    rcases List.mem_cons.mp htold with heq | hold
    · cases heq
      exact hinv.bare.read hkey hobserved
    · exact hinv.told kind' name' object hkey hold
  rw [hlog] at hdeleting hgone
  -- only a create could bring it back, and there is none once a reconcile cleans up
  have hstays (hlater : Deleting s.log name first)
    (hnone : s.state.cluster.lookup kind' name' = none) :
      s'.state.cluster.lookup kind' name' = none := by
    by_contra hsome
    obtain ⟨object, hobject⟩ := Option.ne_none_iff_exists'.mp hsome
    obtain ⟨submitted, rfl⟩ := (hobserved.origin hobject).create_of_none hnone
    exact (hcleans.create hkey hallowed).2 first hlater
  rcases deleting_cons hdeleting with ⟨hfirst, hnil⟩ | hdeleting
  · cases hfirst
    rw [hnil] at hgone
    rcases gone_cons hgone with hold | hfailed | ⟨b, heq, _⟩
    · rcases hold with ⟨_, h⟩ | h | ⟨_, _, h⟩ <;> cases h
    · cases hfailed
    · cases heq
  rcases gone_cons hgone with hold | hfailed | ⟨b, heq, hb⟩
  · exact hstays hdeleting (hinv.gone first hdeleting kind' name' hkey hold)
  · exact hstays hdeleting
      (hmisses (beginsCleanup_of_deleting hdeleting) (kind', name') hfailed hkey)
  · cases heq
    exact (hobserved.exec_of_target nofun).delete_gone
      (fun existing => hinv.bare.current kind' name' existing hkey) hb

private theorem Inv.env (hinv : Inv kind name s) {q : Request Body} {a : Answer q}
    (hforeign : foreign name s.state.cluster q)
    {t : Cluster} (hexec : Exec absent s.state.cluster q a t)
    (hhistory : s'.state.history = s.state.history.advance t)
    (hlog : s'.log = s.log) : Inv kind name s' := by
  have hcreate : ∀ kind' name' submitted, (kind', name') ∈ keyObjects name →
      q ≠ .create kind' name' submitted := by
    rintro kind' name' submitted hkey rfl
    exact hforeign hkey
  have hupdate : ∀ kind' name' submitted, (kind', name') ∈ keyObjects name →
    q = .update kind' name' submitted →
      submitted.metadata.finalizers = [] := by
    rintro kind' name' submitted hkey rfl
    exact hforeign hkey
  refine ⟨?_, by rw [hlog]; exact hinv.told, fun first hdeleting kind' name' hkey hgone => ?_⟩
  · rw [hhistory]
    exact hinv.bare.advance hexec
      (fun kind' name' submitted hkey heq => absurd heq (hcreate kind' name' submitted hkey))
      hupdate
  · rw [hlog] at hdeleting hgone
    have hnone := hinv.gone first hdeleting kind' name' hkey hgone
    have hcluster : s'.state.cluster = t := congrArg History.current hhistory
    rw [hcluster]
    by_contra hsome
    obtain ⟨object, hobject⟩ := Option.ne_none_iff_exists'.mp hsome
    obtain ⟨submitted, rfl⟩ := (hexec.origin hobject).create_of_none hnone
    exact hcreate kind' name' submitted hkey rfl

private theorem Inv.finish (hinv : Inv kind name s) : Inv kind name { s with log := [] } := by
  refine ⟨hinv.bare, fun _ _ _ _ htold => (nomatch htold), fun first hdeleting => ?_⟩
  cases List.eq_nil_of_suffix_nil hdeleting.1

/-- The reconciler begins where the objects that hold the keys carry no finalizers. -/
def Start (name : GoString) (s : Run) : Prop := s.log = [] ∧ Bare name s.state.history

private theorem Inv.init (h : Start name s) : Inv kind name s := by
  refine ⟨h.2, fun kind' name' object _ htold => ?_, fun first hdeleting => ?_⟩
  · rw [h.1] at htold
    cases htold
  · rw [h.1] at hdeleting
    cases List.eq_nil_of_suffix_nil hdeleting.1

end Invariant

section Reconcilers

variable {name : GoString} {log : CallLog}

private theorem containsFinalizer_addFinalizer {B : Type} (object : Object B) :
    containsFinalizer (addFinalizer object) = true := by
  simp [containsFinalizer, addFinalizer]

/-- What a model owns is none of the objects that hold its keys. -/
theorem ownedKeys_not_key {kind : Kind} {name' : GoString}
    (h : (kind, name') ∈ LLMModelReconciler.ownedKeys name) :
    (kind, name') ∉ keyObjects name := by
  simp only [LLMModelReconciler.ownedKeys, List.mem_cons, Prod.mk.injEq, List.not_mem_nil, or_false]
    at h
  simp only [keyObjects, List.mem_cons, Prod.mk.injEq, List.not_mem_nil, or_false]
  rintro (⟨rfl, rfl⟩ | ⟨rfl, rfl⟩)
  · simp at h
  · have hname : apiKeyMetadataConfigMapName name = eppConfigMapName name := by simpa using h
    rw [apiKeyMetadataConfigMapName, eppConfigMapName, eppName, List.append_assoc] at hname
    exact absurd (List.append_cancel_left hname) (by decide)

private theorem keyObjects_kind {kind : Kind} {name' : GoString}
    (h : (kind, name') ∈ keyObjects name) :
    kind = .secret ∨ kind = .configMap := by
  simp only [keyObjects, List.mem_cons, Prod.mk.injEq, List.not_mem_nil, or_false] at h
  exact h.imp And.left And.left

section LLMModel

variable {r : LLMModelReconciler}

private theorem llmModel_not_deleting {model first : Object (Body .llmModel)}
    (h : LLMModelReconciler.Working log name model) :
    ¬Deleting log name first := by
  rintro ⟨hbegan, htimestamp, _⟩
  obtain ⟨first', ⟨hbegan', hlive, _⟩, _⟩ := h
  obtain rfl := hbegan.unique hbegan'
  rw [hlive] at htimestamp
  cases htimestamp

/-- The requests of a reconcile that concern an object that holds keys write it. -/
theorem llmModel_writes {kind : Kind} {name' : GoString} {q : Request Body}
    (hkey : (kind, name') ∈ keyObjects name)
    (hallowed : r.Allowed name log q) (htarget : q.target = some (kind, name'))
    (hdelete : ∀ p, q ≠ .delete kind name' p) :
    ∃ model, LLMModelReconciler.Working log name model ∧
      (ApplyRequest log .secret (mergeLabels (LLMModelReconciler.keySecret name model))
        (LLMModelReconciler.keySecret name model) q ∨
        ApplyRequest log .configMap (mergeLabels (LLMModelReconciler.keyMetadata name model))
          (LLMModelReconciler.keyMetadata name model) q) := by
  have hkind := keyObjects_kind hkey
  cases hallowed with
  | get => cases htarget
  | list => cases htarget
  | addFinalizer | setPending | patchCondition | writeStatus | removeFinalizer =>
    obtain ⟨rfl, _⟩ := Prod.mk.inj (Option.some.inj htarget)
    rcases hkind with hkind | hkind <;> cases hkind
  | deleteKeys | deleteDeployment =>
    obtain ⟨rfl, rfl⟩ := Prod.mk.inj (Option.some.inj htarget)
    exact absurd rfl (hdelete _)
  | keys hworking h => exact ⟨_, hworking, h⟩
  | owned _ howned _ _ h =>
    rw [applyRequest_target h] at htarget
    obtain ⟨rfl, rfl⟩ := Prod.mk.inj (Option.some.inj htarget)
    exact absurd hkey (ownedKeys_not_key howned)
  | extension _ hextension _ h =>
    rw [applyRequest_target h] at htarget
    obtain ⟨rfl, rfl⟩ := Prod.mk.inj (Option.some.inj htarget)
    rcases hextension with rfl | rfl <;> rcases hkind with hkind | hkind <;> cases hkind
  | policy _ h =>
    rw [applyRequest_target h] at htarget
    obtain ⟨rfl, rfl⟩ := Prod.mk.inj (Option.some.inj htarget)
    rcases hkind with hkind | hkind <;> cases hkind
  | route _ h =>
    rw [applyRequest_target h] at htarget
    obtain ⟨rfl, rfl⟩ := Prod.mk.inj (Option.some.inj htarget)
    rcases hkind with hkind | hkind <;> cases hkind

private theorem llmModel_cleans : Cleans .llmModel name (r.Allowed name) where
  create hkey hallowed := by
    obtain ⟨model, hworking, h⟩ := llmModel_writes hkey hallowed rfl nofun
    refine ⟨?_, fun _ => llmModel_not_deleting hworking⟩
    rcases h with h | h <;> cases h <;> rfl
  update hkey hallowed := by
    obtain ⟨model, hworking, h⟩ := llmModel_writes hkey hallowed rfl nofun
    rcases h with h | h
    · cases h with
      | update htold => exact ⟨_, htold, rfl⟩
    · cases h with
      | update htold => exact ⟨_, htold, rfl⟩
  release {log submitted} hallowed hreleased := by
    cases hallowed with
    | addFinalizer =>
      rw [containsFinalizer_addFinalizer] at hreleased
      cases hreleased
    | @removeFinalizer first hdeleting hsecret hconfigMap =>
      refine ⟨first, hdeleting, fun kind' name' hkey => ?_⟩
      simp only [keyObjects, List.mem_cons, Prod.mk.injEq, List.not_mem_nil, or_false] at hkey
      rcases hkey with ⟨rfl, rfl⟩ | ⟨rfl, rfl⟩
      · exact hsecret
      · exact hconfigMap
    | keys _ h => rcases h with h | h <;> cases h
    | owned _ hkey _ _ h =>
      obtain ⟨rfl, _⟩ := Prod.mk.inj (Option.some.inj (applyRequest_target h))
      exact absurd rfl (LLMModelReconciler.ownedKeys_kind hkey).2.2.2.1
    | extension _ hkind _ h =>
      obtain ⟨rfl, _⟩ := Prod.mk.inj (Option.some.inj (applyRequest_target h))
      rcases hkind with hkind | hkind <;> cases hkind
    | policy _ h => cases h
    | route _ h => cases h

end LLMModel

section PassthroughModel

variable {r : PassthroughModelReconciler}

open PassthroughModelReconciler in
private theorem passthroughModel_writes {kind : Kind} {name' : GoString} {q : Request Body}
    (hkey : (kind, name') ∈ keyObjects name)
    (hallowed : r.Allowed name log q) (htarget : q.target = some (kind, name'))
    (hdelete : ∀ p, q ≠ .delete kind name' p) :
    ∃ pm, Working log name pm ∧
      (ApplyRequest log .secret (mergeLabels (keySecret name pm)) (keySecret name pm) q ∨
        ApplyRequest log .configMap (mergeLabels (keyMetadata name pm))
          (keyMetadata name pm) q) := by
  have hkind := keyObjects_kind hkey
  cases hallowed with
  | get => cases htarget
  | list => cases htarget
  | addFinalizer | writeStatus | removeFinalizer =>
    obtain ⟨rfl, _⟩ := Prod.mk.inj (Option.some.inj htarget)
    rcases hkind with hkind | hkind <;> cases hkind
  | deleteKeys | removeRoute | removePolicy =>
    obtain ⟨rfl, rfl⟩ := Prod.mk.inj (Option.some.inj htarget)
    exact absurd rfl (hdelete _)
  | keys hworking h => exact ⟨_, hworking, h⟩
  | backend _ hbackend h =>
    rw [applyRequest_target h] at htarget
    obtain ⟨rfl, _⟩ := Prod.mk.inj (Option.some.inj htarget)
    rcases hkind with rfl | rfl <;> exact absurd hbackend (by decide)
  | route _ _ h | policy _ _ h =>
    rw [applyRequest_target h] at htarget
    obtain ⟨rfl, _⟩ := Prod.mk.inj (Option.some.inj htarget)
    rcases hkind with hkind | hkind <;> cases hkind

open PassthroughModelReconciler in
private theorem passthroughModel_cleans : Cleans .passthroughModel name (r.Allowed name) where
  create hkey hallowed := by
    obtain ⟨pm, hworking, h⟩ := passthroughModel_writes hkey hallowed rfl nofun
    refine ⟨?_, fun _ => hworking.not_deleting⟩
    rcases h with h | h <;> cases h <;> rfl
  update hkey hallowed := by
    obtain ⟨pm, _, h⟩ := passthroughModel_writes hkey hallowed rfl nofun
    rcases h with h | h
    · cases h with
      | update htold => exact ⟨_, htold, rfl⟩
    · cases h with
      | update htold => exact ⟨_, htold, rfl⟩
  release {log submitted} hallowed hreleased := by
    cases hallowed with
    | addFinalizer =>
      rw [containsFinalizer_addFinalizer] at hreleased
      cases hreleased
    | @removeFinalizer first hdeleting hsecret hconfigMap =>
      refine ⟨first, hdeleting, fun kind' name' hkey => ?_⟩
      simp only [keyObjects, List.mem_cons, Prod.mk.injEq, List.not_mem_nil, or_false] at hkey
      rcases hkey with ⟨rfl, rfl⟩ | ⟨rfl, rfl⟩
      · exact hsecret
      · exact hconfigMap
    | keys _ h => rcases h with h | h <;> cases h
    | backend _ hbackend h =>
      obtain ⟨rfl, _⟩ := Prod.mk.inj (Option.some.inj (applyRequest_target h))
      exact absurd hbackend (by decide)
    | route _ _ h => cases h
    | policy _ _ h => cases h

end PassthroughModel

end Reconcilers

section Runs

/-- Whether a request takes the finalizer off a model. -/
def releases (kind : Kind) (name : GoString) : Request Body → Bool
  | .update kind' name' submitted => kind' == kind && name' == name && !containsFinalizer submitted
  | _ => false

/-- When the finalizer is about to be removed, nothing that holds keys is stored. -/
def Released (kind : Kind) (name : GoString) (c : Config Run (Request Body) Answer Outcome Unit) :
    Prop :=
  ∀ q next, c.threads () = some (.call q next) → releases kind name q = true →
    ∀ key ∈ keyObjects name, c.state.state.cluster.lookup key.1 key.2 = none

variable {kind : Kind} {name : GoString} {absent : Kind → Prop} {reconcile : Call Result}
  {allowed : CallLog → Request Body → Prop}

/-- The runs in which a reconcile that cleans up fails to read only what is not there. -/
def careful (kind : Kind) (absent : Kind → Prop) (name : GoString) (reconcile : Call Result) :
    Machine Run (Request Body) Answer Outcome Unit :=
  (machine absent (foreign name) reconcile).restrict
    (fun _ s q a _ => MissesNothing kind name s q a) (fun _ _ => True)

/-- A reconciler that cleans up by these rules leaves nothing that holds keys. -/
theorem Cleans.released (hcleans : Cleans kind name allowed)
    {post : Outcome → CallLog → Prop} (hfollows : (logged allowed).Follows [] reconcile.run post)
    {c : Config Run (Request Body) Answer Outcome Unit}
    (hreach : (careful kind absent name reconcile).Reachable (Start name) c) :
    Released kind name c := by
  have hloops : Loops (careful kind absent name reconcile) reconcile.run :=
    machine_loops.restrict _ _
  obtain ⟨hinv, hthread⟩ :=
    hloops.reachable (I := Inv kind name) hfollows (fun s h => ⟨h.1, .init h⟩)
    (fun s q a s' hinv hallowed hexec =>
      hinv.exec hcleans hallowed (observed_of_exec hexec.1) (hloops.exec () s q a s' hexec) hexec.2)
    (fun s hinv => hinv.finish)
    (fun s s' hinv henv => by
      obtain ⟨⟨_, q, a, t, hforeign, hexec, hhistory⟩, hlog⟩ := henv.1
      exact hinv.env hforeign hexec hhistory hlog) hreach
  intro q next hcall hreleases key hkey
  unfold releases at hreleases
  split at hreleases
  · next kind' name' submitted =>
    simp only [Bool.and_eq_true, beq_iff_eq, Bool.not_eq_true'] at hreleases
    obtain ⟨⟨rfl, rfl⟩, hreleased⟩ := hreleases
    obtain ⟨first, hdeleting, hgone⟩ := hcleans.release (hthread _ hcall).1 hreleased
    exact hinv.gone first hdeleting key.1 key.2 hkey (hgone key.1 key.2 hkey)
  · cases hreleases

/-- Both controllers remove the finalizer of a model only when its Secret and its
ConfigMap are gone, in every run in which no read of them fails for another reason. -/
theorem keys_gone_of_missesNothing (name : GoString) (absent : Kind → Prop)
    (c : Config Run (Request Body) Answer Outcome Unit) :
    (∀ r : LLMModelReconciler,
      (careful .llmModel absent name (r.reconcile name)).Reachable (Start name) c →
      Released .llmModel name c) ∧
    ∀ r : PassthroughModelReconciler,
    (careful .passthroughModel absent name (r.reconcile name)).Reachable (Start name) c →
      Released .passthroughModel name c :=
  ⟨fun _ hreach => llmModel_cleans.released LLMModelReconciler.follows_reconcile hreach,
    fun _ hreach => passthroughModel_cleans.released PassthroughModelReconciler.follows_reconcile
      hreach⟩

/-- A reconciler with a Gateway for both endpoints, whose providers are reached by their host. -/
def passthroughReconciler : PassthroughModelReconciler where
  config := servingReconciler.config
  resolve spec := .ok { hostname := spec.hostname }

/-- A model that is being deleted, with its keys. -/
def leaving (kind : Kind) (body : Body kind) : Cluster := clusterAfter
  [.create kind "chat" ⟨{ finalizers := [finalizerName] }, body⟩,
    .create .secret "chat-api-keys" ⟨{}, { data := ∅ }⟩,
      .create .configMap "chat-api-key-metadata" ⟨{}, { data := ∅ }⟩,
    .delete kind "chat" {}]

private theorem leaving_bare (kind : Kind) (body : Body kind)
    (h : kind = .llmModel ∨ kind = .passthroughModel) :
    Start "chat" (runIn (leaving kind body)) := by
  refine ⟨rfl, fun kind' name' object hkey hlookup => ?_, fun t ht => nomatch ht⟩
  simp only [keyObjects, List.mem_cons, Prod.mk.injEq, List.not_mem_nil, or_false] at hkey
  rcases h with rfl | rfl <;> rcases hkey with ⟨rfl, rfl⟩ | ⟨rfl, rfl⟩ <;> cases hlookup <;> rfl

/-- Whether a reconcile is about to take the finalizer off. -/
def releasing (kind : Kind) (name : GoString) :
    Option (Program (Request Body) Answer Outcome) → Bool
  | some (.call q _) => releases kind name q
  | _ => false

private theorem releasing_iff {kind : Kind} {name : GoString}
    {thread : Option (Program (Request Body) Answer Outcome)}
    (h : releasing kind name thread = true) :
    ∃ q next, thread = some (.call q next) ∧ releases kind name q = true := by
  unfold releasing at h
  split at h
  · next q next => exact ⟨q, next, rfl, h⟩
  · cases h

def relay : PassthroughModel where
  spec := { provider := { hostname := "api.example.com", credentialSecretName := "provider" } }

/-- A deletion: its two Gets are answered as `o` says. -/
def deletion (o : Choice) : List (Machine.Move Unit Choice) :=
  [.start () .reply, .answer () .reply, .answer () o, .answer () .reply, .answer () .reply]

/-- A deletion up to the request that takes the finalizer off. -/
def deletionOf (kind : Kind) (body : Body kind) (reconcile : Call Result)
    (script : List (Machine.Move Unit Choice)) :
    Option (Config Run (Request Body) Answer Outcome Unit) :=
  (runner (fun _ _ => false) reconcile).run script ⟨runIn (leaving kind body), fun _ => none⟩

private theorem unread_ends :
    (deletionOf .llmModel chat (servingReconciler.reconcile "chat")
      (deletion (.fail "etcdserver: request timed out"))).any
      (fun c => releasing .llmModel "chat" (c.threads ()) &&
        (c.state.state.cluster.lookup .secret "chat-api-keys").isSome) = true ∧
    (deletionOf .passthroughModel relay (passthroughReconciler.reconcile "chat")
        (deletion (.fail "etcdserver: request timed out"))).any
      (fun c => releasing .passthroughModel "chat" (c.threads ()) &&
        (c.state.state.cluster.lookup .secret "chat-api-keys").isSome) = true := by
  decide +kernel

private theorem outlives {kind : Kind} {body : Body kind}
    (hkind : kind = .llmModel ∨ kind = .passthroughModel)
    {reconcile : Call Result} {script : List (Machine.Move Unit Choice)}
    (hends : (deletionOf kind body reconcile script).any
      (fun c => releasing kind "chat" (c.threads ()) &&
      (c.state.state.cluster.lookup .secret "chat-api-keys").isSome) = true) :
    ∃ c, (machine (fun _ => False) (foreign "chat") reconcile).Reachable (Start "chat") c ∧
    ¬Released kind "chat" c := by
  obtain ⟨c, hrun, hc⟩ := (Option.any_eq_true _ _).mp hends
  rw [Bool.and_eq_true, Option.isSome_iff_ne_none] at hc
  refine ⟨c, (runner_sound _ (fun _ _ h => nomatch h)).reachable
    (.init (leaving_bare kind body hkind)) hrun, ?_⟩
  intro hreleased
  obtain ⟨q, next, hcall, hreleases⟩ := releasing_iff hc.1
  exact hc.2 (hreleased q next hcall hreleases (.secret, "chat-api-keys") (List.mem_cons_self ..))

/-- Where the read of the Secret fails, both controllers go on to remove the
finalizer, and the Secret outlives the model. -/
theorem unread_secret_outlives :
    (∃ c, (machine (fun _ => False) (foreign "chat") (servingReconciler.reconcile "chat")).Reachable
      (Start "chat") c ∧
      ¬Released .llmModel "chat" c) ∧
    ∃ c, (machine (fun _ => False) (foreign "chat")
      (passthroughReconciler.reconcile "chat")).Reachable (Start "chat") c ∧
      ¬Released .passthroughModel "chat" c :=
  ⟨outlives (.inl rfl) unread_ends.1, outlives (.inr rfl) unread_ends.2⟩

private theorem read_ends :
    (((runner (fun _ _ => false) (servingReconciler.reconcile "chat")).guard
        (fun _ s q a _ => MissesNothing .llmModel "chat" s q a) (fun _ _ => True)).run
        (deletion .reply ++ [.answer () .reply]) ⟨runIn (leaving .llmModel chat),
          fun _ => none⟩).any
      (fun c => releasing .llmModel "chat" (c.threads ())) = true ∧
    (((runner (fun _ _ => false) (passthroughReconciler.reconcile "chat")).guard
        (fun _ s q a _ => MissesNothing .passthroughModel "chat" s q a) (fun _ _ => True)).run
        (deletion .reply ++ [.answer () .reply]) ⟨runIn (leaving .passthroughModel relay),
          fun _ => none⟩).any
      (fun c => releasing .passthroughModel "chat" (c.threads ())) = true := by
  decide +kernel

/-- Deletions that read the Secret and the ConfigMap: both are gone when the
finalizer is about to be removed. -/
theorem read_keys_gone :
    (∃ c : Config Run (Request Body) Answer Outcome Unit,
      releasing .llmModel "chat" (c.threads ()) = true ∧
      c.state.state.cluster.lookup .secret "chat-api-keys" = none) ∧
    ∃ c : Config Run (Request Body) Answer Outcome Unit,
    releasing .passthroughModel "chat" (c.threads ()) = true ∧
      c.state.state.cluster.lookup .secret "chat-api-keys" = none := by
  constructor
  · obtain ⟨c, hrun, hc⟩ := (Option.any_eq_true _ _).mp read_ends.1
    have hreach : (careful .llmModel (fun _ => False) "chat"
        (servingReconciler.reconcile "chat")).Reachable (Start "chat") c :=
      ((runner_sound _ (fun _ _ h => nomatch h)).guard _ _).reachable
        (.init (leaving_bare _ _ (.inl rfl))) hrun
    obtain ⟨q, next, hcall, hreleases⟩ := releasing_iff hc
    exact ⟨c, hc, (keys_gone_of_missesNothing "chat" _ c).1 _ hreach q next hcall hreleases
      (.secret, "chat-api-keys")
      (List.mem_cons_self ..)⟩
  · obtain ⟨c, hrun, hc⟩ := (Option.any_eq_true _ _).mp read_ends.2
    have hreach : (careful .passthroughModel (fun _ => False) "chat"
      (passthroughReconciler.reconcile "chat")).Reachable
        (Start "chat") c :=
      ((runner_sound _ (fun _ _ h => nomatch h)).guard _ _).reachable
        (.init (leaving_bare _ _ (.inr rfl))) hrun
    obtain ⟨q, next, hcall, hreleases⟩ := releasing_iff hc
    exact ⟨c, hc, (keys_gone_of_missesNothing "chat" _ c).2 _ hreach q next hcall hreleases
      (.secret, "chat-api-keys")
      (List.mem_cons_self ..)⟩

end Runs

end keycleanup
