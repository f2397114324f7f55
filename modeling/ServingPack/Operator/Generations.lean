import ServingPack.Operator.KeyCleanup

open golang apiserver concurrency Protocol kube v1alpha1 config reconcilers controller

namespace generations

open routeguard (servingReconciler chat)
open keycleanup (passthroughReconciler relay)

/-- What the status of a model says, and for which generation of its spec. -/
structure Report (P : Type) where
  phase : P
  observedGeneration : Nat
  conditions : List Condition

def Report.ofType {P : Type} (report : Report P) (type : GoString) : List Condition :=
  report.conditions.filter (·.type = type)

/-- A kind of model with a status subresource. -/
structure Reporting (kind : Kind) (P : Type) where
  report : Body kind → Report P
  update : ∀ existing submitted, report (Resource.update kind existing submitted) = report existing
  updateStatus : ∀ existing submitted, report (Resource.updateStatus kind existing submitted) =
    report submitted

def llmModels : Reporting .llmModel LLMModelPhase where
  report body := ⟨body.status.phase, body.status.observedGeneration, body.status.conditions⟩
  update _ _ := rfl
  updateStatus _ _ := rfl

def passthroughModels : Reporting .passthroughModel PassthroughModelPhase where
  report body := ⟨body.status.phase, body.status.observedGeneration, body.status.conditions⟩
  update _ _ := rfl
  updateStatus _ _ := rfl

/-- The generations that were read by the reconciles that computed what a status
says: its phase, and its conditions of each type. -/
structure Sources where
  phase : Nat := 0
  condition : GoString → Nat := fun _ => 0

/-- A reconcile that has read one generation has computed what its write changes. -/
def Sources.record {P : Type} [DecidableEq P] (sources : Sources) (read : Nat)
    (before after : Report P) : Sources where
  phase := if after.phase = before.phase ∧ after.observedGeneration = before.observedGeneration
    then sources.phase else read
  condition type := if after.ofType type = before.ofType type then sources.condition type else read

/-- A status claims no generation later than the one read by the reconcile behind the claim. -/
def Honest {P : Type} (sources : Sources) (report : Report P) : Prop :=
  report.observedGeneration ≤ sources.phase ∧
    ∀ c ∈ report.conditions, c.observedGeneration ≤ sources.condition c.type

/-- The generation of the object a reconcile began with. -/
def readGeneration (log : CallLog) : Nat :=
  match log.getLast? with
  | some ⟨.get _ _, .ok object⟩ => object.metadata.generation
  | _ => 0

/-- The cluster, and where the stored status of the model comes from. -/
structure Tracked where
  history : History Body
  sources : Sources := {}

abbrev TrackedRun := LoopState Tracked (Request Body) Answer

def TrackedRun.cluster (s : TrackedRun) : Cluster := s.state.history.current

/-- Anything may happen next to the reconciler, but nobody else writes the status
of the model, and its name is not used again. -/
def foreign (kind : Kind) (name : GoString) : Request Body → Prop
  | .create kind' name' _ => (kind', name') ≠ (kind, name)
  | .updateStatus kind' name' _ => (kind', name') ≠ (kind, name)
  | _ => True

section Machine

variable {kind : Kind} {P : Type} [DecidableEq P] (M : Reporting kind P) (name : GoString)

/-- Where the status comes from once a reconcile with this log has made a request. -/
def Reporting.track (log : CallLog) (sources : Sources) (before after : Cluster) : Sources :=
  match before.lookup kind name, after.lookup kind name with
  | some old, some new =>
      sources.record (readGeneration log) (M.report old.body) (M.report new.body)
  | _, _ => sources

/-- The reconciles of one model, one after the other, with spec updates and all
else in between. -/
def tracked (absent : Kind → Prop) (reconcile : Call Result) :
    Machine TrackedRun (Request Body) Answer Outcome Unit where
  start _ s p s' := p = reconcile.run ∧ s' = s
  exec _ s q a s' := Observed absent cached s.state.history q a s'.state.history ∧
    s'.state.sources = M.track name s.log s.state.sources s.cluster s'.cluster ∧
      s'.log = ⟨q, a⟩ :: s.log
  finish _ s _ s' := s' = { s with log := [] }
  env s s' := s'.log = s.log ∧ s'.state.sources = s.state.sources ∧
    ∃ (q : Request Body) (a : Answer q) (t : Cluster),
    foreign kind name q ∧ Exec absent s.cluster q a t ∧ s'.state.history = s.state.history.advance t

private theorem tracked_loops {absent : Kind → Prop} {reconcile : Call Result} :
    Loops (tracked M name absent reconcile) reconcile.run where
  start _ _ _ _ h := h
  exec _ _ _ _ _ h := h.2.2
  finish _ _ _ _ h := h
  env _ _ h := h.1

/-- The status of the stored model is honest. -/
def StatusHonest (s : TrackedRun) : Prop :=
  ∀ model, s.cluster.lookup kind name = some model → Honest s.state.sources (M.report model.body)

/-- The generation a read of the model shows. -/
def shown (kind : Kind) (name : GoString) : (q : Request Body) → Answer q → Option Nat
  | .get kind' name', .ok object =>
    if kind' = kind ∧ name' = name then some object.metadata.generation else none
  | _, _ => none

/-- A reconcile that reads its model again sees the generation it began with. -/
def Steady (kind : Kind) (name : GoString) (s : TrackedRun) (q : Request Body) (a : Answer q) :
    Prop :=
  s.log ≠ [] → ∀ generation ∈ shown kind name q a, generation = readGeneration s.log

instance (kind : Kind) (name : GoString) (s : TrackedRun) (q : Request Body) (a : Answer q) :
    Decidable (Steady kind name s q a) := by
  unfold Steady
  infer_instance

/-- The runs in which no spec update comes between the reads of one reconcile. -/
def steady (absent : Kind → Prop) (reconcile : Call Result) :
    Machine TrackedRun (Request Body) Answer Outcome Unit :=
  (tracked M name absent reconcile).restrict (fun _ s q a _ => Steady kind name s q a)
    (fun _ _ => True)

/-- The reconciler begins where the status of the model claims nothing yet. -/
def Start (s : TrackedRun) : Prop :=
  s.log = [] ∧ s.state.history.Coherent ∧ ∀ model, s.cluster.lookup kind name = some model →
    (M.report model.body).observedGeneration = 0 ∧ (M.report model.body).conditions = []

end Machine

section Rules

variable {kind : Kind} {P : Type} (M : Reporting kind P) (name : GoString)

/-- A reconcile was given the model by a read, or by an update of its status. -/
def Given (kind : Kind) (name : GoString) (log : CallLog) (model : Object (Body kind)) : Prop :=
  Told log (.get kind name) (.ok model) ∨
    ∃ submitted, Told log (.updateStatus kind name submitted) (.ok model)

/-- What a reconciler of a kind writes into the status: it keeps what a copy of
the model says, or claims the generation of what it was given. -/
structure Reports (allowed : CallLog → Request Body → Prop) : Prop where
  create : ∀ {log submitted}, ¬allowed log (.create kind name submitted)
  status : ∀ {log submitted}, allowed log (.updateStatus kind name submitted) → ∃ copy,
    Told log (.get kind name) (.ok copy) ∧ submitted.metadata = copy.metadata ∧
    ((M.report submitted.body).observedGeneration = (M.report copy.body).observedGeneration ∨
      (M.report submitted.body).observedGeneration = copy.metadata.generation) ∧
    ∀ c ∈ (M.report submitted.body).conditions, c ∈ (M.report copy.body).conditions ∨
      ∃ model, Given kind name log model ∧ c.observedGeneration = model.metadata.generation

end Rules

section Invariant

variable {kind : Kind} {P : Type} {M : Reporting kind P} {name : GoString} {s s' : TrackedRun}
  {absent : Kind → Prop} {q : Request Body} {a : Answer q} {log : CallLog}

private theorem readGeneration_cons (x : Σ q : Request Body, Answer q) (h : log ≠ []) :
    readGeneration (x :: log) = readGeneration log := by
  unfold readGeneration
  rw [List.getLast?_cons_of_ne_nil h]

/-- Nothing in a status claims a generation later than this one. -/
def Claims (report : Report P) (generation : Nat) : Prop :=
  report.observedGeneration ≤ generation ∧
    ∀ c ∈ report.conditions, c.observedGeneration ≤ generation

private theorem Claims.mono {report : Report P} {generation generation' : Nat}
    (h : Claims report generation) (hle : generation ≤ generation') : Claims report generation' :=
  ⟨h.1.trans hle, fun c hc => (h.2 c hc).trans hle⟩

/-- A write that claims at most what its reconcile has read keeps the status honest. -/
theorem Honest.record [DecidableEq P] {sources : Sources} {read : Nat} {before after : Report P}
    (h : Honest sources before)
    (hclaims : Claims after read) : Honest (sources.record read before after) after := by
  refine ⟨?_, fun c hc => ?_⟩
  · simp only [Sources.record]
    split_ifs with hsame
    · rw [hsame.2]
      exact h.1
    · exact hclaims.1
  · simp only [Sources.record]
    split_ifs with hsame
    · have hmem : c ∈ before.ofType c.type := by
        rw [← hsame]
        exact List.mem_filter.mpr ⟨hc, decide_eq_true rfl⟩
      exact h.2 c (List.mem_filter.mp hmem).1
    · exact hclaims.2 c hc

private theorem record_same [DecidableEq P] (sources : Sources) (read : Nat) (report : Report P) :
    sources.record read report report = sources := by
  simp [Sources.record]

/-- A status that reads as before comes from where it came from. -/
theorem track_same [DecidableEq P] {sources : Sources} {before after : Cluster}
    {old new : Object (Body kind)}
    (hold : before.lookup kind name = some old) (hnew : after.lookup kind name = some new)
    (hsame : M.report new.body = M.report old.body) :
    M.track name log sources before after = sources := by
  simp only [Reporting.track, hold, hnew, hsame, record_same]

/-- A request leaves the status and does not lower the generation, creates the
model, or writes the status over the version it was made from. -/
theorem reported {t t' : Cluster} {model : Object (Body kind)} (hexec : Exec absent t q a t')
    (hmodel : t'.lookup kind name = some model) :
    (∃ old, t.lookup kind name = some old ∧ M.report model.body = M.report old.body ∧
      old.metadata.generation ≤ model.metadata.generation) ∨
    (∃ submitted, q = .create kind name submitted) ∨
    ∃ submitted old, q = .updateStatus kind name submitted ∧ t.lookup kind name = some old ∧
      submitted.metadata.resourceVersion = old.metadata.resourceVersion ∧
      M.report model.body = M.report submitted.body ∧
      model.metadata.generation = old.metadata.generation := by
  cases hexec.origin hmodel with
  | kept hlookup => exact .inl ⟨model, hlookup, rfl, Nat.le_refl _⟩
  | created => exact .inr (.inl ⟨_, rfl⟩)
  | @updated submitted existing hlookup =>
    refine .inl ⟨existing, hlookup, M.update existing.body submitted.body, ?_⟩
    simp only [ApiServer.stamp, updated]
    split_ifs
    · exact Nat.le_refl _
    · exact Nat.le_succ _
  | @statusUpdated submitted existing hlookup =>
    rcases hexec.updateStatus with hsame | hnone | ⟨old, hold, hversion, _⟩
    · rw [hsame, hlookup] at hmodel
      have heq := Option.some.inj hmodel
      exact .inl ⟨existing, hlookup, by rw [← heq], by rw [← heq]⟩
    · rw [hnone] at hmodel
      cases hmodel
    · obtain rfl := Option.some.inj (hold.symm.trans hlookup)
      exact .inr (.inr ⟨submitted, old, rfl, hold, hversion, M.updateStatus old.body submitted.body,
        rfl⟩)
  | @deleting _ existing hlookup => exact .inl ⟨existing, hlookup, rfl, Nat.le_succ _⟩

private theorem reported_observed {h h' : History Body} {model : Object (Body kind)}
    (hobserved : Observed absent cached h q a h')
    (hmodel : h'.current.lookup kind name = some model) :
    (∃ old, h.current.lookup kind name = some old ∧ M.report model.body = M.report old.body ∧
      old.metadata.generation ≤ model.metadata.generation) ∨
    (∃ submitted, q = .create kind name submitted) ∨
    ∃ submitted old, q = .updateStatus kind name submitted ∧ h.current.lookup kind name = some old ∧
      submitted.metadata.resourceVersion = old.metadata.resourceVersion ∧
      M.report model.body = M.report submitted.body ∧
      model.metadata.generation = old.metadata.generation := by
  cases hobserved with
  | direct hexec => exact reported hexec hmodel
  | cachedGet => exact .inl ⟨model, hmodel, rfl, Nat.le_refl _⟩
  | cachedList => exact .inl ⟨model, hmodel, rfl, Nat.le_refl _⟩

structure Inv (M : Reporting kind P) (name : GoString) (s : TrackedRun) : Prop where
  coherent : s.state.history.Coherent
  past : ∀ model, Told s.log (.get kind name) (.ok model) → Past s.cluster kind name model
  given : ∀ model, Given kind name s.log model → model.metadata.generation = readGeneration s.log
  claims : ∀ model, s.cluster.lookup kind name = some model →
    Claims (M.report model.body) model.metadata.generation
  honest : StatusHonest M name s

/-- A version that is still stored is the copy that was read of it. -/
theorem Inv.copied (hinv : Inv M name s) {copy old submitted : Object (Body kind)}
    (hcopy : Told s.log (.get kind name) (.ok copy))
    (hmetadata : submitted.metadata = copy.metadata) (hold : s.cluster.lookup kind name = some old)
    (hversion : submitted.metadata.resourceVersion = old.metadata.resourceVersion) : old = copy :=
  (hinv.past copy hcopy).2 old hold (by rw [← hversion, hmetadata])

/-- What a reconcile is given is of the generation it began with. -/
theorem Inv.given_exec (hinv : Inv M name s) {allowed : CallLog → Request Body → Prop}
    (hreports : Reports M name allowed) (hallowed : allowed s.log q)
    (hobserved : Observed absent cached s.state.history q a s'.state.history)
    (hsteady : Steady kind name s q a) {model : Object (Body kind)}
    (hgiven : Given kind name (⟨q, a⟩ :: s.log) model) :
    model.metadata.generation = readGeneration (⟨q, a⟩ :: s.log) := by
  have hearlier : Given kind name s.log model →
      model.metadata.generation = readGeneration (⟨q, a⟩ :: s.log) := by
    intro hgiven
    have hne : s.log ≠ [] := by
      rcases hgiven with h | ⟨_, h⟩ <;> exact List.ne_nil_of_mem h
    rw [readGeneration_cons _ hne]
    exact hinv.given model hgiven
  rcases hgiven with h | ⟨submitted, h⟩
  · rcases List.mem_cons.mp h with heq | hold
    · cases heq
      by_cases hne : s.log = []
      · rw [hne]
        rfl
      · rw [readGeneration_cons _ hne]
        exact hsteady hne _ (by simp [shown])
    · exact hearlier (.inl hold)
  · rcases List.mem_cons.mp h with heq | hold
    · cases heq
      obtain ⟨copy, hcopy, hmetadata, -⟩ := hreports.status hallowed
      obtain ⟨old, hold, hversion, hgeneration⟩ :=
        (hobserved.exec_of_target (by simp [Request.target])).updateStatus_ok
      obtain rfl := hinv.copied hcopy hmetadata hold hversion
      rw [hgeneration, readGeneration_cons _ (List.ne_nil_of_mem hcopy)]
      exact hinv.given old (.inl hcopy)
    · exact hearlier (.inr ⟨submitted, hold⟩)

private theorem Inv.exec [DecidableEq P] (hinv : Inv M name s)
    {allowed : CallLog → Request Body → Prop} (hreports : Reports M name allowed)
    (hallowed : allowed s.log q)
    (hobserved : Observed absent cached s.state.history q a s'.state.history)
    (hsources : s'.state.sources = M.track name s.log s.state.sources s.cluster s'.cluster)
    (hlog : s'.log = ⟨q, a⟩ :: s.log) (hsteady : Steady kind name s q a) : Inv M name s' := by
  have hwritten : ∀ model, s'.cluster.lookup kind name = some model →
      Claims (M.report model.body) model.metadata.generation ∧
        Honest s'.state.sources (M.report model.body) := by
    intro model hmodel
    rcases reported_observed (M := M) hobserved hmodel with
      ⟨old, hold, hsame, hle⟩ | ⟨submitted, rfl⟩ | ⟨submitted, old, rfl, hold, hversion, hreport,
        hgeneration⟩
    · have htrack : M.track name s.log s.state.sources s.cluster s'.cluster = s.state.sources :=
        track_same hold hmodel hsame
      rw [hsources, htrack, hsame]
      exact ⟨(hinv.claims old hold).mono hle, hinv.honest old hold⟩
    · exact absurd hallowed hreports.create
    · obtain ⟨copy, hcopy, hmetadata, hstamp, hconditions⟩ := hreports.status hallowed
      obtain rfl := hinv.copied hcopy hmetadata hold hversion
      have hread := hinv.given old (.inl hcopy)
      -- the write claims nothing later than the generation that was read
      have hclaims : Claims (M.report model.body) old.metadata.generation := by
        rw [hreport]
        refine ⟨?_, fun c hc => ?_⟩
        · rcases hstamp with h | h
          · rw [h]
            exact (hinv.claims old hold).1
          · exact h.le
        · rcases hconditions c hc with h | ⟨model', hgiven, h⟩
          · exact (hinv.claims old hold).2 c h
          · rw [h, hinv.given model' hgiven, hread]
      rw [hsources]
      simp only [Reporting.track, TrackedRun.cluster] at hold hmodel ⊢
      simp only [hold, hmodel]
      exact ⟨hgeneration ▸ hclaims, (hinv.honest old hold).record (hread ▸ hclaims)⟩
  refine ⟨hinv.coherent.observed hobserved, fun model htold => ?_, fun model hgiven => ?_,
    fun model hmodel => (hwritten model hmodel).1, fun model hmodel => (hwritten model hmodel).2⟩
  · rw [hlog] at htold
    rcases List.mem_cons.mp htold with heq | hold
    · cases heq
      exact (hinv.coherent.read hobserved).observed hobserved
    · exact (hinv.past model hold).observed hobserved
  · rw [hlog] at hgiven ⊢
    exact hinv.given_exec hreports hallowed hobserved hsteady hgiven

private theorem Inv.env (hinv : Inv M name s) (hforeign : foreign kind name q) {t : Cluster}
    (hexec : Exec absent s.cluster q a t) (hhistory : s'.state.history = s.state.history.advance t)
    (hsources : s'.state.sources = s.state.sources) (hlog : s'.log = s.log) : Inv M name s' := by
  have hcluster : s'.cluster = t := congrArg History.current hhistory
  have hkept : ∀ model, s'.cluster.lookup kind name = some model →
    ∃ old, s.cluster.lookup kind name = some old ∧
      M.report model.body = M.report old.body ∧
        old.metadata.generation ≤ model.metadata.generation := by
    intro model hmodel
    rw [hcluster] at hmodel
    rcases reported (M := M) hexec hmodel with hkept | ⟨_, rfl⟩ | ⟨_, _, rfl, _⟩
    · exact hkept
    · exact absurd rfl hforeign
    · exact absurd rfl hforeign
  refine ⟨?_, fun model htold =>
    ?_, by rw [hlog]; exact hinv.given, fun model hmodel => ?_, fun model hmodel => ?_⟩
  · rw [hhistory]
    exact hinv.coherent.advance hexec
  · rw [hcluster]
    rw [hlog] at htold
    exact (hinv.past model htold).exec hexec
  · obtain ⟨old, hold, hsame, hle⟩ := hkept model hmodel
    rw [hsame]
    exact (hinv.claims old hold).mono hle
  · obtain ⟨old, hold, hsame, _⟩ := hkept model hmodel
    rw [hsame, hsources]
    exact hinv.honest old hold

private theorem Inv.finish (hinv : Inv M name s) : Inv M name { s with log := [] } := by
  refine ⟨hinv.coherent, fun model htold => ?_, fun model hgiven => ?_, hinv.claims, hinv.honest⟩
  · cases htold
  · rcases hgiven with h | ⟨_, h⟩ <;> cases h

private theorem Inv.init (h : Start M name s) : Inv M name s := by
  obtain ⟨hlog, hcoherent, hclear⟩ := h
  refine ⟨hcoherent, fun model htold => ?_, fun model hgiven => ?_, fun model hmodel => ?_,
    fun model hmodel => ?_⟩
  · rw [hlog] at htold
    cases htold
  · rw [hlog] at hgiven
    rcases hgiven with h | ⟨_, h⟩ <;> cases h
  · obtain ⟨hzero, hnil⟩ := hclear model hmodel
    simp [Claims, hzero, hnil]
  · obtain ⟨hzero, hnil⟩ := hclear model hmodel
    simp [Honest, hzero, hnil]

/-- A reconciler that writes only such claims keeps the status honest in every
run in which each reconcile sees one generation. -/
theorem Reports.honest [DecidableEq P] {allowed : CallLog → Request Body → Prop}
    (hreports : Reports M name allowed) {reconcile : Call Result} {post : Outcome → CallLog → Prop}
    (hfollows : (logged allowed).Follows [] reconcile.run post)
    {c : Config TrackedRun (Request Body) Answer Outcome Unit}
    (hreach : (steady M name absent reconcile).Reachable (Start M name) c) :
    StatusHonest M name c.state := by
  have hloops : Loops (steady M name absent reconcile) reconcile.run :=
    (tracked_loops M name).restrict _ _
  obtain ⟨hinv, _⟩ := hloops.reachable (I := Inv M name) hfollows (fun s h => ⟨h.1, .init h⟩)
    (fun s q a s' hinv hallowed hexec =>
      hinv.exec hreports hallowed hexec.1.1 hexec.1.2.1 (hloops.exec () s q a s' hexec) hexec.2)
    (fun s hinv => hinv.finish)
    (fun s s' hinv henv => by
      obtain ⟨hlog, hsources, q, a, t, hforeign, hexec, hhistory⟩ := henv.1
      exact hinv.env hforeign hexec hhistory hsources hlog) hreach
  exact hinv.honest

end Invariant

section Reconcilers

variable {name : GoString}

private theorem mem_setStatusCondition {conditions : List Condition} {condition c : Condition}
    (h : c ∈ setStatusCondition conditions condition) : c ∈ conditions ∨ c = condition := by
  unfold setStatusCondition at h
  split at h
  · obtain ⟨c', hmem, heq⟩ := List.mem_map.mp h
    split_ifs at heq
    · exact .inr heq.symm
    · exact .inl (heq ▸ hmem)
  · rcases List.mem_append.mp h with hmem | hmem
    · exact .inl hmem
    · exact .inr (List.mem_singleton.mp hmem)

private theorem llmModel_reports {r : LLMModelReconciler} :
    Reports llmModels name (r.Allowed name) where
  create {log submitted} hallowed := by
    cases hallowed with
    | keys _ h => rcases h with h | h <;> cases h
    | owned _ hkey _ _ h =>
      obtain ⟨rfl, _⟩ := Prod.mk.inj (Option.some.inj (applyRequest_target h))
      exact (LLMModelReconciler.ownedKeys_kind hkey).2.2.2.1 rfl
    | extension _ hkind _ h =>
      obtain ⟨rfl, _⟩ := Prod.mk.inj (Option.some.inj (applyRequest_target h))
      rcases hkind with hkind | hkind <;> cases hkind
    | policy _ h => cases h
    | route _ h => cases h
  status {log submitted} hallowed := by
    cases hallowed with
    | @setPending first hlive => exact ⟨first, hlive.1.told, rfl, .inl rfl, fun c hc => .inl hc⟩
    | @patchCondition model fresh hworking hfresh condition hgeneration =>
      refine ⟨fresh, hfresh, rfl, .inl rfl, fun c hc => ?_⟩
      rcases mem_setStatusCondition hc with hmem | rfl
      · exact .inl hmem
      · obtain ⟨first, hlive, ⟨_, rfl⟩ | ⟨_, hanswered⟩⟩ := hworking
        · exact .inr ⟨model, .inl hlive.1.told, hgeneration⟩
        · obtain ⟨_, hsuffix, _⟩ := hanswered
          exact .inr ⟨model, .inr ⟨_, hsuffix.subset (List.mem_cons_self ..)⟩, hgeneration⟩
    | @writeStatus fresh hfresh phase deployment =>
      exact ⟨fresh, hfresh, rfl, .inr rfl, fun c hc => .inl hc⟩
    | keys _ h => rcases h with h | h <;> cases h
    | owned _ _ _ _ h => cases h
    | extension _ _ _ h => cases h
    | policy _ h => cases h
    | route _ h => cases h

private theorem mem_foldl_setStatusCondition {kept conditions : List Condition} {generation : Nat}
    {c : Condition} (h : c ∈ conditions.foldl
      (fun cs c => setStatusCondition cs { c with observedGeneration := generation }) kept) :
    c ∈ kept ∨ c.observedGeneration = generation := by
  induction conditions generalizing kept with
  | nil => exact .inl h
  | cons condition rest ih =>
    rcases ih h with hmem | hstamp
    · rcases mem_setStatusCondition hmem with hkept | rfl
      · exact .inl hkept
      · exact .inr rfl
    · exact .inr hstamp

open PassthroughModelReconciler in
/-- A condition is kept, or claims the generation of the copy it is written to. -/
theorem mem_setConditions {current conditions : List Condition} {generation : Nat} {c : Condition}
    (h : c ∈ setConditions current generation conditions) :
    c ∈ current ∨ c.observedGeneration = generation := by
  rcases mem_foldl_setStatusCondition h with hmem | hstamp
  · split_ifs at hmem
    · exact .inl (List.mem_filter.mp hmem).1
    · exact .inl hmem
  · exact .inr hstamp

open PassthroughModelReconciler in
private theorem passthroughModel_reports {r : PassthroughModelReconciler} :
    Reports passthroughModels name (r.Allowed name) where
  create {log submitted} hallowed := by
    cases hallowed with
    | keys _ h => rcases h with h | h <;> cases h
    | backend _ hbackend h =>
      obtain ⟨rfl, _⟩ := Prod.mk.inj (Option.some.inj (applyRequest_target h))
      exact absurd hbackend (by decide)
    | route _ _ h => cases h
    | policy _ _ h => cases h
  status {log submitted} hallowed := by
    cases hallowed with
    | @writeStatus pm fresh hworking hfresh phase providerHostname conditions =>
      refine ⟨fresh, hfresh, rfl, .inr rfl, fun c hc => ?_⟩
      rcases mem_setConditions hc with hmem | hstamp
      · exact .inl hmem
      · exact .inr ⟨fresh, .inl hfresh, hstamp⟩
    | keys _ h => rcases h with h | h <;> cases h
    | backend _ _ h => cases h
    | route _ _ h => cases h
    | policy _ _ h => cases h

end Reconcilers

section Runs

/-- No status of either kind claims a generation that the reconcile behind the
claim has not read, in every run in which no reconcile sees its model's spec
change between its reads. -/
theorem status_honest_of_steady (name : GoString) (absent : Kind → Prop)
    (c : Config TrackedRun (Request Body) Answer Outcome Unit) :
    (∀ r : LLMModelReconciler,
      (steady llmModels name absent (r.reconcile name)).Reachable (Start llmModels name) c →
      StatusHonest llmModels name c.state) ∧
    ∀ r : PassthroughModelReconciler,
      (steady passthroughModels name absent (r.reconcile name)).Reachable
      (Start passthroughModels name) c →
        StatusHonest passthroughModels name c.state :=
  ⟨fun _ hreach => llmModel_reports.honest LLMModelReconciler.follows_reconcile hreach,
    fun _ hreach => passthroughModel_reports.honest PassthroughModelReconciler.follows_reconcile
      hreach⟩

variable {kind : Kind} {P : Type} [DecidableEq P]

/-- The run once the server has answered a request. -/
def answered (M : Reporting kind P) (name : GoString) (s : TrackedRun) (q : Request Body) :
    TrackedRun where
  state :=
    { history := s.state.history.advance (s.cluster.handle q).2
      sources := M.track name s.log s.state.sources s.cluster (s.cluster.handle q).2 }
  log := ⟨q, (s.cluster.handle q).1⟩ :: s.log

/-- Scripted runs of the reconciles, in which the server answers every request. -/
def trackedRunner (M : Reporting kind P) (name : GoString) (reconcile : Call Result) :
    Machine.Runner TrackedRun (Request Body) Answer Outcome Unit Unit where
  start _ _ s := some (reconcile.run, s)
  answer _ _ s q := some ((s.cluster.handle q).1, answered M name s q)
  finish _ s _ := some { s with log := [] }
  env _ _ := none

private theorem trackedRunner_sound (M : Reporting kind P) (name : GoString)
    (reconcile : Call Result) :
    (trackedRunner M name reconcile).Sound (tracked M name (fun _ => False) reconcile) where
  start o i s p s' h := by
    obtain ⟨rfl, rfl⟩ := Prod.mk.inj (Option.some.inj h)
    exact ⟨rfl, rfl⟩
  answer o i s q a s' h := by
    obtain ⟨rfl, rfl⟩ := Prod.mk.inj (Option.some.inj h)
    exact ⟨.direct (.reply q), rfl, rfl⟩
  finish i s r s' h := (Option.some.inj h).symm
  env o s s' h := by cases h

/-- A model of either kind that no reconcile has seen yet. -/
def arrived (kind : Kind) (body : Body kind) : TrackedRun :=
  ⟨{ history := ⟨clusterAfter [.create kind "chat" ⟨{ finalizers := [finalizerName] }, body⟩,
      .updateStatus kind "chat" ⟨{ resourceVersion := 1 }, body⟩], []⟩ }, []⟩

omit [DecidableEq P] in
private theorem arrived_start (M : Reporting kind P) {body stored : Body kind}
    (hstored : ((arrived kind body).cluster.lookup kind "chat").map (·.body) = some stored)
    (hzero : (M.report stored).observedGeneration = 0) (hnil : (M.report stored).conditions = []) :
    Start M "chat" (arrived kind body) := by
  refine ⟨rfl, ?_, fun model hmodel => ?_⟩
  · intro t ht
    cases ht
  · rw [hmodel] at hstored
    obtain rfl := Option.some.inj hstored
    exact ⟨hzero, hnil⟩

/-- One reconcile of an arrived model, to its end. -/
def firstReconcile (M : Reporting kind P) (body : Body kind) (reconcile : Call Result) :
    Option (Config TrackedRun (Request Body) Answer Outcome Unit) :=
  ((trackedRunner M "chat" reconcile).guard (fun _ s q a _ => Steady kind "chat" s q a)
    (fun _ _ => True)).run
    (.start () () :: List.replicate 26 (.answer () ()) ++ [.finish ()]) ⟨arrived kind body,
      fun _ => none⟩

/-- The generation the status of the stored model claims. -/
def claimed (M : Reporting kind P) (s : TrackedRun) : Option Nat :=
  (s.cluster.lookup kind "chat").map (fun model => (M.report model.body).observedGeneration)

private theorem firstReconcile_claims :
    (firstReconcile llmModels chat (servingReconciler.reconcile "chat")).any
      (fun c => claimed llmModels c.state == some 1) = true ∧
    (firstReconcile passthroughModels relay (passthroughReconciler.reconcile "chat")).any
      (fun c => claimed passthroughModels c.state == some 1) = true := by
  decide +kernel

/-- The first reconcile of a model of either kind claims its first generation, and
is honest about it. -/
theorem first_status_honest :
    (∃ c : Config TrackedRun (Request Body) Answer Outcome Unit,
      claimed llmModels c.state = some 1 ∧ StatusHonest llmModels "chat" c.state) ∧
    ∃ c : Config TrackedRun (Request Body) Answer Outcome Unit,
      claimed passthroughModels c.state = some 1 ∧
      StatusHonest passthroughModels "chat" c.state := by
  constructor
  · obtain ⟨c, hrun, hc⟩ := (Option.any_eq_true _ _).mp firstReconcile_claims.1
    have hreach :
      (steady llmModels "chat" (fun _ => False) (servingReconciler.reconcile "chat")).Reachable
        (Start llmModels "chat") c :=
      ((trackedRunner_sound _ _ _).guard _ _).reachable
        (.init (arrived_start llmModels rfl rfl rfl)) hrun
    exact ⟨c, eq_of_beq hc, (status_honest_of_steady "chat" _ c).1 _ hreach⟩
  · obtain ⟨c, hrun, hc⟩ := (Option.any_eq_true _ _).mp firstReconcile_claims.2
    have hreach : (steady passthroughModels "chat" (fun _ => False)
      (passthroughReconciler.reconcile "chat")).Reachable
        (Start passthroughModels "chat") c :=
      ((trackedRunner_sound _ _ _).guard _ _).reachable
        (.init (arrived_start passthroughModels rfl rfl rfl)) hrun
    exact ⟨c, eq_of_beq hc, (status_honest_of_steady "chat" _ c).2 _ hreach⟩

end Runs

end generations
