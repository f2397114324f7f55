import ServingPack.Lib.ApiServer.Exec
import ServingPack.Operator.Controller.LLMModel
import ServingPack.Operator.Controller.Runs

open golang apiserver concurrency kube v1alpha1 config reconcilers controller

namespace confighash

open LLMModelReconciler

/-- The fields of a model that a running Deployment cannot take over, in the order of the hash. -/
def breakingFields (spec : LLMModelSpec) : List GoString :=
  [spec.model.source, spec.model.storage.type, spec.model.image, spec.model.revision,
    spec.model.name]

/-- What `modelConfigHash` hashes. -/
def hashed (name : GoString) (spec : LLMModelSpec) : GoString :=
  name ++ (breakingFields spec).flatten

/-- The model with another spec. -/
def withSpec (model : Named LLMModel) (spec : LLMModelSpec) : Named LLMModel :=
  { model with body.spec := spec }

/-- A model that the operator has begun to serve. -/
structure Deployed (model : Object LLMModel) : Prop where
  live : model.metadata.deletionTimestamp = false
  finalizer : containsFinalizer model = true
  phase : model.body.status.phase ≠ .unset

/-- A reconcile that succeeds, of a model with this spec. Any of its requests can fail. -/
def Reconciles (r : LLMModelReconciler) (absent : Kind → Prop) (name : GoString)
    (spec : LLMModelSpec) (s s' : Cluster) :
    Prop :=
  ∃ model log result, s.lookup .llmModel name = some model ∧ Deployed model ∧
    model.body.spec = spec ∧
    Program.RunsOn (Exec absent) s (r.reconcile name).run log (.ok result) s'

/-- The hash that a Deployment carries. -/
def carriedHash (deployment : Object DeploymentBody) : Option GoString :=
  deployment.metadata.annotations.lookup modelConfigHashAnno

section Property

variable (r : LLMModelReconciler) (absent : Kind → Prop) (model : Named LLMModel)
  (before after : LLMModelSpec)

/-- A change of the spec restarts the model: the hash differs, a reconcile deletes the
Deployment that carries the old one, and one that finds no Deployment creates it. -/
structure Restarts : Prop where
  differs : r.modelConfigHash (withSpec model before) ≠ r.modelConfigHash (withSpec model after)
  deletes : ∀ s s' existing, s.lookup .deployment model.name = some existing →
    carriedHash existing = some (r.modelConfigHash (withSpec model before)) →
      Reconciles r absent model.name after s s' →
    (existing.metadata.finalizers = [] → s'.lookup .deployment model.name = none) ∧
    (existing.metadata.finalizers ≠ [] → ∃ object, s'.lookup .deployment model.name = some object ∧
      object.metadata.uid = existing.metadata.uid ∧ object.metadata.deletionTimestamp = true)
  recreates : ∀ s s', s.lookup .deployment model.name = none →
    Reconciles r absent model.name after s s' →
    ∃ object, s'.lookup .deployment model.name = some object ∧
      carriedHash object = some (r.modelConfigHash (withSpec model after))

/-- A change of the spec leaves the model running: a reconcile updates the Deployment. -/
def UpdatesInPlace : Prop := ∀ s s' existing, s.lookup .deployment model.name = some existing →
  existing.metadata.deletionTimestamp = false →
    carriedHash existing = some (r.modelConfigHash (withSpec model before)) →
  Reconciles r absent model.name after s s' →
    ∃ object, s'.lookup .deployment model.name = some object ∧
    object.metadata.uid = existing.metadata.uid ∧
    carriedHash object = some (r.modelConfigHash (withSpec model after)) ∧
    object.body.replicas = (buildDeployment (withSpec model after)).body.replicas

/-- What the hash is for. -/
structure TellsApart : Prop where
  breaking : breakingFields before ≠ breakingFields after → Restarts r absent model before after
  other : breakingFields before = breakingFields after → UpdatesInPlace r absent model before after

end Property

section Hash

variable {r : LLMModelReconciler} {model : Named LLMModel} {before after : LLMModelSpec}

private theorem modelConfigHash_eq (r : LLMModelReconciler) (model : Named LLMModel) :
    r.modelConfigHash model =
      hexEncode ((r.sha256 (hashed model.name model.body.spec)).take 8) := by
  simp [modelConfigHash, hashed, breakingFields]

private theorem modelConfigHash_ne_nil
    (hbytes : r.sha256 (hashed model.name model.body.spec) ≠ []) :
    r.modelConfigHash model ≠ [] := by
  intro hnil
  have hlength := congrArg List.length hnil
  rw [modelConfigHash_eq, hexEncode_length, List.length_take, List.length_nil] at hlength
  have hpos := List.length_pos_of_ne_nil hbytes
  omega

private theorem modelConfigHash_congr (h : breakingFields before = breakingFields after) :
    r.modelConfigHash (withSpec model before) = r.modelConfigHash (withSpec model after) := by
  rw [modelConfigHash_eq, modelConfigHash_eq]
  simp only [hashed, withSpec, h]

end Hash

section Spares

variable {α β : Type} {name : GoString} {absent : Kind → Prop} {s s' : Cluster}

/-- A program that leaves the Deployment of a model alone. -/
def Spares (name : GoString) (p : Program (Request Body) Answer α) : Prop :=
  p.Uses (fun q => q.target ≠ some (.deployment, name))

private theorem Spares.lookup {p : Program (Request Body) Answer α}
    {log : List (Σ q : Request Body, Answer q)} {value : α}
    (h : Spares name p) (hrun : Program.RunsOn (Exec absent) s p log value s') :
    s'.lookup .deployment name = s.lookup .deployment name := by
  apply hrun.preserves h (P := fun s' => s'.lookup .deployment name = s.lookup .deployment name)
  · intro s₁ q a s₂ hspares hexec hs
    rw [hexec.frame hspares, hs]
  · rfl

private theorem spares_ask {q : Request Body} (h : q.target ≠ some (.deployment, name)) :
    Spares name (ExceptT.mk (Program.ask q) : Fallible
      (Request Body) Answer StatusError q.Result).run :=
  ⟨h, fun _ => trivial⟩

private theorem spares_createOrUpdate {kind : Kind}
    {merge : Object (Body kind) → Object (Body kind)} {desired : Named (Body kind)}
    (h : (kind, desired.name) ≠ (.deployment, name)) :
    Spares name (createOrUpdate kind merge desired).run := by
  have hwrite : some (kind, desired.name) ≠ some (Kind.deployment, name) :=
    fun heq => h (Option.some.inj heq)
  apply Fallible.uses_bind
  · exact Fallible.uses_attempt (spares_ask nofun)
  · intro found
    cases found with
    | ok existing => exact Fallible.uses_bind (spares_ask hwrite) (fun _ => trivial)
    | error e =>
      change Spares name (ExceptT.run (if e.reason = .notFound then _ else throw e : Call Unit))
      split_ifs
      · exact Fallible.uses_bind (spares_ask hwrite) (fun _ => trivial)
      · trivial

private theorem spares_orSkip {x : Call Unit} (h : Spares name x.run) :
    Spares name (orSkip x).run :=
  Fallible.uses_bind (Fallible.uses_attempt h) (fun _ => trivial)

private theorem spares_orFail {text : GoString} {x : Call α} (h : Spares name x.run) :
    Spares name (orFail text x).run :=
  Fallible.uses_mapError h

variable {r : LLMModelReconciler} {model : Named LLMModel}

private theorem spares_get {kind : Kind} {name' : GoString} :
    Spares name (Fallible.attempt (get kind name')).run :=
  Fallible.uses_attempt (spares_ask nofun)

private theorem spares_list {kind : Kind} {matching : GoMap GoString} :
    Spares name (controller.list kind matching).run :=
  spares_ask nofun

/-- What is made of an object of another kind leaves the Deployment alone. -/
theorem spares_kind {kind : Kind} {merge : Object (Body kind) → Object (Body kind)}
    {desired : Named (Body kind)}
    (h : kind ≠ .deployment) : Spares name (createOrUpdate kind merge desired).run := by
  apply spares_createOrUpdate
  intro heq
  exact h (Prod.mk.inj heq).1

private theorem spares_compute {result : Except StatusError α} : Spares name (compute result).run :=
  trivial

private theorem spares_storage {storage : StorageResult} :
    Spares name (reconcileStorage model storage).run := by
  unfold reconcileStorage
  cases storage.pvc with
  | some pvc => exact spares_orFail (@spares_kind _ .persistentVolumeClaim _ _ nofun)
  | none => trivial

private theorem spares_applyPolicy {outcome : PolicyOutcome}
    {policy : Option (Named SecurityPolicySpec)} :
    Spares name (applyPolicy outcome policy).run := by
  cases policy with
  | none => trivial
  | some policy => exact Fallible.uses_bind (Fallible.uses_attempt (spares_kind nofun)) (fun _ => trivial)

private theorem spares_finish {outcome : PolicyOutcome} {statusErr : Option StatusError} :
    Spares name (outcome.finish statusErr).run := by
  unfold PolicyOutcome.finish
  split
  · trivial
  · trivial
  · trivial

private theorem spares_patchCondition {name' : GoString} {fresh : Object (Body .llmModel)}
    {condition : Condition} :
    Spares name (patchCondition name' fresh condition).run := by
  rw [patchCondition]
  split_ifs
  · apply Fallible.uses_bind
    · exact Fallible.uses_attempt (spares_ask nofun)
    · intro answer
      cases answer with
      | ok stored => trivial
      | error e => trivial
  · trivial

private theorem spares_reportPolicies {outcome : PolicyOutcome} :
    Spares name (reportPolicies model outcome).run := by
  apply Fallible.uses_bind spares_get
  intro answer
  cases answer with
  | ok fresh => exact Fallible.uses_bind spares_patchCondition (fun _ => spares_finish)
  | error e => exact spares_finish

private theorem spares_clientIDsOf {found : Except StatusError (Object SecretBody)} :
    Spares name (clientIDsOf found).run := by
  cases found with
  | ok secret => trivial
  | error e =>
    rw [clientIDsOf]
    split_ifs
    · trivial
    · trivial

private theorem spares_auth : Spares name (r.reconcileAuth model).run := by
  apply Fallible.uses_bind
  · exact spares_orFail (Fallible.uses_bind spares_get (fun _ => spares_clientIDsOf))
  intro clientIDs
  apply Fallible.uses_bind
  · exact spares_orFail (Fallible.uses_bind spares_list (fun _ => trivial))
  intro names
  apply Fallible.uses_bind
  · apply Fallible.uses_bind
    · exact spares_orFail (spares_kind nofun)
    · exact fun _ => spares_orFail (spares_kind nofun)
  intro _
  apply Fallible.uses_bind spares_applyPolicy
  intro outcome
  apply Fallible.uses_bind spares_applyPolicy
  intro outcome
  exact spares_reportPolicies

private theorem spares_podMonitor {podMonitor : Option (Named Unit)} :
    Spares name (reconcilePodMonitor podMonitor).run := by
  cases podMonitor with
  | some monitor => exact spares_orSkip (spares_kind nofun)
  | none => trivial

private theorem spares_writeStatus {name' : GoString} {phase : LLMModelPhase}
    {found : Except StatusError (Object (Body .llmModel))} :
    Spares name (r.writeStatus name' phase found).run := by
  cases found with
  | ok fresh =>
    apply Fallible.uses_bind spares_get
    intro deployment
    exact Fallible.uses_bind (spares_ask nofun) (fun _ => trivial)
  | error e =>
    rw [writeStatus, ignoreNotFound]
    split_ifs
    · trivial
    · trivial

private theorem spares_updateStatus {name' : GoString} {phase : LLMModelPhase} :
    Spares name (r.updateStatus name' phase).run :=
  Fallible.uses_bind spares_get (fun _ => spares_writeStatus)

private theorem spares_determinePhase {name' : GoString} :
    Spares name (determinePhase name').run := by
  apply Fallible.uses_bind spares_get
  intro found
  cases found with
  | ok deployment =>
    apply Fallible.uses_bind (Fallible.uses_attempt spares_list)
    intro listed
    cases listed with
    | ok pods => trivial
    | error e => trivial
  | error e => trivial

/-- The endpoint picker has a Deployment of its own. -/
theorem spares_inferencePool {pool : InferencePoolResources}
    (hpool : buildInferencePoolResources r.jsonToYAML model = .ok pool) :
    Spares model.name (reconcileInferencePoolResources model pool).run := by
  have hepp : ((.deployment, (setOwnerReference model pool.eppDeployment).name) : Kind × GoString) ≠
      (.deployment, model.name) := by
    unfold buildInferencePoolResources at hpool
    split at hpool
    · cases hpool
    obtain rfl := Except.ok.inj hpool
    intro heq
    have hlength := congrArg List.length (Prod.mk.inj heq).2
    simp [setOwnerReference, setControllerReference, eppName, lit] at hlength
  apply Fallible.uses_bind (spares_orSkip (@spares_kind _ .inferencePool _ _ nofun))
  intro _
  apply Fallible.uses_bind (spares_orFail (@spares_kind _ .serviceAccount _ _ nofun))
  intro _
  apply Fallible.uses_bind (spares_orFail (@spares_kind _ .role _ _ nofun))
  intro _
  apply Fallible.uses_bind (spares_orFail (@spares_kind _ .roleBinding _ _ nofun))
  intro _
  apply Fallible.uses_bind (spares_orFail (@spares_kind _ .service _ _ nofun))
  intro _
  apply Fallible.uses_bind (spares_orFail (@spares_kind _ .configMap _ _ nofun))
  intro _
  exact spares_orFail (spares_createOrUpdate hepp)

private theorem spares_applyRoute {route : Option (Named AIGatewayRouteSpec)} :
    Spares name (applyRoute route).run := by
  cases route with
  | some route => exact spares_orSkip (spares_kind nofun)
  | none => trivial

/-- What follows the Deployment leaves it alone. -/
theorem spares_reconcilePhase {pending : Bool} {phase : LLMModelPhase} :
    Spares model.name (r.reconcilePhase model pending phase).run := by
  rw [reconcilePhase]
  split_ifs
  · exact Fallible.uses_bind (spares_orSkip spares_updateStatus) (fun _ => trivial)
  · rw [reconcileServing]
    cases hpool : buildInferencePoolResources r.jsonToYAML model with
    | error e => trivial
    | ok pool =>
      apply Fallible.uses_bind (spares_inferencePool hpool)
      intro _
      apply Fallible.uses_bind (Fallible.uses_bind spares_applyRoute (fun _ => spares_applyRoute))
      intro _
      exact Fallible.uses_bind spares_updateStatus (fun _ => trivial)

end Spares

section Steps

variable {absent : Kind → Prop} {s s' : Cluster} {log : List (Σ q : Request Body, Answer q)}
  {kind : Kind} {name : GoString}

/-- A read finds what is stored, and misses only what is not. -/
theorem get_ran {α : Type} {next : Except StatusError (Object (Body kind)) → Call α} {value : α}
    (h : Program.RunsOn (Exec absent) s (Fallible.attempt (get kind name) >>= next).run log
      (.ok value) s') :
    ∃ found log, Program.RunsOn (Exec absent) s (next found).run log (.ok value) s' ∧
      (∀ object, found = .ok object → s.lookup kind name = some object) ∧
      ∀ e, found = .error e → e.reason = .notFound → s.lookup kind name = none := by
  obtain ⟨first, second, found, s₁, hget, hrest⟩ := Fallible.runsOn_bind_ok h
  obtain ⟨first, hget⟩ := Fallible.runsOn_attempt hget
  have hexec : Exec absent s (.get kind name) found s₁ := hget.ask_inv
  obtain ⟨rfl, hstored⟩ := hexec.get
  refine ⟨found, second, hrest, hstored, ?_⟩
  rintro e rfl hreason
  exact hexec.get_absent (.inl hreason)

private theorem deleteFound_ran
    (h : Program.RunsOn (Exec absent) s (deleteFound kind name {}).run log (.ok ()) s') :
    ∃ a, Exec absent s (.delete kind name {}) a s' ∧
    (a = .ok () ∨ ∃ e : StatusError, e.reason = .notFound ∧ a = .error e) := by
  obtain ⟨first, second, answer, s₁, hdelete, hrest⟩ := Fallible.runsOn_bind_ok h
  obtain ⟨first, hdelete⟩ := Fallible.runsOn_attempt hdelete
  have hexec : Exec absent s (.delete kind name {}) answer s₁ := hdelete.ask_inv
  cases answer with
  | ok value =>
    obtain ⟨-, -, rfl⟩ := hrest.pure_inv
    exact ⟨_, hexec, .inl rfl⟩
  | error e =>
    simp only [ignoreNotFound] at hrest
    split_ifs at hrest with hreason
    · obtain ⟨-, -, rfl⟩ := hrest.pure_inv
      exact ⟨_, hexec, .inr ⟨e, hreason, rfl⟩⟩
    · obtain ⟨-, herror, -⟩ := hrest.pure_inv
      cases herror

variable {hash : GoString} {desired : Named DeploymentBody} {podMonitor : Option (Named Unit)}
  {existing : Object DeploymentBody}

/-- A Deployment with another hash is deleted. -/
theorem stale_deleted (hfound : s.lookup .deployment desired.name = some existing)
    (hstale : staleDeployment hash existing = true)
    (h : Program.RunsOn (Exec absent) s
      (reconcileDeployment hash desired podMonitor (.ok existing)).run log (.ok ()) s') :
    (existing.metadata.finalizers = [] → s'.lookup .deployment desired.name = none) ∧
    (existing.metadata.finalizers ≠ [] →
      ∃ object, s'.lookup .deployment desired.name = some object ∧
      object.metadata.uid = existing.metadata.uid ∧ object.metadata.deletionTimestamp = true) := by
  rw [reconcileDeployment] at h
  obtain ⟨first, second, ⟨⟩, s₁, hupdate, hrest⟩ := Fallible.runsOn_bind_ok h
  rw [if_pos hstale] at hrest
  obtain ⟨-, -, rfl⟩ := hrest.pure_inv
  rw [updateDeployment] at hupdate
  rw [if_pos hstale] at hupdate
  obtain ⟨log', hdelete⟩ := Fallible.runsOn_mapError_ok hupdate
  obtain ⟨answer, hexec, hanswer⟩ := deleteFound_ran hdelete
  constructor
  · intro hbare
    apply hexec.delete_gone ?_ hanswer
    intro existing' hexisting'
    obtain rfl := Option.some.inj (hfound.symm.trans hexisting')
    exact hbare
  · intro hfinalizers
    exact hexec.delete_held hfound hfinalizers hanswer

/-- A Deployment with this hash, or with none, is updated. -/
theorem current_updated (hfound : s.lookup .deployment desired.name = some existing)
    (hlive : existing.metadata.deletionTimestamp = false)
    (hcurrent : staleDeployment hash existing = false) (h : Program.RunsOn (Exec absent) s
      (reconcileDeployment hash desired podMonitor (.ok existing)).run log (.ok ()) s') :
    ∃ object, s'.lookup .deployment desired.name = some object ∧
    object.metadata.uid = existing.metadata.uid ∧
      carriedHash object = some hash ∧ object.body.replicas = desired.body.replicas := by
  rw [reconcileDeployment] at h
  obtain ⟨first, second, ⟨⟩, s₁, hupdate, hrest⟩ := Fallible.runsOn_bind_ok h
  have hstale : ¬staleDeployment hash existing = true := by
    rw [hcurrent]
    exact Bool.false_ne_true
  rw [if_neg hstale] at hrest
  rw [updateDeployment] at hupdate
  rw [if_neg hstale] at hupdate
  obtain ⟨first, second, stored, s₂, hupdate, hend⟩ := Fallible.runsOn_bind_ok hupdate
  obtain ⟨-, -, rfl⟩ := hend.pure_inv
  obtain ⟨log', hupdate⟩ := Fallible.runsOn_mapError_ok hupdate
  have hexec : Exec absent s
      (.update .deployment desired.name (mergeDeployment hash desired existing)) (.ok stored) s₁ :=
    hupdate.ask_inv
  obtain ⟨object, hobject, huid, hannotations, hbody⟩ := hexec.update_stored hfound hlive
  refine ⟨object, ?_, huid, ?_, ?_⟩
  · rw [spares_podMonitor.lookup hrest, hobject]
  · rw [carriedHash, hannotations]
    exact Finmap.lookup_insert _
  · rw [hbody]
    rfl

/-- A missing Deployment is created. -/
theorem missing_created {e : StatusError} (hreason : e.reason = .notFound)
    (hmissing : s.lookup .deployment desired.name = none)
    (h : Program.RunsOn (Exec absent) s
      (reconcileDeployment hash desired podMonitor (.error e)).run log (.ok ()) s') :
    ∃ object, s'.lookup .deployment desired.name = some object ∧
    carriedHash object = carriedHash desired.toObject := by
  rw [reconcileDeployment, if_pos hreason] at h
  obtain ⟨first, second, ⟨⟩, s₁, hcreate, hrest⟩ := Fallible.runsOn_bind_ok h
  rw [createDeployment] at hcreate
  obtain ⟨first, second, answer, s₂, hcreate, hend⟩ := Fallible.runsOn_bind_ok hcreate
  obtain ⟨first, hcreate⟩ := Fallible.runsOn_attempt hcreate
  have hexec : Exec absent s (.create .deployment desired.name desired.toObject) answer s₂ :=
    hcreate.ask_inv
  have hlookup : s'.lookup .deployment desired.name = s₁.lookup .deployment desired.name :=
    spares_podMonitor.lookup hrest
  cases answer with
  | ok stored =>
    obtain ⟨-, -, rfl⟩ := hend.pure_inv
    exact ⟨_, hlookup.trans hexec.create_ok, rfl⟩
  | error e' =>
    simp only at hend
    split_ifs at hend with halready
    · obtain ⟨-, -, rfl⟩ := hend.pure_inv
      exact absurd hmissing (hexec.create_exists halready)
    · obtain ⟨-, herror, -⟩ := hend.pure_inv
      cases herror

end Steps

section Reconcile

variable {r : LLMModelReconciler} {absent : Kind → Prop} {s s' : Cluster}
  {log : List (Σ q : Request Body, Answer q)}
  {model : Named LLMModel} {spec before after : LLMModelSpec}

/-- The Deployment as a reconcile wants it. -/
def desiredDeployment (r : LLMModelReconciler) (model : Named LLMModel) : Named DeploymentBody :=
  let deployment := setOwnerReference model (buildDeployment model)
  { deployment with metadata.annotations := deployment.metadata.annotations.insert modelConfigHashAnno (r.modelConfigHash model) }

private theorem carriedHash_desiredDeployment : carriedHash (desiredDeployment r model).toObject = some (r.modelConfigHash model) :=
  Finmap.lookup_insert _

/-- The step of a reconcile that looks up the Deployment and deletes, updates or creates it. -/
def deploymentStep (r : LLMModelReconciler) (model : Named LLMModel) : Call Unit := do
  let found ← Fallible.attempt (get .deployment model.name)
  reconcileDeployment (r.modelConfigHash model) (desiredDeployment r model)
    (buildModelServiceResources model).podMonitor found

/-- A reconcile comes to the step on the Deployment, and does nothing else to it. -/
theorem reconcileModel_ran {result : Result}
    (h : Program.RunsOn (Exec absent) s (r.reconcileModel model).run log (.ok result) s') :
    ∃ s₁ s₂ log, s₁.lookup .deployment model.name = s.lookup .deployment model.name ∧
      s'.lookup .deployment model.name = s₂.lookup .deployment model.name ∧
      Program.RunsOn (Exec absent) s₁ (deploymentStep r model).run log (.ok ()) s₂ := by
  obtain ⟨_, _, storage, s₁, hcompute, h⟩ := Fallible.runsOn_bind_ok h
  obtain ⟨_, _, ⟨⟩, s₂, hstorage, h⟩ := Fallible.runsOn_bind_ok h
  obtain ⟨_, _, pending, s₃, hauth, h⟩ := Fallible.runsOn_bind_ok h
  obtain ⟨_, _, ⟨⟩, s₄, hnetwork, h⟩ := Fallible.runsOn_bind_ok h
  obtain ⟨_, _, ⟨⟩, s₇, hservice, h⟩ := Fallible.runsOn_bind_ok h
  obtain ⟨_, _, phase, s₈, hphase, h⟩ := Fallible.runsOn_bind_ok h
  obtain ⟨_, _, ⟨⟩, s₅, haccount, hservice⟩ := Fallible.runsOn_bind_ok hservice
  obtain ⟨_, log', ⟨⟩, s₆, hserviceBody, hdeployment⟩ := Fallible.runsOn_bind_ok hservice
  refine ⟨s₆, s₇, log', ?_, ?_, hdeployment⟩
  · rw [(spares_orFail (@spares_kind _ .service _ _ nofun)).lookup hserviceBody,
      (spares_orFail (@spares_kind _ .serviceAccount _ _ nofun)).lookup haccount,
      (spares_orFail (@spares_kind _ .networkPolicy _ _ nofun)).lookup hnetwork, spares_auth.lookup hauth,
      spares_storage.lookup hstorage, spares_compute.lookup hcompute]
  · rw [spares_reconcilePhase.lookup h, spares_determinePhase.lookup hphase]

/-- A reconcile of a model that is being served goes through all its steps. -/
theorem reconcile_ran (h : Reconciles r absent model.name spec s s') :
    ∃ model' result log, model'.name = model.name ∧
    model'.body.spec = spec ∧
    Program.RunsOn (Exec absent) s (r.reconcileModel model').run log (.ok result) s' := by
  obtain ⟨stored, log, result, hstored, hdeployed, hspec, hrun⟩ := h
  obtain ⟨found, log', hrun, hfound, hmissing⟩ := get_ran hrun
  cases found with
  | ok found =>
    obtain rfl := Option.some.inj (hstored.symm.trans (hfound found rfl))
    refine ⟨⟨stored, model.name⟩, result, log', rfl, hspec, ?_⟩
    simp only [reconcileFound, hdeployed.live, hdeployed.finalizer, reconcilePending,
      hdeployed.phase] at hrun
    exact hrun
  | error e =>
    simp only [ignoreNotFound] at hrun
    split_ifs at hrun with hreason
    · rw [hmissing e rfl hreason] at hstored
      cases hstored
    · obtain ⟨-, herror, -⟩ := hrun.pure_inv
      cases herror

private theorem modelConfigHash_withSpec {model' : Named LLMModel}
    (hname : model'.name = model.name) (hspec : model'.body.spec = spec) :
    r.modelConfigHash model' = r.modelConfigHash (withSpec model spec) := by
  rw [modelConfigHash_eq, modelConfigHash_eq, hname, hspec]
  rfl

/-- A reconcile runs the step on the Deployment, from the Deployment that was there. -/
theorem step_ran (h : Reconciles r absent model.name spec s s') :
    ∃ s₁ s₂ hash desired podMonitor found log,
    s₁.lookup .deployment model.name = s.lookup .deployment model.name ∧
    s'.lookup .deployment model.name = s₂.lookup .deployment model.name ∧
    hash = r.modelConfigHash (withSpec model spec) ∧ desired.name = model.name ∧
    carriedHash desired.toObject = some hash ∧
    desired.body.replicas = (buildDeployment (withSpec model spec)).body.replicas ∧
    Program.RunsOn (Exec absent) s₁ (reconcileDeployment hash desired podMonitor found).run log
      (.ok ()) s₂ ∧
    (∀ object, found = .ok object → s₁.lookup .deployment model.name = some object) ∧
    ∀ e, found = .error e → e.reason = .notFound → s₁.lookup .deployment model.name = none := by
  obtain ⟨model', result, log, hname, hspec, hrun⟩ := reconcile_ran h
  obtain ⟨s₁, s₂, log', hfirst, hlast, hrun⟩ := reconcileModel_ran hrun
  rw [hname] at hfirst hlast
  obtain ⟨found, log'', hrun, hfound, hmissing⟩ := get_ran hrun
  rw [hname] at hfound hmissing
  exact ⟨s₁, s₂, _, _, _, found, log'', hfirst, hlast, modelConfigHash_withSpec hname hspec, hname,
    carriedHash_desiredDeployment, by rw [← hspec]; rfl, hrun, hfound, hmissing⟩

end Reconcile

section TellsApart

variable {r : LLMModelReconciler} {absent : Kind → Prop} {s s' : Cluster} {model : Named LLMModel}
  {before after : LLMModelSpec}

/-- A step on the Deployment that does not fail has read it, or has not found it. -/
theorem read_or_missing {hash : GoString} {desired : Named DeploymentBody}
    {podMonitor : Option (Named Unit)} {found : Except StatusError (Object (Body .deployment))}
    {log : List (Σ q : Request Body, Answer q)}
    (h : Program.RunsOn (Exec absent) s (reconcileDeployment hash desired podMonitor found).run log
      (.ok ()) s') :
    (∃ object, found = .ok object) ∨ ∃ e, found = .error e ∧ e.reason = .notFound := by
  cases found with
  | ok object => exact .inl ⟨object, rfl⟩
  | error e =>
    by_cases hreason : e.reason = .notFound
    · exact .inr ⟨e, rfl, hreason⟩
    · rw [reconcileDeployment, if_neg hreason] at h
      obtain ⟨-, herror, -⟩ := h.pure_inv
      cases herror

/-- A hash that differs restarts the model. -/
theorem restarts_of_ne (hbytes : r.sha256 (hashed model.name before) ≠ [])
    (hdiffers : r.modelConfigHash (withSpec model before) ≠ r.modelConfigHash
      (withSpec model after)) :
    Restarts r absent model before after where
  differs := hdiffers
  deletes := by
    intro s s' existing hexisting hcarried hreconciles
    obtain ⟨s₁, s₂, hash, desired, podMonitor, found, log, hfirst, hlast, rfl, hname, -, -, hrun,
      hfound, hmissing⟩ :=
      step_ran hreconciles
    rw [hlast]
    rw [← hfirst] at hexisting
    rw [← hname] at hexisting hfound hmissing ⊢
    obtain ⟨object, rfl⟩ | ⟨e, rfl, hreason⟩ := read_or_missing hrun
    · obtain rfl := Option.some.inj (hexisting.symm.trans (hfound object rfl))
      apply stale_deleted hexisting ?_ hrun
      have hhash : (existing.metadata.annotations.lookup modelConfigHashAnno).getD [] =
          r.modelConfigHash (withSpec model before) := by
        rw [← carriedHash, hcarried, Option.getD_some]
      rw [staleDeployment, hhash, decide_eq_true_eq]
      exact ⟨modelConfigHash_ne_nil hbytes, hdiffers⟩
    · rw [hmissing e rfl hreason] at hexisting
      cases hexisting
  recreates := by
    intro s s' hnone hreconciles
    obtain ⟨s₁, s₂, hash, desired, podMonitor, found, log, hfirst, hlast, rfl, hname, hwanted, -,
      hrun, hfound, -⟩ :=
      step_ran hreconciles
    rw [hlast]
    rw [← hfirst] at hnone
    rw [← hname] at hnone hfound ⊢
    obtain ⟨object, rfl⟩ | ⟨e, rfl, hreason⟩ := read_or_missing hrun
    · rw [hfound object rfl] at hnone
      cases hnone
    · obtain ⟨object, hobject, hcarries⟩ := missing_created hreason hnone hrun
      exact ⟨object, hobject, hcarries.trans hwanted⟩

/-- A change of no breaking field leaves the model running. -/
theorem updatesInPlace_of_eq (hsame : breakingFields before = breakingFields after) :
    UpdatesInPlace r absent model before after := by
  intro s s' existing hexisting hlive hcarried hreconciles
  obtain ⟨s₁, s₂, hash, desired, podMonitor, found, log, hfirst, hlast, rfl, hname, -, hreplicas,
    hrun, hfound, hmissing⟩ :=
    step_ran hreconciles
  rw [hlast]
  rw [← hfirst] at hexisting
  rw [← hname] at hexisting hfound hmissing ⊢
  obtain ⟨object, rfl⟩ | ⟨e, rfl, hreason⟩ := read_or_missing hrun
  · obtain rfl := Option.some.inj (hexisting.symm.trans (hfound object rfl))
    have hcurrent : staleDeployment (r.modelConfigHash (withSpec model after)) existing =
        false := by
      rw [staleDeployment, ← carriedHash, hcarried, modelConfigHash_congr hsame]
      simp
    obtain ⟨object, hobject, huid, hcarries, hbody⟩ := current_updated hexisting hlive hcurrent hrun
    exact ⟨object, hobject, huid, hcarries, hbody.trans hreplicas⟩
  · rw [hmissing e rfl hreason] at hexisting
    cases hexisting

/-- Where the hash function does not collide on them, two specs are told apart when
their breaking fields are the same, or do not spell the same string in a row. -/
theorem tellsApart_iff (hbytes : r.sha256 (hashed model.name before) ≠ [])
    (hcollision : (r.sha256 (hashed model.name before)).take 8 =
      (r.sha256 (hashed model.name after)).take 8 →
      hashed model.name before = hashed model.name after) :
    TellsApart r absent model before after ↔
      breakingFields before = breakingFields after ∨
      (breakingFields before).flatten ≠ (breakingFields after).flatten := by
  constructor
  · intro happart
    by_cases hsame : breakingFields before = breakingFields after
    · exact .inl hsame
    · right
      intro hflat
      apply (happart.breaking hsame).differs
      rw [modelConfigHash_eq, modelConfigHash_eq]
      simp only [hashed, withSpec, hflat]
  · intro hfields
    constructor
    · intro hbreaking
      apply restarts_of_ne hbytes
      rw [modelConfigHash_eq, modelConfigHash_eq]
      intro hhash
      have hinput := hcollision (hexEncode_injective hhash)
      exact (hfields.resolve_left hbreaking) (List.append_cancel_left hinput)
    · intro hsame
      exact updatesInPlace_of_eq hsame

end TellsApart

section Concrete

def imageSpec (image revision : GoString) : LLMModelSpec where
  model := { name := "org/chat", source := modelSourceOCI, storage := { type := "pvc" }, image := image, revision := revision }

/-- A model whose image is pinned to a revision. -/
def pinned : LLMModelSpec := imageSpec "ghcr.io/org/chat:1" "2"

def upgraded : LLMModelSpec := imageSpec "ghcr.io/org/chat:2" "2"

/-- Another image, in whose tag the revision has gone. -/
def retagged : LLMModelSpec := imageSpec "ghcr.io/org/chat:12" ""

def chat : Named LLMModel where
  name := "chat"
  metadata := { finalizers := [finalizerName] }
  body := { spec := pinned, status := { phase := .ready } }

def reconciler : LLMModelReconciler where
  config :=
    { baseDomain := "example.org"
      externalGatewayName := "external"
      externalGatewayNS := "envoy-gateway-system"
      internalGatewayName := "internal"
      internalGatewayNS := "envoy-gateway-system"
      oidcIssuerURL := "https://keycloak.example.org/realms/main"
      oidcGroupsClaim := "groups" }
  «namespace» := "llm-serving"
  sha256 data :=
    if data = hashed "chat" pinned then
      [38, 115, 67, 92, 183, 126, 243, 47, 214, 211, 8, 213, 152, 58, 59, 214, 251, 207, 83, 35,
        163, 65, 114, 11, 153, 88, 135,
        141, 162, 13, 95, 150]
    else
      [25, 97, 218, 190, 255, 127, 47, 87, 28, 81, 92, 190, 130, 25, 71, 136, 32, 249, 199, 161,
        160, 93, 130, 230, 140, 243, 195,
        210, 43, 105, 18, 101]
  parseQuantity _ := .ok ()
  jsonToYAML json := .ok json

/-- The model with its next spec, and the Deployment of the first one. -/
def running : Cluster := clusterAfter
  [.create .llmModel "chat" ⟨{ finalizers := [finalizerName] }, { spec := upgraded }⟩,
    .updateStatus .llmModel "chat" ⟨{ resourceVersion := 1 },
      { spec := upgraded, status := { phase := .ready } }⟩,
    .create .deployment "chat" ⟨(desiredDeployment reconciler chat).metadata,
      { replicas := some 1 }⟩]

/-- What a reconcile that meets no failure comes to. -/
def reconciled (s : Cluster) : Outcome × Cluster :=
  Program.eval ApiServer.handle s (reconciler.reconcile "chat").run

/-- Whether the next reconcile succeeds on the model with its next spec. -/
def ready (s : Cluster) : Bool :=
  (reconciled s).1.toOption.isSome &&
    (s.lookup .llmModel "chat").any (fun model => !model.metadata.deletionTimestamp &&
    containsFinalizer model && decide (model.body.status.phase ≠ .unset) &&
      decide (model.body.spec = upgraded))

private theorem ready_reconciles {s : Cluster} (h : ready s = true) :
    Reconciles reconciler (fun _ => False) "chat" upgraded s (reconciled s).2 := by
  simp only [ready, Bool.and_eq_true, Option.any_eq_true, Bool.not_eq_true', decide_eq_true_eq] at h
  obtain ⟨hresult, model, hstored, ⟨⟨hlive, hfinalizer⟩, hphase⟩, hspec⟩ := h
  obtain ⟨result, hresult⟩ := Option.isSome_iff_exists.mp hresult
  have hok : (reconciled s).1 = .ok result := by
    cases houtcome : (reconciled s).1 with
    | ok value =>
      rw [houtcome] at hresult
      rw [Option.some.inj hresult]
    | error e =>
      rw [houtcome] at hresult
      cases hresult
  have hruns : ∃ log, Program.RunsOn (Exec (fun _ => False)) s (reconciler.reconcile "chat").run log
    (reconciled s).1
      (reconciled s).2 := Program.runsOn_eval (fun s q => .reply q) s _
  obtain ⟨log, hrun⟩ := hruns
  exact ⟨model, log, result, hstored, ⟨hlive, hfinalizer, hphase⟩, hspec, hok ▸ hrun⟩

private theorem running_ready : ready running = true := by decide +kernel

private theorem reconciled_ready : ready (reconciled running).2 = true := by decide +kernel

private theorem running_carries :
    (running.lookup .deployment "chat").any (fun existing => existing.metadata.finalizers.isEmpty &&
    decide (carriedHash existing = some (reconciler.modelConfigHash (withSpec chat pinned)))) = true := by
  decide +kernel

/-- Two images and revisions that spell the same string in a row have the same hash. -/
theorem retagged_kept : ¬TellsApart reconciler (fun _ => False) chat pinned retagged := by
  intro happart
  have hbreaking : breakingFields pinned ≠ breakingFields retagged := by decide
  apply (happart.breaking hbreaking).differs
  rw [modelConfigHash_eq, modelConfigHash_eq]
  rfl

/-- Another image restarts the model: its Deployment is deleted, and created again. -/
theorem upgraded_restarted : ∃ s s' : Cluster, Reconciles reconciler (fun _ => False) "chat" upgraded running s ∧
    s.lookup .deployment "chat" = none ∧ Reconciles reconciler (fun _ => False) "chat" upgraded s s' ∧
    ∃ object, s'.lookup .deployment "chat" = some object ∧
      carriedHash object = some (reconciler.modelConfigHash (withSpec chat upgraded)) := by
  have hcollision : (reconciler.sha256 (hashed "chat" pinned)).take 8 = (reconciler.sha256 (hashed "chat" upgraded)).take 8 →
      hashed "chat" pinned = hashed "chat" upgraded := by
    decide
  have happart : TellsApart reconciler (fun _ => False) chat pinned upgraded :=
    (tellsApart_iff (by decide) hcollision).mpr (.inr (by decide))
  have hrestarts := happart.breaking (by decide)
  obtain ⟨existing, hexisting, hcarries⟩ := (Option.any_eq_true _ _).mp running_carries
  rw [Bool.and_eq_true, List.isEmpty_iff, decide_eq_true_eq] at hcarries
  have hfirst := ready_reconciles running_ready
  have hgone := (hrestarts.deletes _ _ existing hexisting hcarries.2 hfirst).1 hcarries.1
  have hsecond := ready_reconciles reconciled_ready
  exact ⟨_, _, hfirst, hgone, hsecond, hrestarts.recreates _ _ hgone hsecond⟩

end Concrete

end confighash
