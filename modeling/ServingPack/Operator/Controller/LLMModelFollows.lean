import ServingPack.Operator.Controller.LLMModelSteps

open golang apiserver concurrency kube v1alpha1 config reconcilers

namespace controller

namespace LLMModelReconciler

open Protocol

variable {r : LLMModelReconciler} {name : GoString} {log log' : CallLog}
  {model : Object (Body .llmModel)}

private theorem Live.suffix (h : Live log name model) (hlog : log <:+ log') :
    Live log' name model :=
  ⟨h.1.suffix hlog, h.2⟩

private theorem Working.suffix (h : Working log name model) (hlog : log <:+ log') :
    Working log' name model := by
  obtain ⟨first, hlive, hmodel⟩ := h
  exact ⟨first, hlive.suffix hlog,
    hmodel.imp_right (fun ⟨hphase, htold⟩ => ⟨hphase, htold.suffix hlog⟩)⟩

private theorem Working.unique {model' : Object (Body .llmModel)} (h : Working log name model)
    (h' : Working log name model') :
    model = model' := by
  obtain ⟨first, hlive, hmodel⟩ := h
  obtain ⟨first', hlive', hmodel'⟩ := h'
  obtain rfl := hlive.1.unique hlive'.1
  rcases hmodel with ⟨hphase, rfl⟩ | ⟨hphase, htold⟩
  · rcases hmodel' with ⟨_, rfl⟩ | ⟨hphase', _⟩
    · rfl
    · exact absurd hphase' hphase
  · rcases hmodel' with ⟨hphase', _⟩ | ⟨_, htold'⟩
    · exact absurd hphase hphase'
    · exact Except.ok.inj (htold.unique htold')

/-- A policy rendered from what was read is rendered from it later too. -/
theorem Rendered.suffix {e : Endpoint} {rendered : Named SecurityPolicySpec}
    (h : r.Rendered log name model e rendered)
    (hlog : log <:+ log') : r.Rendered log' name model e rendered := by
  obtain ⟨hworking, henabled, clientIDs, names, hids, hpool, heq⟩ := h
  exact ⟨hworking.suffix hlog, henabled, clientIDs, names, hids.suffix hlog, hpool.suffix hlog, heq⟩

/-- There is one policy to render for an endpoint in a reconcile. -/
theorem Rendered.unique {model' : Object (Body .llmModel)} {e : Endpoint}
    {rendered rendered' : Named SecurityPolicySpec}
    (h : r.Rendered log name model e rendered) (h' : r.Rendered log name model' e rendered') :
    rendered = rendered' := by
  obtain ⟨hworking, _, clientIDs, names, hids, hpool, rfl⟩ := h
  obtain ⟨hworking', _, clientIDs', names', hids', hpool', rfl⟩ := h'
  obtain rfl := hworking.unique hworking'
  obtain rfl := hids.unique hids'
  obtain rfl := hpool.unique hpool'
  rfl

private theorem Guarded.suffix {e : Endpoint} (h : r.Guarded log name model e)
    (hlog : log <:+ log') :
    r.Guarded log' name model e := by
  obtain ⟨rendered, hrendered, happlied⟩ := h
  exact ⟨rendered, hrendered.suffix hlog, happlied.imp (·.suffix hlog) (·.suffix hlog)⟩

private theorem allowed_reads : Reads (r.Allowed name) := ⟨fun _ => .get, fun _ => .list⟩

/-- A step of the reconcile that asks only what is allowed. -/
abbrev Keeping (r : LLMModelReconciler) (name : GoString) (log : CallLog) {α : Type} (x : Call α) :
    Prop :=
  controller.Keeping (r.Allowed name) log x

section Owned

private theorem keeping_owned (hworking : Working log name model) {kind : Kind}
    {merge : Object (Body kind) → Object (Body kind)} {desired : Named (Body kind)}
    (hkey : (kind, desired.name) ∈ ownedKeys name) (hmerge : KeepsIdentity merge) :
    r.Keeping name log (createOrUpdate kind merge (setOwnerReference ⟨model, name⟩ desired)) := by
  have hkey' : (kind, (setOwnerReference ⟨model, name⟩ desired).name) ∈ ownedKeys name := hkey
  exact keeping_createOrUpdate allowed_reads
    (fun _ _ hlog h => .owned (hworking.suffix hlog) hkey' rfl hmerge h)

private theorem keeping_ownedLabels (hworking : Working log name model) {kind : Kind}
    {desired : Named (Body kind)} {text : GoString} (hkey : (kind, desired.name) ∈ ownedKeys name) :
    r.Keeping name log (orFail text
      (createOrUpdateLabels kind (setOwnerReference ⟨model, name⟩ desired))) :=
  keeping_orFail (keeping_owned hworking hkey (keepsIdentity_labels _))

private theorem keeping_ownedBody (hworking : Working log name model) {kind : Kind}
    {desired : Named (Body kind)} {text : GoString} (hkey : (kind, desired.name) ∈ ownedKeys name) :
    r.Keeping name log (orFail text
      (createOrUpdateBody kind (setOwnerReference ⟨model, name⟩ desired))) :=
  keeping_orFail (keeping_owned hworking hkey (keepsIdentity_body _))

private theorem keeping_extension (hworking : Working log name model) {kind : Kind}
    {desired : Named (Body kind)}
    (hkind : kind = .inferencePool ∨ kind = .podMonitor) (hname : desired.name = name) :
    r.Keeping name log (orSkip (applyModelResourcePreservingFinalizers kind desired)) :=
  keeping_orSkip (keeping_createOrUpdate allowed_reads
    (fun _ _ hlog h => .extension (hworking.suffix hlog) hkind hname h))

/-- What a storage specification claims is the model's own volume. -/
theorem pvc_name {storage : StorageResult} {parseQuantity : GoString → Except StatusError Unit}
    (h : buildStorageSpec parseQuantity ⟨model, name⟩ = .ok storage) {pvc : Named Unit}
    (hpvc : storage.pvc = some pvc) :
    pvc.name = name ++ ("-model-storage" : GoString) := by
  unfold buildStorageSpec buildHFStorageSpec at h
  split_ifs at h
  · obtain rfl := Except.ok.inj h
    cases hpvc
  · dsimp only at h
    split at h
    · split_ifs at h
    · split_ifs at h
      · obtain rfl := Except.ok.inj h
        cases hpvc
      · obtain rfl := Except.ok.inj h
        obtain rfl := Option.some.inj hpvc
        rfl

private theorem keeping_storage (hworking : Working log name model) {storage : StorageResult}
    (h : buildStorageSpec r.parseQuantity ⟨model, name⟩ = .ok storage) :
    r.Keeping name log (reconcileStorage ⟨model, name⟩ storage) := by
  unfold reconcileStorage
  split
  · next pvc hpvc =>
    refine keeping_ownedLabels hworking ?_
    rw [pvc_name h hpvc]
    exact List.mem_cons_self ..
  · exact keeping_pure ()

end Owned

section Auth

private theorem keeping_keys (hworking : Working log name model) {clientIDs names : List GoString} :
    r.Keeping name log (reconcileAuthSecretAndConfigMap
      (buildAuthResources ⟨model, name⟩ r.config clientIDs names)) :=
  keeping_bind (keeping_orFail
    (keeping_createOrUpdate allowed_reads
    (fun _ _ hlog h => .keys (hworking.suffix hlog) (.inl h))))
    (fun _ _ hlog => keeping_orFail (keeping_createOrUpdate allowed_reads
      (fun _ _ hlog' h => .keys (hworking.suffix (hlog.trans hlog')) (.inr h))))

/-- What the loop over the policies knows of one of them: without an error it
was applied, or it waits for its kind. -/
def Recorded (log : CallLog) (outcome : PolicyOutcome) (rendered : Named SecurityPolicySpec) :
    Prop :=
  outcome.err = none → Applied log .securityPolicy (mergeAll rendered) rendered ∨
    (outcome.pending = true ∧ Unserved log)

/-- A later outcome of the loop forgets no error and nothing that waits. -/
def PolicyOutcome.Grows (outcome outcome' : PolicyOutcome) : Prop :=
  (outcome'.err = none → outcome.err = none) ∧ (outcome.pending = true → outcome'.pending = true)

private theorem follows_applyPolicy {e : Endpoint} {rendered : Named SecurityPolicySpec}
    (outcome : PolicyOutcome) (hrendered : r.Rendered log name model e rendered) :
    (logged (r.Allowed name)).Follows log (applyPolicy outcome (some rendered)).run
      (fun res log' => ∃ outcome', res = .ok outcome' ∧ PolicyOutcome.Grows outcome outcome' ∧
        Recorded log' outcome' rendered) := by
  refine Follows.attemptThen (follows_createOrUpdate (Allowed.get _ _)
    (fun _ _ hlog h => Allowed.policy (hrendered.suffix hlog) h)) (fun res log' _ happly => ?_)
  refine ⟨_, rfl, ?_⟩
  cases res with
  | ok value => exact ⟨⟨id, id⟩, fun _ => .inl happly⟩
  | error e =>
    obtain ⟨q, hkind, htold⟩ := happly
    by_cases hreason : e.reason = .noMatch
    · simp only [PolicyOutcome.record, if_pos hreason]
      exact ⟨⟨id, fun _ => rfl⟩, fun _ => .inr ⟨rfl, q, e, hkind, hreason, htold⟩⟩
    · simp only [PolicyOutcome.record, if_neg hreason]
      exact ⟨⟨nofun, id⟩, nofun⟩

private theorem Recorded.mono {outcome outcome' : PolicyOutcome}
    {rendered : Named SecurityPolicySpec}
    (h : Recorded log outcome rendered) (hgrows : PolicyOutcome.Grows outcome outcome')
    (hlog : log <:+ log') :
    Recorded log' outcome' rendered := by
  intro herr
  rcases h (hgrows.1 herr) with happlied | ⟨hpending, hunserved⟩
  · exact .inl (happlied.suffix hlog)
  · exact .inr ⟨hgrows.2 hpending, hunserved.suffix hlog⟩

private theorem follows_finish (outcome : PolicyOutcome) (statusErr : Option StatusError) :
    (logged (r.Allowed name)).Follows log (outcome.finish statusErr).run
      (fun res _ => ∀ pending, res = .ok pending → outcome.err = none ∧
        pending = outcome.pending) := by
  unfold PolicyOutcome.finish
  split
  · exact nofun
  · exact nofun
  · next herr =>
    rintro pending ⟨⟩
    exact ⟨herr, rfl⟩

private theorem PolicyOutcome.condition_observedGeneration (outcome : PolicyOutcome)
    (generation : Nat) :
    (outcome.condition generation).observedGeneration = generation := by
  unfold PolicyOutcome.condition
  split
  · rfl
  · split_ifs <;> rfl

private theorem keeping_patchCondition (hworking : Working log name model)
    {fresh : Object (Body .llmModel)}
    (hfresh : Told log (.get .llmModel name) (.ok fresh)) {condition : Condition}
    (hgeneration : condition.observedGeneration = model.metadata.generation) :
    r.Keeping name log (patchCondition name fresh condition) := by
  unfold patchCondition
  split_ifs
  · refine keeping_attempt (keeping_ask (.patchCondition hworking hfresh hgeneration))
      (fun res log' _ => ?_)
    cases res with
    | ok stored => trivial
    | error e => trivial
  · trivial

private theorem follows_reportPolicies (hworking : Working log name model)
    (outcome : PolicyOutcome) :
    (logged (r.Allowed name)).Follows log (reportPolicies ⟨model, name⟩ outcome).run
      (fun res _ => ∀ pending, res = .ok pending → outcome.err = none ∧
        pending = outcome.pending) := by
  refine Follows.attemptThen (follows_ask (Allowed.get _ _)) (fun res log' hlog htold => ?_)
  cases res with
  | ok fresh =>
    exact Follows.andThen
      (keeping_patchCondition (hworking.suffix hlog) htold
        (PolicyOutcome.condition_observedGeneration outcome _))
      (fun statusErr log'' _ _ => follows_finish outcome statusErr) (fun e log'' _ _ => nofun)
  | error e => exact follows_finish outcome (some e)

/-- The policies of the enabled endpoints, once the loop has ended without an error. -/
def Policies (r : LLMModelReconciler) (name : GoString) (model : Object (Body .llmModel))
    (log : CallLog) (pending : Bool) : Prop :=
  ∀ e, llmEnabled model.body.spec e = true → ∃ rendered, r.Rendered log name model e rendered ∧
    (Applied log .securityPolicy (mergeAll rendered) rendered ∨ (pending = true ∧ Unserved log))

private theorem follows_applyEndpoint (hworking : Working log name model)
    {clientIDs names : List GoString}
    (hids : Identified log name clientIDs) (hpool : Pooled log name names) (e : Endpoint)
    (outcome : PolicyOutcome) :
    (logged (r.Allowed name)).Follows log
      (applyPolicy outcome (if llmEnabled model.body.spec e
        then some (r.policy ⟨model, name⟩ clientIDs names e) else none)).run
      (fun res log' => ∃ outcome', res = .ok outcome' ∧ PolicyOutcome.Grows outcome outcome' ∧
        (llmEnabled model.body.spec e = true →
          Recorded log' outcome' (r.policy ⟨model, name⟩ clientIDs names e))) := by
  split_ifs with henabled
  · refine (follows_applyPolicy (e := e) outcome ⟨hworking, henabled, clientIDs, names, hids, hpool,
      rfl⟩).mono ?_
    rintro res log' ⟨outcome', hres, hgrows, hrecorded⟩
    exact ⟨outcome', hres, hgrows, fun _ => hrecorded⟩
  · exact ⟨outcome, rfl, ⟨id, id⟩, fun h => absurd h henabled⟩

private theorem follows_reconcileSecurityPolicies (hworking : Working log name model)
    {clientIDs names : List GoString}
    (hids : Identified log name clientIDs) (hpool : Pooled log name names) :
    (logged (r.Allowed name)).Follows log
      (reconcileSecurityPolicies ⟨model, name⟩
        (buildAuthResources ⟨model, name⟩ r.config clientIDs names)).run
      (fun res log' => ∀ pending, res = .ok pending → r.Policies name model log' pending) := by
  refine Follows.andThen (follows_applyEndpoint hworking hids hpool .external {}) ?_
    (fun e log' _ _ => nofun)
  rintro outcome log₁ hlog₁ ⟨outcome₁, ⟨⟩, -, hexternal⟩
  refine Follows.andThen
    (follows_applyEndpoint (hworking.suffix hlog₁) (hids.suffix hlog₁) (hpool.suffix hlog₁)
    .internal outcome) ?_ (fun e log' _ _ => nofun)
  rintro outcome' log₂ hlog₂ ⟨outcome₂, ⟨⟩, hgrows, hinternal⟩
  refine (follows_reportPolicies (hworking.suffix (hlog₁.trans hlog₂)) outcome').grows.mono ?_
  rintro res log₃ ⟨hres, hlog₃⟩ pending rfl e henabled
  obtain ⟨herr, rfl⟩ := hres pending rfl
  have hlog := hlog₁.trans (hlog₂.trans hlog₃)
  refine ⟨_, ⟨hworking.suffix hlog, henabled, clientIDs, names, hids.suffix hlog, hpool.suffix hlog,
    rfl⟩, ?_⟩
  cases e with
  | external => exact ((hexternal henabled).mono hgrows (hlog₂.trans hlog₃)) herr
  | internal => exact ((hinternal henabled).mono ⟨id, id⟩ hlog₃) herr

private theorem follows_reconcileAuth (hworking : Working log name model)
    (hunread : Unread log name) :
    (logged (r.Allowed name)).Follows log (r.reconcileAuth ⟨model, name⟩).run
      (fun res log' => ∀ pending, res = .ok pending → r.Policies name model log' pending) := by
  refine Follows.andThen (follows_orFail (follows_apiKeyClientIDs allowed_reads hunread))
    (fun clientIDs log₁ hlog₁ hids => ?_)
    (fun e log' _ _ => nofun)
  obtain ⟨hids, hunlisted⟩ := hids clientIDs rfl
  refine Follows.andThen (follows_orFail (follows_apiKeySecretNames allowed_reads hunlisted))
    (fun names log₂ hlog₂ hpool => ?_)
    (fun e log' _ _ => nofun)
  have hpool := hpool names rfl
  have hworking₂ := hworking.suffix (hlog₁.trans hlog₂)
  refine Follows.andThen (keeping_keys hworking₂) (fun _ log₃ hlog₃ _ => ?_)
    (fun e log' _ _ => nofun)
  exact follows_reconcileSecurityPolicies (hworking₂.suffix hlog₃)
    ((hids.suffix hlog₂).suffix hlog₃) (hpool.suffix hlog₃)

end Auth

section Serving

private theorem keepsIdentity_deployment (hash : GoString) (desired : Named DeploymentBody) :
    KeepsIdentity (mergeDeployment hash desired) :=
  fun existing => ⟨existing.metadata.labels,
    existing.metadata.annotations.insert modelConfigHashAnno hash, rfl⟩

private theorem keeping_updateDeployment (hworking : Working log name model) {hash : GoString}
    {desired : Named DeploymentBody}
    {existing : Object (Body .deployment)} (hname : desired.name = name)
    (hcontroller : desired.metadata.controller =
      some (controllerReference "LLMModel" (Named.mk model name)))
    (htold : Told log (.get .deployment desired.name) (.ok existing)) :
    r.Keeping name log (updateDeployment hash desired existing) := by
  unfold updateDeployment
  split_ifs
  · refine keeping_orFail ((follows_deleteFound ?_).mono (fun _ _ _ => trivial))
    rw [hname]
    exact .deleteDeployment hworking
  · have hkey : ((.deployment, desired.name) : Kind × GoString) ∈ ownedKeys name := by
      rw [hname]
      simp [ownedKeys]
    have hupdate : ApplyRequest log .deployment (mergeDeployment hash desired) desired
      (.update .deployment desired.name (mergeDeployment hash desired existing)) := .update htold
    exact keeping_bind (keeping_orFail (keeping_ask
      (.owned hworking hkey hcontroller (keepsIdentity_deployment hash desired) hupdate)))
        (fun _ _ _ => keeping_pure ())

private theorem keeping_createDeployment (hworking : Working log name model)
    {desired : Named DeploymentBody} (hname : desired.name = name)
    (hcontroller : desired.metadata.controller =
      some (controllerReference "LLMModel" (Named.mk model name))) :
    r.Keeping name log (createDeployment desired) := by
  have hkey : ((.deployment, desired.name) : Kind × GoString) ∈ ownedKeys name := by
    rw [hname]
    simp [ownedKeys]
  refine keeping_attempt
    (keeping_ask (.owned hworking hkey hcontroller (keepsIdentity_labels desired) .create))
    (fun res log' _ => ?_)
  cases res with
  | ok stored => trivial
  | error e =>
    change r.Keeping name log'
      (if e.reason = .alreadyExists then pure () else throw (wrapped "creating Deployment" e))
    split_ifs
    · trivial
    · trivial

private theorem keeping_podMonitor (hworking : Working log name model)
    {podMonitor : Option (Named Unit)}
    (hname : ∀ monitor, podMonitor = some monitor → monitor.name = name) :
    r.Keeping name log (reconcilePodMonitor podMonitor) := by
  cases podMonitor with
  | some monitor => exact keeping_extension hworking (.inr rfl) (hname monitor rfl)
  | none => exact keeping_pure ()

private theorem keeping_reconcileDeployment (hworking : Working log name model) {hash : GoString}
    {desired : Named DeploymentBody}
    {podMonitor : Option (Named Unit)} (hname : desired.name = name)
    (hcontroller : desired.metadata.controller =
      some (controllerReference "LLMModel" (Named.mk model name)))
    (hmonitor : ∀ monitor, podMonitor = some monitor → monitor.name = name)
    {found : Except StatusError (Object (Body .deployment))}
    (htold : Told log (.get .deployment desired.name) found) :
    r.Keeping name log (reconcileDeployment hash desired podMonitor found) := by
  cases found with
  | ok existing =>
    refine keeping_bind (keeping_updateDeployment hworking hname hcontroller htold)
      (fun _ log' hlog => ?_)
    split_ifs
    · trivial
    · exact keeping_podMonitor (hworking.suffix hlog) hmonitor
  | error e =>
    change r.Keeping name log (if e.reason = .notFound then _ else throw _)
    split_ifs
    · exact keeping_bind (keeping_createDeployment hworking hname hcontroller)
        (fun _ _ hlog => keeping_podMonitor (hworking.suffix hlog) hmonitor)
    · trivial

private theorem podMonitor_name (monitor : Named Unit)
    (h : (buildModelServiceResources ⟨model, name⟩).podMonitor = some monitor) :
    monitor.name = name := by
  unfold buildModelServiceResources at h
  dsimp only at h
  split_ifs at h
  obtain rfl := Option.some.inj h
  rfl

private theorem keeping_modelServiceResources (hworking : Working log name model) :
    r.Keeping name log (r.reconcileModelServiceResources ⟨model, name⟩
      (buildModelServiceResources ⟨model, name⟩)) := by
  refine keeping_bind (keeping_ownedLabels hworking
    (by simp [ownedKeys, buildModelServiceResources, labelled]))
    (fun _ log₁ hlog₁ => ?_)
  have hworking₁ := hworking.suffix hlog₁
  refine keeping_bind (keeping_ownedBody hworking₁
    (by simp [ownedKeys, buildModelServiceResources, labelled]))
    (fun _ log₂ hlog₂ => ?_)
  refine Follows.attemptThen (follows_ask (Allowed.get _ _)) (fun found log₃ hlog₃ htold => ?_)
  exact keeping_reconcileDeployment
    (hworking₁.suffix (hlog₂.trans hlog₃)) rfl rfl podMonitor_name htold

private theorem keeping_inferencePool (hworking : Working log name model)
    {pool : InferencePoolResources}
    (h : buildInferencePoolResources r.jsonToYAML ⟨model, name⟩ = .ok pool) :
    r.Keeping name log (reconcileInferencePoolResources ⟨model, name⟩ pool) := by
  unfold buildInferencePoolResources at h
  dsimp only at h
  split at h
  · cases h
  obtain rfl := Except.ok.inj h
  refine keeping_bind (keeping_extension hworking (.inl rfl) rfl) (fun _ log₁ hlog₁ => ?_)
  have hworking₁ := hworking.suffix hlog₁
  refine keeping_bind (keeping_ownedLabels hworking₁ (by simp [ownedKeys, labelled]))
    (fun _ log₂ hlog₂ => ?_)
  have hworking₂ := hworking₁.suffix hlog₂
  refine keeping_bind (keeping_ownedBody hworking₂ (by simp [ownedKeys, labelled]))
    (fun _ log₃ hlog₃ => ?_)
  have hworking₃ := hworking₂.suffix hlog₃
  refine keeping_bind (keeping_ownedBody hworking₃ (by simp [ownedKeys, labelled]))
    (fun _ log₄ hlog₄ => ?_)
  have hworking₄ := hworking₃.suffix hlog₄
  refine keeping_bind (keeping_ownedBody hworking₄ (by simp [ownedKeys, labelled]))
    (fun _ log₅ hlog₅ => ?_)
  have hworking₅ := hworking₄.suffix hlog₅
  refine keeping_bind (keeping_ownedBody hworking₅ (by simp [ownedKeys])) (fun _ log₆ hlog₆ => ?_)
  exact keeping_ownedBody (hworking₅.suffix hlog₆) (by simp [ownedKeys])

private theorem keeping_route {e : Endpoint}
    (hguarded : llmEnabled model.body.spec e = true → r.Guarded log name model e) :
    r.Keeping name log (applyRoute
      (if llmEnabled model.body.spec e then some (buildRoute ⟨model, name⟩ r.config e)
        else none)) := by
  split_ifs with henabled
  · exact keeping_orSkip
      (keeping_createOrUpdate allowed_reads
      (fun _ _ hlog h => .route ((hguarded henabled).suffix hlog) h))
  · exact keeping_pure ()

private theorem keeping_routes
    (hguarded : ∀ e, llmEnabled model.body.spec e = true → r.Guarded log name model e) :
    r.Keeping name log (reconcileRoutingResources (buildRoutingResources ⟨model, name⟩ r.config)) := by
  refine keeping_bind (keeping_route (e := .external) (hguarded .external)) (fun _ log' hlog => ?_)
  exact keeping_route (e := .internal) (fun henabled => (hguarded .internal henabled).suffix hlog)

end Serving

section Status

private theorem keeping_determinePhase : r.Keeping name log (determinePhase name) := by
  refine keeping_attempt (keeping_ask (.get _ _)) (fun res log' _ => ?_)
  cases res with
  | error e => trivial
  | ok deployment =>
    refine keeping_attempt (keeping_ask (.list _ _)) (fun res log'' _ => ?_)
    cases res with
    | error e => trivial
    | ok pods => trivial

private theorem keeping_updateStatus (phase : LLMModelPhase) :
    r.Keeping name log (r.updateStatus name phase) := by
  refine Follows.attemptThen (follows_ask (Allowed.get _ _)) (fun res log' _ htold => ?_)
  cases res with
  | error e =>
    change r.Keeping name log' (if e.reason = .notFound then pure () else throw e)
    split_ifs
    · trivial
    · trivial
  | ok fresh =>
    refine keeping_attempt (keeping_ask (.get _ _)) (fun deployment log'' hlog => ?_)
    exact keeping_bind (keeping_ask (.writeStatus (htold.suffix hlog) phase deployment))
      (fun _ _ _ => keeping_pure ())

end Status

section Reconcile

private theorem follows_compute {α β : Type} {result : Except StatusError α}
    {f : StatusError → StatusError} {next : α → Call β}
    {post : Except StatusError β → CallLog → Prop}
    (hok : ∀ value, result = .ok value →
      (logged (r.Allowed name)).Follows log (next value).run post)
    (herror : ∀ e, post (.error e) log) :
    (logged (r.Allowed name)).Follows log (compute (result.mapError f) >>= next).run post := by
  cases result with
  | ok value => exact hok value rfl
  | error e => exact herror (f e)

/-- What the end of a reconcile shows. -/
inductive Ended (r : LLMModelReconciler) (name : GoString) (log : CallLog) :
    Except StatusError Result → Prop where
  | failed (e : StatusError) : Ended r name log (.error e)
  | again (milliseconds : Nat) : Ended r name log (.ok (.requeueAfter milliseconds))
  | missing {e : StatusError} (hbegan : [⟨.get .llmModel name, .error e⟩] <:+ log)
      (hreason : e.reason = .notFound) : Ended r name log (.ok .done)
  | released {first : Object (Body .llmModel)} (hbegan : Began log name first)
      (hdeleting : first.metadata.deletionTimestamp = true) : Ended r name log (.ok .done)
  | finished {model : Object (Body .llmModel)} (hworking : Working log name model)
      (hpolicies : ∀ e, llmEnabled model.body.spec e = true →
        ∃ rendered, r.Rendered log name model e rendered ∧
        Applied log .securityPolicy (mergeAll rendered) rendered) : Ended r name log (.ok .done)

private theorem follows_reconcileDelete {first : Object (Body .llmModel)}
    (hbegan : Began log name first) (htimestamp : first.metadata.deletionTimestamp = true) :
    (logged (r.Allowed name)).Follows log (r.reconcileDelete ⟨first, name⟩).run
    (fun res log' => r.Ended name log' res) := by
  unfold reconcileDelete
  split_ifs with hfinalizer
  swap
  · exact .released hbegan htimestamp
  have hdeleting : Deleting log name first := ⟨hbegan, htimestamp, hfinalizer⟩
  refine Follows.andThen
    (follows_deleteIfFound allowed_reads
    (fun _ hlog => .deleteKeys (hdeleting.suffix hlog) (.inl rfl))) (fun _ log₁ hlog₁ hsecret => ?_)
    (fun e _ _ _ => .failed e)
  have hsecret := hsecret () rfl
  refine Follows.andThen (follows_deleteIfFound allowed_reads
    (fun _ hlog => .deleteKeys ((hdeleting.suffix hlog₁).suffix hlog) (.inr (.inl rfl))))
    (fun _ log₂ hlog₂ hconfigMap => ?_) (fun e _ _ _ => .failed e)
  have hconfigMap := hconfigMap () rfl
  have hgrant : r.Keeping name log₂ (r.deleteReferenceGrant name) := by
    unfold deleteReferenceGrant
    split_ifs
    · exact keeping_orSkip ((follows_deleteIfFound allowed_reads (fun _ hlog => .deleteKeys
        (hdeleting.suffix (hlog₁.trans (hlog₂.trans hlog))) (.inr (.inr rfl)))).mono
          (fun _ _ _ => trivial))
    · exact keeping_pure ()
  refine Follows.andThen hgrant (fun _ log₃ hlog₃ _ => ?_) (fun e _ _ _ => .failed e)
  have hlog := hlog₁.trans (hlog₂.trans hlog₃)
  refine Follows.andThen (keeping_orFail (keeping_ask (.removeFinalizer (hdeleting.suffix hlog)
    ((hsecret.suffix hlog₂).suffix hlog₃) (hconfigMap.suffix hlog₃)))) (fun _ log₄ hlog₄ _ => ?_)
    (fun e _ _ _ => .failed e)
  exact .released (hbegan.suffix (hlog.trans hlog₄)) htimestamp

private theorem follows_reconcilePhase (hworking : Working log name model) {pending : Bool}
    (hpolicies : r.Policies name model log pending) (phase : LLMModelPhase) :
    (logged (r.Allowed name)).Follows log (r.reconcilePhase ⟨model, name⟩ pending phase).run
      (fun res log' => r.Ended name log' res) := by
  unfold reconcilePhase
  split_ifs
  · exact Follows.andThen (keeping_orSkip (keeping_updateStatus phase)) (fun _ _ _ _ => .again _)
      (fun e _ _ _ => .failed e)
  have hguarded : ∀ e, llmEnabled model.body.spec e = true → r.Guarded log name model e := by
    intro e henabled
    obtain ⟨rendered, hrendered, happlied⟩ := hpolicies e henabled
    exact ⟨rendered, hrendered, happlied.imp_right And.right⟩
  refine follows_compute (fun pool hpool => ?_) (fun e => .failed e)
  refine Follows.andThen (keeping_inferencePool hworking hpool) (fun _ log₁ hlog₁ _ => ?_)
    (fun e _ _ _ => .failed e)
  refine Follows.andThen (keeping_routes (fun e henabled => (hguarded e henabled).suffix hlog₁))
    (fun _ log₂ hlog₂ _ => ?_) (fun e _ _ _ => .failed e)
  refine Follows.andThen (keeping_updateStatus phase) (fun _ log₃ hlog₃ _ => ?_)
    (fun e _ _ _ => .failed e)
  have hlog := hlog₁.trans (hlog₂.trans hlog₃)
  change r.Ended name log₃ (.ok (if pending then .requeueAfter gatewayCRDRequeue else .done))
  split_ifs with hpending
  · exact .again _
  · refine .finished (hworking.suffix hlog) (fun e henabled => ?_)
    obtain ⟨rendered, hrendered, happlied | ⟨hpending', _⟩⟩ := hpolicies e henabled
    · exact ⟨rendered, hrendered.suffix hlog, happlied.suffix hlog⟩
    · exact absurd hpending' hpending

private theorem Policies.suffix {pending : Bool} (h : r.Policies name model log pending)
    (hlog : log <:+ log') :
    r.Policies name model log' pending := by
  intro e henabled
  obtain ⟨rendered, hrendered, happlied⟩ := h e henabled
  exact ⟨rendered, hrendered.suffix hlog,
    happlied.imp (·.suffix hlog) (And.imp_right (·.suffix hlog))⟩

/-- The claim is looked at and written before any Secret is read. -/
theorem follows_storage (hworking : Working log name model) (hunread : Unread log name)
    {storage : StorageResult} (h : buildStorageSpec r.parseQuantity ⟨model, name⟩ = .ok storage) :
    (logged (r.Allowed name)).Follows log (reconcileStorage ⟨model, name⟩ storage).run
      (fun _ log' => Unread log' name) := by
  have huses : (reconcileStorage ⟨model, name⟩ storage).run.Uses
      (fun q => q.kind = .persistentVolumeClaim) := by
    unfold reconcileStorage
    split
    · exact (uses_createOrUpdate _ _ _).bind (fun _ => trivial)
    · trivial
  refine ((keeping_storage hworking h).uses huses).mono
    (fun _ log' hlog' => ⟨fun b hmem => ?_, fun b hmem => ?_⟩)
  · rcases hlog'.2 _ hmem with hold | hkind
    · exact hunread.1 b hold
    · cases hkind
  · rcases hlog'.2 _ hmem with hold | hkind
    · exact hunread.2 b hold
    · cases hkind

private theorem follows_reconcileModel (hworking : Working log name model)
    (hunread : Unread log name) :
    (logged (r.Allowed name)).Follows log (r.reconcileModel ⟨model, name⟩).run
    (fun res log' => r.Ended name log' res) := by
  refine follows_compute (fun storage hstorage => ?_) (fun e => .failed e)
  refine Follows.andThen (follows_storage hworking hunread hstorage)
    (fun _ log₁ hlog₁ hunread₁ => ?_)
    (fun e _ _ _ => .failed e)
  have hworking₁ := hworking.suffix hlog₁
  refine Follows.andThen (follows_reconcileAuth hworking₁ hunread₁)
    (fun pending log₂ hlog₂ hpolicies => ?_)
    (fun e _ _ _ => .failed e)
  have hpolicies := hpolicies pending rfl
  have hworking₂ := hworking₁.suffix hlog₂
  refine Follows.andThen
    (keeping_ownedBody hworking₂ (by simp [ownedKeys, buildNetworkPolicy, labelled]))
    (fun _ log₃ hlog₃ _ => ?_) (fun e _ _ _ => .failed e)
  have hworking₃ := hworking₂.suffix hlog₃
  refine Follows.andThen (keeping_modelServiceResources hworking₃) (fun _ log₄ hlog₄ _ => ?_)
    (fun e _ _ _ => .failed e)
  refine Follows.andThen keeping_determinePhase (fun phase log₅ hlog₅ _ => ?_)
    (fun e _ _ _ => .failed e)
  have hlog := hlog₄.trans hlog₅
  exact follows_reconcilePhase (hworking₃.suffix hlog) (hpolicies.suffix (hlog₃.trans hlog)) phase

private theorem follows_reconcilePending {first : Object (Body .llmModel)}
    (htimestamp : first.metadata.deletionTimestamp = false)
    (hfinalizer : containsFinalizer first = true) :
    (logged (r.Allowed name)).Follows [⟨.get .llmModel name, .ok first⟩]
    (r.reconcilePending ⟨first, name⟩).run
      (fun res log' => r.Ended name log' res) := by
  have hlive : Live [⟨.get .llmModel name, .ok first⟩] name first :=
    ⟨List.suffix_refl _, htimestamp, hfinalizer⟩
  unfold reconcilePending
  split_ifs with hphase
  · refine Follows.attemptThen
      (follows_askFirst (Allowed.setPending hlive) (by rintro b (_ | ⟨_, ⟨⟩⟩))) ?_
    rintro res log' hlog ⟨rfl, htold⟩
    cases res with
    | ok stored =>
      refine follows_reconcileModel ⟨first, hlive.suffix hlog, .inr ⟨hphase, htold⟩⟩ ⟨fun b => ?_,
        fun b => ?_⟩
      · rintro (_ | ⟨_, _ | ⟨_, ⟨⟩⟩⟩)
      · rintro (_ | ⟨_, _ | ⟨_, ⟨⟩⟩⟩)
    | error e => exact .again _
  · refine follows_reconcileModel ⟨first, hlive, .inl ⟨hphase, rfl⟩⟩ ⟨fun b => ?_, fun b => ?_⟩
    · rintro (_ | ⟨_, ⟨⟩⟩)
    · rintro (_ | ⟨_, ⟨⟩⟩)

/-- A reconcile asks only what is allowed, and ends as it must. -/
theorem follows_reconcile :
    (logged (r.Allowed name)).Follows [] (r.reconcile name).run
    (fun res log => r.Ended name log res) := by
  refine ⟨.get _ _, fun res => ?_⟩
  cases res with
  | error e =>
    change (logged (r.Allowed name)).Follows _
      (ExceptT.run (if e.reason = .notFound then pure Result.done else throw e)) _
    split_ifs with hreason
    · exact .missing (List.suffix_refl _) hreason
    · exact .failed e
  | ok first =>
    have hbegan : Began [⟨.get .llmModel name, .ok first⟩] name first := List.suffix_refl _
    change (logged (r.Allowed name)).Follows _ (r.reconcileFound ⟨first, name⟩).run _
    unfold reconcileFound
    split_ifs with htimestamp hfinalizer
    · exact follows_reconcileDelete hbegan htimestamp
    · exact follows_reconcilePending (Bool.not_eq_true _ ▸ htimestamp) hfinalizer
    · exact Follows.andThen
        (keeping_orFail (keeping_ask (.addFinalizer hbegan (Bool.not_eq_true _ ▸ htimestamp))))
        (fun _ _ _ _ => .again _) (fun e _ _ _ => .failed e)

end Reconcile

end LLMModelReconciler

end controller
