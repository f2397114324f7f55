import ServingPack.Operator.Controller.Conditions
import ServingPack.Operator.Reconcilers.Routing
import ServingPack.Operator.Reconcilers.Serving

open golang apiserver concurrency kube v1alpha1 config reconcilers

namespace controller

def modelConfigHashAnno : GoString := "llm.nebari.dev/model-config-hash"

/-- `LLMModelReconciler`, for the models of one namespace. -/
structure LLMModelReconciler where
  config : OperatorConfig
  «namespace» : GoString
  sha256 : GoString → List UInt8
  parseQuantity : GoString → Except StatusError Unit
  jsonToYAML : GoString → Except StatusError GoString

/-- A step of a reconcile that only computes. -/
def compute {α : Type} (result : Except StatusError α) : Call α := ExceptT.mk (.pure result)

def setOwnerReference {B : Type} (model : Named LLMModel) (object : Named B) : Named B :=
  setControllerReference "LLMModel" model object

/-- The policies applied so far: whether one waits for its kind, and what failed. -/
structure PolicyOutcome where
  pending : Bool := false
  err : Option StatusError := none

def PolicyOutcome.record (outcome : PolicyOutcome) (name : GoString) :
    Except StatusError Unit → PolicyOutcome
  | .ok _ => outcome
  | .error e =>
    if e.reason = .noMatch then { outcome with pending := true }
    else { outcome with err := some (joinErrors outcome.err
      (e.wrap (("reconciling SecurityPolicy " : GoString) ++ name))) }

/-- One pass of the loop over the policies. -/
def applyPolicy (outcome : PolicyOutcome) : Option (Named SecurityPolicySpec) → Call PolicyOutcome
  | none => pure outcome
  | some policy => do
    let applied ← Fallible.attempt (applyModelResourcePreservingFinalizers .securityPolicy policy)
    pure (outcome.record policy.name applied)

def PolicyOutcome.condition (outcome : PolicyOutcome) (generation : Nat) : Condition :=
  match outcome.err with
  | some e =>
    { type := condSecurityPoliciesReady, status := .false, reason := reasonApplyFailed,
      message := e.message,
      observedGeneration := generation }
  | none =>
    if outcome.pending then
      { type := condSecurityPoliciesReady, status := .false, reason := reasonGatewayCRDUnavailable,
        message := "SecurityPolicy CRD is not installed; waiting to apply endpoint authentication",
        observedGeneration := generation }
    else
      { type := condSecurityPoliciesReady, status := .true, reason := "Applied",
        message := "enabled endpoint security policies applied", observedGeneration := generation }

/-- What `reconcileSecurityPolicies` returns once it has written the condition. -/
def PolicyOutcome.finish (outcome : PolicyOutcome) (statusErr : Option StatusError) : Call Bool :=
  match statusErr, outcome.err with
  | some e, err => throw (joinErrors err e)
  | none, some e => throw e
  | none, none => pure outcome.pending

namespace LLMModelReconciler

variable (r : LLMModelReconciler)

section Storage

def reconcileStorage (model : Named LLMModel) (storage : StorageResult) : Call Unit :=
  match storage.pvc with
  | some pvc => orFail "reconciling PVC"
      (createOrUpdateLabels .persistentVolumeClaim (setOwnerReference model pvc))
  | none => pure ()

end Storage

section Auth

/-- The Secret and the ConfigMap hold issued keys; the operator writes labels only. -/
def reconcileAuthSecretAndConfigMap (auth : AuthResources) : Call Unit := do
  orFail "reconciling api key secret" (createOrUpdateLabels .secret auth.apiKeySecret)
  orFail "reconciling api key metadata configmap"
    (createOrUpdateLabels .configMap auth.apiKeyMetadataCM)

/-- The patch of the status, made from the version that was read. -/
def patchCondition (name : GoString) (fresh : Object (Body .llmModel)) (condition : Condition) :
    Call (Option StatusError) :=
  if statusConditionChanges fresh.body.status.conditions condition then do
    match ← Fallible.attempt (updateStatus .llmModel name { fresh with
        body.status.conditions := setStatusCondition fresh.body.status.conditions condition }) with
    | .ok _ => pure none
    | .error e => pure (some e)
  else pure none

def reportPolicies (model : Named LLMModel) (outcome : PolicyOutcome) : Call Bool := do
  match ← Fallible.attempt (get .llmModel model.name) with
  | .error statusErr => outcome.finish (some statusErr)
  | .ok fresh => do
    let statusErr ← patchCondition model.name fresh (outcome.condition model.metadata.generation)
    outcome.finish statusErr

/-- Whether a policy is pending because its kind is not installed. -/
def reconcileSecurityPolicies (model : Named LLMModel) (auth : AuthResources) : Call Bool := do
  let outcome ← applyPolicy {} auth.externalSecurityPolicy
  let outcome ← applyPolicy outcome auth.internalSecurityPolicy
  reportPolicies model outcome

def reconcileAuth (model : Named LLMModel) : Call Bool := do
  let clientIDs ← orFail "reading api key client ids" (apiKeyClientIDs model.name)
  let credentialSecretNames ← orFail "listing api key secrets"
    (apiKeySecretNamesWith (apiKeySecretName model.name))
  let authResources := buildAuthResources model r.config clientIDs credentialSecretNames
  reconcileAuthSecretAndConfigMap authResources
  reconcileSecurityPolicies model authResources

end Auth

section Serving

/-- An 8-byte hash of what a running Deployment cannot take over. -/
def modelConfigHash (model : Named LLMModel) : GoString :=
  let spec := model.body.spec.model
  hexEncode ((r.sha256 (model.name ++ spec.source ++ spec.storage.type ++ spec.image ++
    spec.revision ++ spec.name)).take 8)

/-- The new spec and hash of a Deployment that exists; its status is not the operator's. -/
def mergeDeployment (hash : GoString) (desired : Named DeploymentBody)
    (existing : Object DeploymentBody) :
    Object DeploymentBody :=
  { existing with
    metadata.annotations := existing.metadata.annotations.insert modelConfigHashAnno hash
    body.replicas := desired.body.replicas }

/-- Whether a Deployment runs a configuration it cannot take over from. -/
def staleDeployment (hash : GoString) (existing : Object (Body .deployment)) : Bool :=
  let existingHash := (existing.metadata.annotations.lookup modelConfigHashAnno).getD []
  existingHash ≠ [] ∧ existingHash ≠ hash

/-- Updates a Deployment that exists, or deletes it for the next reconcile to
create it again. -/
def updateDeployment (hash : GoString) (desired : Named DeploymentBody)
    (existing : Object (Body .deployment)) :
    Call Unit :=
  if staleDeployment hash existing then
    orFail "deleting stale Deployment" (deleteFound .deployment desired.name {})
  else do
    let _ ← orFail "updating Deployment"
      (update .deployment desired.name (mergeDeployment hash desired existing))
    pure ()

def createDeployment (desired : Named DeploymentBody) : Call Unit := do
  match ← Fallible.attempt (create .deployment desired.name desired.toObject) with
  | .ok _ => pure ()
  | .error e => if e.reason = .alreadyExists then pure () else throw (wrapped "creating Deployment" e)

def reconcilePodMonitor : Option (Named Unit) → Call Unit
  | some podMonitor => orSkip (applyModelResourcePreservingFinalizers .podMonitor podMonitor)
  | none => pure ()

/-- Where the Deployment was only deleted, nothing else is applied. -/
def reconcileDeployment (hash : GoString) (desired : Named DeploymentBody)
    (podMonitor : Option (Named Unit)) :
    Except StatusError (Object (Body .deployment)) → Call Unit
  | .ok existing => do
    updateDeployment hash desired existing
    if staleDeployment hash existing then pure () else reconcilePodMonitor podMonitor
  | .error e =>
    if e.reason = .notFound then do
      createDeployment desired
      reconcilePodMonitor podMonitor
    else throw (wrapped "getting existing Deployment" e)

def reconcileModelServiceResources (model : Named LLMModel) (resources : ModelServiceResources) :
    Call Unit := do
  orFail "reconciling ServiceAccount"
    (createOrUpdateLabels .serviceAccount (setOwnerReference model resources.serviceAccount))
  orFail "reconciling Service"
    (createOrUpdateBody .service (setOwnerReference model resources.service))
  let hash := r.modelConfigHash model
  let deployment := setOwnerReference model resources.deployment
  let desired : Named DeploymentBody := { deployment with
    metadata.annotations := deployment.metadata.annotations.insert modelConfigHashAnno hash }
  reconcileDeployment hash desired resources.podMonitor
    (← Fallible.attempt (get .deployment desired.name))

def reconcileInferencePoolResources (model : Named LLMModel) (pool : InferencePoolResources) :
    Call Unit := do
  orSkip (applyModelResourcePreservingFinalizers .inferencePool pool.inferencePool)
  orFail "reconciling EPP ServiceAccount"
    (createOrUpdateLabels .serviceAccount (setOwnerReference model pool.eppServiceAccount))
  orFail "reconciling EPP Role" (createOrUpdateBody .role (setOwnerReference model pool.eppRole))
  orFail "reconciling EPP RoleBinding"
    (createOrUpdateBody .roleBinding (setOwnerReference model pool.eppRoleBinding))
  orFail "reconciling EPP Service"
    (createOrUpdateBody .service (setOwnerReference model pool.eppService))
  orFail "reconciling EPP ConfigMap"
    (createOrUpdateBody .configMap (setOwnerReference model pool.eppConfigMap))
  orFail "reconciling EPP Deployment"
    (createOrUpdateBody .deployment (setOwnerReference model pool.eppDeployment))

/-- A route that could not be written is logged and skipped. -/
def applyRoute : Option (Named AIGatewayRouteSpec) → Call Unit
  | some route => orSkip (applyModelResourcePreservingFinalizers .aiGatewayRoute route)
  | none => pure ()

def reconcileRoutingResources (routing : RoutingResources) : Call Unit := do
  applyRoute routing.externalRoute
  applyRoute routing.internalRoute

end Serving

section Status

/-- The phase a Deployment and the model's pods show. -/
def phaseOf (deployment : Object (Body .deployment)) (pods : List (GoString × Object (Body .pod))) :
    LLMModelPhase :=
  if pods.any (fun pod => pod.2.body.initContainerRunning.any id) then .downloading
  else if deployment.body.readyReplicas = 0 then .starting
  else if deployment.body.replicas.getD 1 ≤ deployment.body.readyReplicas then .ready
  else .degraded

def determinePhase (modelName : GoString) : Call LLMModelPhase := do
  match ← Fallible.attempt (get .deployment modelName) with
  | .error e => pure (if e.reason = .notFound then .pending else .error)
  | .ok deployment => do
    match ← Fallible.attempt (list .pod (GoMap.ofList [(instanceLabel, modelName)])) with
    | .error _ => pure .error
    | .ok pods => pure (phaseOf deployment pods)

def replicaStatus (current : ReplicaStatus) : Except StatusError (Object (Body .deployment)) → ReplicaStatus
  | .ok deployment => { ready := deployment.body.readyReplicas, desired := deployment.body.replicas.getD 1 }
  | .error _ => current

/-- The endpoint URLs: those of the configured Gateways, over what is there. -/
def endpointStatus (current : EndpointStatus) : EndpointStatus where
  external := if r.config.externalGatewayName = [] then current.external
    else ("https://" : GoString) ++ sharedExternalHostname r.config.baseDomain
  internal := if r.config.internalGatewayName = [] then current.internal
    else ("https://" : GoString) ++ sharedInternalHostname r.config.baseDomain

def freshStatus (phase : LLMModelPhase) (fresh : Object (Body .llmModel))
    (deployment : Except StatusError (Object (Body .deployment))) : LLMModelStatus :=
  { fresh.body.status with
    phase := phase
    observedGeneration := fresh.metadata.generation
    replicas := replicaStatus fresh.body.status.replicas deployment
    endpoints := r.endpointStatus fresh.body.status.endpoints }

/-- The write of `updateStatus`, over a fresh copy of the model. -/
def writeStatus (modelName : GoString) (phase : LLMModelPhase) :
    Except StatusError (Object (Body .llmModel)) → Call Unit
  | .error e => ignoreNotFound () e
  | .ok fresh => do
    let deployment ← Fallible.attempt (get .deployment modelName)
    let _ ← controller.updateStatus .llmModel modelName
      { fresh with body.status := r.freshStatus phase fresh deployment }
    pure ()

def updateStatus (modelName : GoString) (phase : LLMModelPhase) : Call Unit := do
  r.writeStatus modelName phase (← Fallible.attempt (get .llmModel modelName))

end Status

section Reconcile

/-- Legacy cleanup in the namespace API keys used to be in. -/
def deleteReferenceGrant (modelName : GoString) : Call Unit :=
  if r.config.apiKeysNamespace ≠ [] ∧ r.config.apiKeysNamespace ≠ r.namespace then
    orSkip (deleteIfFound .referenceGrant
      (modelName ++ ("-" : GoString) ++ r.namespace ++ ("-ref-grant" : GoString)) [])
  else pure ()

def reconcileDelete (model : Named LLMModel) : Call Result :=
  if containsFinalizer model.toObject then do
    deleteIfFound .secret (apiKeySecretName model.name) "deleting api key secret"
    deleteIfFound .configMap
      (apiKeyMetadataConfigMapName model.name) "deleting api key metadata configmap"
    r.deleteReferenceGrant model.name
    let _ ← orFail "removing finalizer"
      (update .llmModel model.name (removeFinalizer model.toObject))
    pure .done
  else pure .done

/-- What follows once the model is, or will be, serving. -/
def reconcileServing (model : Named LLMModel) (phase : LLMModelPhase) (authPending : Bool) :
    Call Result := do
  let poolResources ← compute ((buildInferencePoolResources r.jsonToYAML model).mapError
    (·.wrap "building inference pool resources"))
  reconcileInferencePoolResources model poolResources
  reconcileRoutingResources (buildRoutingResources model r.config)
  r.updateStatus model.name phase
  pure (if authPending then .requeueAfter gatewayCRDRequeue else .done)

def reconcilePhase (model : Named LLMModel) (authPending : Bool) (phase : LLMModelPhase) :
    Call Result :=
  if phase = .downloading ∨ phase = .starting then do
    orSkip (r.updateStatus model.name phase)
    pure (.requeueAfter 15000)
  else r.reconcileServing model phase authPending

/-- The steps on a model that has its finalizer and a phase. -/
def reconcileModel (model : Named LLMModel) : Call Result := do
  let storage ← compute
    ((buildStorageSpec r.parseQuantity model).mapError (·.wrap "building storage spec"))
  reconcileStorage model storage
  let authPending ← r.reconcileAuth model
  orFail "reconciling NetworkPolicy"
    (createOrUpdateBody .networkPolicy (setOwnerReference model (buildNetworkPolicy model)))
  r.reconcileModelServiceResources model (buildModelServiceResources model)
  r.reconcilePhase model authPending (← determinePhase model.name)

/-- The first reconcile with the finalizer also sets the phase. -/
def reconcilePending (model : Named LLMModel) : Call Result :=
  if model.body.status.phase = .unset then do
    match ← Fallible.attempt (controller.updateStatus .llmModel model.name
        { model.toObject with body.status.phase := .pending }) with
    | .error _ => pure (.requeueAfter 100)
    | .ok stored => r.reconcileModel ⟨stored, model.name⟩
  else r.reconcileModel model

def reconcileFound (model : Named LLMModel) : Call Result :=
  if model.metadata.deletionTimestamp then r.reconcileDelete model
  else if containsFinalizer model.toObject then r.reconcilePending model
  else do
    let _ ← orFail "adding finalizer" (update .llmModel model.name (addFinalizer model.toObject))
    pure (.requeueAfter 100)

def reconcile (name : GoString) : Call Result := do
  match ← Fallible.attempt (get .llmModel name) with
  | .error e => ignoreNotFound .done e
  | .ok model => r.reconcileFound ⟨model, name⟩

end Reconcile

end LLMModelReconciler

end controller
