import ServingPack.Operator.Controller.Conditions
import ServingPack.Operator.Reconcilers.Passthrough

open golang apiserver concurrency kube v1alpha1 config reconcilers

namespace controller

def condUpstreamCredentialResolved : GoString := "UpstreamCredentialResolved"
def condBackendConfigured : GoString := "BackendConfigured"

def condEndpointReady : Endpoint → GoString
  | .external => "ExternalEndpointReady"
  | .internal => "InternalEndpointReady"

def upstreamCredentialAPIKey : GoString := "apiKey"

/-- `PassthroughModelReconciler`, for the models of one namespace. -/
structure PassthroughModelReconciler where
  config : OperatorConfig
  resolve : ProviderSpec → Except StatusError provider.Resolved

/-- The objects a reconcile applies, of any kind. -/
abbrev AppliedObject := Σ kind : Kind, Named (Body kind)

section Credentials

def newUpstreamCredentialCondition (status : ConditionStatus) (reason message : GoString) :
    Condition where
  type := condUpstreamCredentialResolved
  status := status
  reason := reason
  message := message

/-- What a look at the provider's Secret shows. -/
def credentialCondition (secretName : GoString) : Except StatusError (Object SecretBody) → Condition
  | .error e =>
    if e.reason = .notFound then
      newUpstreamCredentialCondition .false "SecretNotFound"
        (("spec.provider.credentialSecretName " : GoString) ++ quote secretName ++
          (" was not found" : GoString))
    else
      newUpstreamCredentialCondition .unknown "LookupFailed"
        (("failed to read spec.provider.credentialSecretName " : GoString) ++ quote secretName ++
          (": " : GoString) ++
          e.message)
  | .ok secret =>
    if (secret.body.data.lookup upstreamCredentialAPIKey).getD [] = [] then
      newUpstreamCredentialCondition .false "APIKeyMissing"
        (("Secret " : GoString) ++ quote secretName ++ (" has no non-empty " : GoString) ++
          quote upstreamCredentialAPIKey ++ (" entry" : GoString))
    else
      newUpstreamCredentialCondition .true "Resolved"
        (("Secret " : GoString) ++ quote secretName ++ (" has a non-empty " : GoString) ++
          quote upstreamCredentialAPIKey ++ (" entry" : GoString))

def resolveUpstreamCredential (pm : Named PassthroughModel) : Call Condition := do
  let secretName := pm.body.spec.provider.credentialSecretName
  pure (credentialCondition secretName (← Fallible.attempt (get .secret secretName)))

/-- The probe of the credential, where the provider uses one. -/
def credentialConditions (pm : Named PassthroughModel) : Call (List Condition) :=
  if provider.usesCredentialSecret pm.body.spec.provider then do
    pure [← resolveUpstreamCredential pm]
  else pure []

end Credentials

section Endpoints

/-- Removes an object the provider controls. Whether its removal is pending. -/
def removeControlledObject (pm : Named PassthroughModel) (kind : Kind) (kindName name : GoString) :
    Call Bool := do
  match ← Fallible.attempt (get kind name) with
  | .error e => if e.reason = .notFound ∨ e.reason = .noMatch then pure false else throw e
  | .ok object =>
    if isControlledBy object pm then
      if object.metadata.deletionTimestamp then pure true
      else do
        deleteFound kind name { uid := some object.metadata.uid, resourceVersion := some object.metadata.resourceVersion }
        pure true
    else throw (errorf (("refusing to remove " : GoString) ++ kindName ++ (" " : GoString) ++
      name ++
      (" owned outside this provider" : GoString)))

/-- Removes the policy once the route the gateway generated is gone. -/
def removePolicy (pm : Named PassthroughModel) (e : Endpoint) : Call Bool := do
  match ← Fallible.attempt (get .httpRoute (modelRouteName pm.name e)) with
  | .ok _ => pure true
  | .error err =>
    if err.reason = .notFound ∨ err.reason = .noMatch then
      removeControlledObject pm .securityPolicy "SecurityPolicy" (modelAuthPolicyName pm.name e)
    else throw err

/-- Removes the route, and the policy that guards it last. -/
def removeEndpoint (pm : Named PassthroughModel) (e : Endpoint) : Call Bool := do
  let pending ← removeControlledObject pm .aiGatewayRoute "AIGatewayRoute"
    (modelRouteName pm.name e)
  if pending then pure true else removePolicy pm e

end Endpoints

/-- Applies all objects; the first error is returned once all were attempted. -/
def applyAll (owner : Named PassthroughModel) :
    Option StatusError → List AppliedObject → Call (Option StatusError)
  | firstErr, [] => pure firstErr
  | firstErr, object :: rest => do
    match ← Fallible.attempt (applyModelResourcePreservingFinalizers object.1
        (setControllerReference "PassthroughModel" owner object.2)) with
    | .ok _ => applyAll owner firstErr rest
    | .error e => applyAll owner (firstErr.or (some e)) rest

/-- One endpoint: applied where its route is rendered, and removed where not.
Its condition, and whether its removal is pending. -/
def reconcileEndpoint (pm : Named PassthroughModel) (e : Endpoint) (okMessage : GoString)
    (policy : Option (Named SecurityPolicySpec)) :
    Option (Named AIGatewayRouteSpec) → Call (Condition × Bool)
  | some route => do
    let err ← applyAll pm none
      (⟨.aiGatewayRoute, route⟩ :: policy.toList.map (⟨.securityPolicy, ·⟩))
    pure (conditionFor (condEndpointReady e) err okMessage, false)
  | none => do
    match ← Fallible.attempt (removeEndpoint pm e) with
    | .ok pending => pure (disabledCondition (condEndpointReady e), pending)
    | .error err => pure (conditionFor (condEndpointReady e) (some err) [], false)

namespace PassthroughModelReconciler

variable (r : PassthroughModelReconciler)

section Status

/-- The conditions over those that are there. A provider without a Secret has no
result of its probe. -/
def setConditions (current : List Condition) (generation : Nat) (conditions : List Condition) :
    List Condition :=
  let kept := if (findStatusCondition conditions condUpstreamCredentialResolved).isNone then
    removeStatusCondition current condUpstreamCredentialResolved else current
  conditions.foldl (fun cs c => setStatusCondition cs { c with observedGeneration := generation })
    kept

def endpointURL (spec : PassthroughModelSpec) (e : Endpoint) (hostname : GoString) : GoString :=
  if passthroughEnabled spec e then ("https://" : GoString) ++ hostname else []

def freshStatus (fresh : Object (Body .passthroughModel)) (phase : PassthroughModelPhase)
    (providerHostname : GoString) (conditions : List Condition) : PassthroughModelStatus where
  phase := phase
  conditions := setConditions fresh.body.status.conditions fresh.metadata.generation conditions
  observedGeneration := fresh.metadata.generation
  endpoints :=
    { external := endpointURL fresh.body.spec .external (sharedExternalHostname r.config.baseDomain)
      internal := endpointURL fresh.body.spec .internal
        (sharedInternalHostname r.config.baseDomain) }
  providerHostname := providerHostname

def updateStatus (name : GoString) (phase : PassthroughModelPhase) (providerHostname : GoString)
    (conditions : List Condition) : Call Unit := do
  match ← Fallible.attempt (get .passthroughModel name) with
  | .error e => ignoreNotFound () e
  | .ok fresh => do
    let _ ← controller.updateStatus .passthroughModel name
      { fresh with body.status := r.freshStatus fresh phase providerHostname conditions }
    pure ()

/-- A condition says that something could not be applied. -/
def failed (c : Condition) : Bool :=
  c.status == .false && (c.reason == reasonApplyFailed || c.reason == reasonGatewayCRDUnavailable)

/-- A condition waits for a kind of the gateway. -/
def waits (c : Condition) : Bool := c.status == .false && c.reason == reasonGatewayCRDUnavailable

def phaseOf (conditions : List Condition) : PassthroughModelPhase :=
  if conditions.any failed then .error else .ready

/-- When to look again, from the conditions and the removals that are pending. -/
def requeue (conditions : List Condition) (cleanupPending : Bool) : Result :=
  if conditions.any waits then .requeueAfter gatewayCRDRequeue
  else if phaseOf conditions = .error then .requeueAfter 60000
  else if cleanupPending then .requeueAfter 15000
  else if (findStatusCondition conditions condUpstreamCredentialResolved).any (·.status == .unknown)
    then
    .requeueAfter 60000
  else .done

end Status

section Reconcile

/-- The API keys first, then what the gateway serves; its failures only show in
the conditions. -/
def reconcileResources (pm : Named PassthroughModel) (resources : PassthroughResources)
    (conditions : List Condition) :
    Call Result := do
  orFail "reconciling api key secret" (createOrUpdateLabels .secret resources.apiKeySecret)
  orFail "reconciling api key metadata configmap"
    (createOrUpdateLabels .configMap resources.apiKeyMetadataCM)
  let backendErr ← applyAll pm none [⟨.backend, resources.backend⟩,
    ⟨.backendTLSPolicy, resources.backendTLSPolicy⟩,
    ⟨.aiServiceBackend, resources.aiServiceBackend⟩,
      ⟨.backendSecurityPolicy, resources.backendSecurityPolicy⟩]
  let external ← reconcileEndpoint pm .external "external route and apiKeyAuth policy applied"
    resources.externalSecurityPolicy resources.externalRoute
  let internal ← reconcileEndpoint pm .internal "internal route and JWT policy applied"
    resources.internalSecurityPolicy resources.internalRoute
  let conditions := conditions ++
    [conditionFor condBackendConfigured backendErr "provider backend resources applied", external.1,
      internal.1]
  r.updateStatus pm.name (phaseOf conditions) resources.providerHostname conditions
  pure (requeue conditions (external.2 || internal.2))

def buildFailed (e : StatusError) : Condition where
  type := condBackendConfigured
  status := .false
  reason := "BuildFailed"
  message := e.message

/-- The steps on a model that has its finalizer. -/
def reconcileModel (pm : Named PassthroughModel) : Call Result := do
  let conditions ← credentialConditions pm
  let clientIDs ← orFail "reading api key client ids" (apiKeyClientIDs pm.name)
  let credentialSecretNames ← orFail "listing api key secrets"
    (apiKeySecretNamesWith (apiKeySecretName pm.name))
  match buildPassthroughResources r.resolve pm r.config clientIDs credentialSecretNames with
  | .error e => do
    orSkip (r.updateStatus pm.name .error [] (conditions ++ [buildFailed e]))
    throw (wrapped "building passthrough resources" e)
  | .ok resources => r.reconcileResources pm resources conditions

def reconcileDelete (pm : Named PassthroughModel) : Call Result :=
  if containsFinalizer pm.toObject then do
    deleteIfFound .secret (apiKeySecretName pm.name) "deleting api key secret"
    deleteIfFound .configMap
      (apiKeyMetadataConfigMapName pm.name) "deleting api key metadata configmap"
    let _ ← orFail "removing finalizer"
      (update .passthroughModel pm.name (removeFinalizer pm.toObject))
    pure .done
  else pure .done

def reconcileFound (pm : Named PassthroughModel) : Call Result :=
  if pm.metadata.deletionTimestamp then reconcileDelete pm
  else if containsFinalizer pm.toObject then r.reconcileModel pm
  else do
    let stored ← orFail "adding finalizer"
      (update .passthroughModel pm.name (addFinalizer pm.toObject))
    r.reconcileModel ⟨stored, pm.name⟩

def reconcile (name : GoString) : Call Result := do
  match ← Fallible.attempt (get .passthroughModel name) with
  | .error e => ignoreNotFound .done e
  | .ok pm => r.reconcileFound ⟨pm, name⟩

end Reconcile

end PassthroughModelReconciler

end controller
