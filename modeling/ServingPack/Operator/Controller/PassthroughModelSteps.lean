import ServingPack.Operator.Controller.PassthroughModel
import ServingPack.Operator.Controller.Keeping

open golang apiserver concurrency kube v1alpha1 config reconcilers

namespace controller

/-- A reconcile was told that there is no such object, or that its kind is not installed. -/
def Missed (log : CallLog) (kind : Kind) (name : GoString) : Prop :=
  ∃ e : StatusError, (e.reason = .notFound ∨ e.reason = .noMatch) ∧
    Told log (.get kind name) (.error e)

namespace PassthroughModelReconciler

/-- The model a reconcile works on: the one it began with, or, where that had no
finalizer, the one it was answered when it added it. -/
def Working (log : CallLog) (name : GoString) (pm : Object (Body .passthroughModel)) : Prop :=
  ∃ first, Began log name first ∧ first.metadata.deletionTimestamp = false ∧
    ((containsFinalizer first = true ∧ pm = first) ∨ (containsFinalizer first = false ∧
      FirstTold log (.update .passthroughModel name (addFinalizer first)) (.ok pm)))

/-- The reconcile has seen the route go, and after it the route the gateway generated. -/
def Cleared (log : CallLog) (name : GoString) (e : Endpoint) : Prop :=
  ∃ (earlier : CallLog) (err : StatusError), (err.reason = .notFound ∨ err.reason = .noMatch) ∧
    (⟨.get .httpRoute (modelRouteName name e), .error err⟩ :: earlier) <:+ log ∧
    Missed earlier .aiGatewayRoute (modelRouteName name e)

def keySecret (name : GoString) (pm : Object (Body .passthroughModel)) : Named SecretBody :=
  buildAPIKeySecret name ((passthroughStandardLabels ⟨pm, name⟩).insert modelNameLabel name)

def keyMetadata (name : GoString) (pm : Object (Body .passthroughModel)) : Named ConfigMapBody :=
  buildAPIKeyMetadataConfigMap name
    ((passthroughStandardLabels ⟨pm, name⟩).insert modelNameLabel name)

/-- An object as a reconcile applies it: owned by the model. -/
def owned {B : Type} (name : GoString) (pm : Object (Body .passthroughModel)) (desired : Named B) :
    Named B :=
  setControllerReference "PassthroughModel" (Named.mk pm name) desired

/-- The policy of an endpoint. -/
def policy (cfg : OperatorConfig) (pm : Named PassthroughModel)
    (clientIDs credentialSecretNames : List GoString) :
    Endpoint → Named SecurityPolicySpec
  | .external => buildPassthroughExternalPolicy pm clientIDs credentialSecretNames
  | .internal => buildPassthroughInternalPolicy pm cfg

/-- The kinds a provider's upstream is described in. -/
def backendKinds : List Kind :=
  [.backend, .backendTLSPolicy, .aiServiceBackend, .backendSecurityPolicy]

variable (r : PassthroughModelReconciler)

/-- What a reconcile asks, from what it was told. -/
inductive Allowed (name : GoString) (log : CallLog) : Request Body → Prop where
  | get (kind : Kind) (name' : GoString) : Allowed name log (.get kind name')
  | list (kind : Kind) (matching : GoMap GoString) : Allowed name log (.list kind matching)
  | addFinalizer {first : Object (Body .passthroughModel)} (hbegan : Began log name first)
      (hlive : first.metadata.deletionTimestamp = false) :
      Allowed name log (.update .passthroughModel name (addFinalizer first))
  | writeStatus {pm fresh : Object (Body .passthroughModel)} (hworking : Working log name pm)
      (hfresh : Told log (.get .passthroughModel name) (.ok fresh)) (phase : PassthroughModelPhase)
      (providerHostname : GoString) (conditions : List Condition) :
        Allowed name log (.updateStatus .passthroughModel name
        { fresh with body.status := r.freshStatus fresh phase providerHostname conditions })
  | deleteKeys {first : Object (Body .passthroughModel)} (hdeleting : Deleting log name first)
    {kind : Kind}
      {name' : GoString} (hkey : (kind, name') = (.secret, apiKeySecretName name) ∨
        (kind, name') = (.configMap, apiKeyMetadataConfigMapName name)) :
          Allowed name log (.delete kind name' {})
  | removeFinalizer {first : Object (Body .passthroughModel)} (hdeleting : Deleting log name first)
      (hsecret : Gone log .secret (apiKeySecretName name))
      (hconfigMap : Gone log .configMap (apiKeyMetadataConfigMapName name)) :
      Allowed name log (.update .passthroughModel name (removeFinalizer first))
  | keys {pm : Object (Body .passthroughModel)} (hworking : Working log name pm) {q : Request Body}
      (h : ApplyRequest log .secret (mergeLabels (keySecret name pm)) (keySecret name pm) q ∨
        ApplyRequest log .configMap (mergeLabels (keyMetadata name pm)) (keyMetadata name pm) q) :
          Allowed name log q
  | backend {pm : Object (Body .passthroughModel)} (hworking : Working log name pm) {kind : Kind}
      (hkind : kind ∈ backendKinds) {desired : Named (Body kind)} {q : Request Body}
      (h : ApplyRequest log kind (mergeAll (owned name pm desired)) (owned name pm desired) q) :
        Allowed name log q
  | route {pm : Object (Body .passthroughModel)} (hworking : Working log name pm) {e : Endpoint}
      (henabled : passthroughEnabled pm.body.spec e = true) {q : Request Body}
      (h : ApplyRequest log .aiGatewayRoute
        (mergeAll (owned name pm (buildPassthroughRoute ⟨pm, name⟩ r.config e)))
        (owned name pm (buildPassthroughRoute ⟨pm, name⟩ r.config e)) q) : Allowed name log q
  | policy {pm : Object (Body .passthroughModel)} (hworking : Working log name pm) {e : Endpoint}
      (henabled : passthroughEnabled pm.body.spec e = true) {clientIDs names : List GoString}
        {q : Request Body}
      (h : ApplyRequest log .securityPolicy
        (mergeAll (owned name pm (policy r.config ⟨pm, name⟩ clientIDs names e)))
        (owned name pm (policy r.config ⟨pm, name⟩ clientIDs names e)) q) : Allowed name log q
  | removeRoute {pm : Object (Body .passthroughModel)} (hworking : Working log name pm)
    {e : Endpoint}
      (hdisabled : passthroughEnabled pm.body.spec e = false)
        {route : Object (Body .aiGatewayRoute)}
      (hroute : Told log (.get .aiGatewayRoute (modelRouteName name e)) (.ok route))
      (hcontrolled : isControlledBy route (Named.mk pm name) = true) :
      Allowed name log (.delete .aiGatewayRoute (modelRouteName name e)
        { uid := some route.metadata.uid, resourceVersion := some route.metadata.resourceVersion })
  | removePolicy {pm : Object (Body .passthroughModel)} (hworking : Working log name pm)
    {e : Endpoint}
      (hdisabled : passthroughEnabled pm.body.spec e = false) (hcleared : Cleared log name e)
      {policy : Object (Body .securityPolicy)}
      (hpolicy : Told log (.get .securityPolicy (modelAuthPolicyName name e)) (.ok policy))
      (hcontrolled : isControlledBy policy (Named.mk pm name) = true) :
      Allowed name log (.delete .securityPolicy (modelAuthPolicyName name e)
        { uid := some policy.metadata.uid,
          resourceVersion := some policy.metadata.resourceVersion })

section Suffix

variable {name : GoString} {log log' : CallLog} {pm : Object (Body .passthroughModel)}
  {e : Endpoint}

/-- A run goes on working on the model it began with. -/
theorem Working.suffix (h : Working log name pm) (hlog : log <:+ log') : Working log' name pm := by
  obtain ⟨first, hbegan, hlive, hpm⟩ := h
  exact ⟨first, hbegan.suffix hlog, hlive, hpm.imp_right (And.imp_right (·.suffix hlog))⟩

/-- It began with one model. -/
theorem Working.unique {pm' : Object (Body .passthroughModel)} (h : Working log name pm)
    (h' : Working log name pm') :
    pm = pm' := by
  obtain ⟨first, hbegan, _, hpm⟩ := h
  obtain ⟨first', hbegan', _, hpm'⟩ := h'
  obtain rfl := hbegan.unique hbegan'
  rcases hpm with ⟨hfinalizer, rfl⟩ | ⟨hfinalizer, htold⟩
  · rcases hpm' with ⟨_, rfl⟩ | ⟨hfinalizer', _⟩
    · rfl
    · rw [hfinalizer] at hfinalizer'
      cases hfinalizer'
  · rcases hpm' with ⟨hfinalizer', _⟩ | ⟨_, htold'⟩
    · rw [hfinalizer] at hfinalizer'
      cases hfinalizer'
    · exact Except.ok.inj (htold.unique htold')

/-- A reconcile that cleans up renders nothing. -/
theorem Working.not_deleting (h : Working log name pm) {first : Object (Body .passthroughModel)} :
    ¬Deleting log name first := by
  rintro ⟨hbegan, htimestamp, _⟩
  obtain ⟨first', hbegan', hlive, _⟩ := h
  obtain rfl := hbegan.unique hbegan'
  rw [hlive] at htimestamp
  cases htimestamp

/-- A reconcile may read anything; only its writes are bound. -/
theorem allowed_reads : Reads (r.Allowed name) := ⟨fun _ => .get, fun _ => .list⟩

end Suffix

end PassthroughModelReconciler

end controller
