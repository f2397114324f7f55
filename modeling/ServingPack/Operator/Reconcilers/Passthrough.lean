import ServingPack.Operator.Reconcilers.Routing

open golang apiserver kube v1alpha1 config

namespace provider

/-- What a provider's spec resolves to, as far as it is published. -/
structure Resolved where
  hostname : GoString

/-- Whether the selected credential is an API-key Secret. -/
def usesCredentialSecret (p : ProviderSpec) : Bool :=
  match p.credential with
  | some credential => credential.type == credentialAPIKey
  | none =>
    match p.backend with
    | some backend => backend.type == backendOpenAI
    | none => true

end provider

namespace reconcilers

structure PassthroughResources where
  backend : Named Unit
  backendTLSPolicy : Named Unit
  aiServiceBackend : Named Unit
  backendSecurityPolicy : Named Unit
  apiKeySecret : Named SecretBody
  apiKeyMetadataCM : Named ConfigMapBody
  providerHostname : GoString
  externalRoute : Option (Named AIGatewayRouteSpec) := none
  internalRoute : Option (Named AIGatewayRouteSpec) := none
  externalSecurityPolicy : Option (Named SecurityPolicySpec) := none
  internalSecurityPolicy : Option (Named SecurityPolicySpec) := none

def providerObject (pm : Named PassthroughModel) (name : GoString) : Named Unit where
  name := name
  metadata := { labels := passthroughStandardLabels pm }
  body := ()

def passthroughBackendRefs (pm : Named PassthroughModel) : List BackendRef := [{ name := pm.name }]

/-- The route of one endpoint of a provider: the declared models by header, and
any other model by host where the provider catches all. -/
def buildPassthroughRoute (pm : Named PassthroughModel) (cfg : OperatorConfig)
    (endpoint : Endpoint) :
    Named AIGatewayRouteSpec :=
  let at_ := attachment cfg endpoint
  let declared := pm.body.spec.models.declared
  { name := modelRouteName pm.name endpoint
    metadata := { labels := passthroughStandardLabels pm }
    body := routeSpec at_
      ((if declared = [] then [] else
        [{ «matches» := declared.map (fun id => [⟨modelHeader, id⟩])
           backendRefs := passthroughBackendRefs pm
           timeout := "120s"
           modelsOwnedBy := pm.name }]) ++
      if pm.body.spec.models.catchAll then
        [{ «matches» := [[⟨"Host", at_.hostname⟩]]
           backendRefs := passthroughBackendRefs pm
           timeout := "120s" }]
      else []) cfg.usageMeteringEnabled }

def buildPassthroughExternalPolicy (pm : Named PassthroughModel)
    (clientIDs credentialSecretNames : List GoString) :
    Named SecurityPolicySpec :=
  buildAPIKeyAuthSecurityPolicy (modelAuthPolicyName pm.name .external)
    (passthroughStandardLabels pm)
    (modelRouteName pm.name .external) credentialSecretNames clientIDs

def buildPassthroughInternalPolicy (pm : Named PassthroughModel) (cfg : OperatorConfig) :
    Named SecurityPolicySpec :=
  buildJWTSecurityPolicy (modelAuthPolicyName pm.name .internal) (passthroughStandardLabels pm)
    (modelRouteName pm.name .internal) cfg
      (isPublicAccess pm.body.spec.access) pm.body.spec.access.groups

section Resolve

-- `provider.Resolve`
variable (resolve : ProviderSpec → Except StatusError provider.Resolved)

def buildPassthroughResources (pm : Named PassthroughModel) (cfg : OperatorConfig)
    (clientIDs credentialSecretNames : List GoString) : Except StatusError PassthroughResources :=
  match resolve pm.body.spec.provider with
  | .error e => .error e
  | .ok resolved =>
    let authLabels := (passthroughStandardLabels pm).insert modelNameLabel pm.name
    .ok
      { providerHostname := resolved.hostname
        backend := providerObject pm (pm.name ++ ("-backend" : GoString))
        backendTLSPolicy := providerObject pm (pm.name ++ ("-backend-tls" : GoString))
        aiServiceBackend := providerObject pm pm.name
        backendSecurityPolicy := providerObject pm (pm.name ++ ("-upstream-auth" : GoString))
        apiKeySecret := buildAPIKeySecret pm.name authLabels
        apiKeyMetadataCM := buildAPIKeyMetadataConfigMap pm.name authLabels
        externalRoute :=
          if boolOrDefault pm.body.spec.endpoints.external.enabled true then
            some (buildPassthroughRoute pm cfg .external)
          else none
        externalSecurityPolicy :=
          if boolOrDefault pm.body.spec.endpoints.external.enabled true then
            some (buildPassthroughExternalPolicy pm clientIDs credentialSecretNames)
          else none
        internalRoute :=
          if boolOrDefault pm.body.spec.endpoints.internal.enabled true then
            some (buildPassthroughRoute pm cfg .internal)
          else none
        internalSecurityPolicy :=
          if boolOrDefault pm.body.spec.endpoints.internal.enabled true then
            some (buildPassthroughInternalPolicy pm cfg)
          else none }

end Resolve

end reconcilers
