import ServingPack.Operator.Reconcilers.Common

open golang apiserver kube v1alpha1 config

namespace reconcilers

/-- The header Envoy Gateway puts the authenticated key's client ID in. -/
def apiKeyClientIDHeader : GoString := "x-llm-client-id"

structure AuthResources where
  apiKeySecret : Named SecretBody
  apiKeyMetadataCM : Named ConfigMapBody
  externalSecurityPolicy : Option (Named SecurityPolicySpec) := none
  internalSecurityPolicy : Option (Named SecurityPolicySpec) := none

/-- The data keys of an api-keys Secret, sorted. -/
def clientIDsFromSecret (secret : Object SecretBody) : List GoString := secret.body.data.sortedKeys

def authResourceLabels (model : Named LLMModel) : GoMap GoString :=
  (standardLabels model).insert modelNameLabel model.name

def buildAPIKeySecret (modelName : GoString) (labels : GoMap GoString) : Named SecretBody where
  name := apiKeySecretName modelName
  metadata := { labels := labels }
  body := {}

def buildAPIKeyMetadataConfigMap (modelName : GoString) (labels : GoMap GoString) :
    Named ConfigMapBody where
  name := apiKeyMetadataConfigMapName modelName
  metadata := { labels := labels }
  body := {}

/-- Deny by default, and allow the given client IDs. Without client IDs nothing is allowed. -/
def buildAPIKeyAuthorization (clientIDs : List GoString) : Authorization where
  defaultAction := .deny
  rules := if clientIDs = [] then [] else
    [{ name := "allow-model-clients", action := .allow, principal := .headers apiKeyClientIDHeader clientIDs }]

/-- The policy that gates an external route behind API keys. The credentials
pool every model's Secret; the authorization is the model's own. -/
def buildAPIKeyAuthSecurityPolicy (name : GoString) (labels : GoMap GoString) (routeName : GoString)
    (credentialSecretNames clientIDs : List GoString) : Named SecurityPolicySpec where
  name := name
  metadata := { labels := labels }
  body :=
    { targetRef := routeName
      apiKeyAuth := some
        { credentialRefs := credentialSecretNames
          extractFrom := ["Authorization"]
          forwardClientIDHeader := apiKeyClientIDHeader
          sanitize := true }
      authorization := some (buildAPIKeyAuthorization clientIDs) }

/-- Deny by default, and allow tokens whose groups claim contains one of the groups. -/
def buildGroupAuthorization (groups : List GoString) (groupsClaim : GoString) : Authorization where
  defaultAction := .deny
  rules := [{ name := "allow-groups", action := .allow, principal := .jwt "oidc" groupsClaim "StringArray" groups }]

/-- The policy that gates an internal route behind Keycloak tokens. -/
def buildJWTSecurityPolicy (name : GoString) (labels : GoMap GoString) (routeName : GoString)
    (cfg : OperatorConfig)
    («public» : Bool) (groups : List GoString) : Named SecurityPolicySpec where
  name := name
  metadata := { labels := labels }
  body :=
    { targetRef := routeName
      jwt := some
        { name := "oidc"
          issuer := cfg.oidcIssuerURL
          remoteJWKS := cfg.oidcIssuerURL ++ ("/protocol/openid-connect/certs" : GoString)
          claimToHeaders := [⟨"X-Auth-Groups", cfg.oidcGroupsClaim⟩,
            ⟨"X-Auth-User", "preferred_username"⟩] ++
            if cfg.usageMeteringEnabled then [⟨"X-Auth-Subject", "sub"⟩] else []
          audiences := if cfg.oidcAudience = [] then [] else [cfg.oidcAudience] }
      authorization := if «public» then none
        else some (buildGroupAuthorization groups cfg.oidcGroupsClaim) }

def buildExternalSecurityPolicy (model : Named LLMModel)
    (clientIDs credentialSecretNames : List GoString) :
    Named SecurityPolicySpec :=
  buildAPIKeyAuthSecurityPolicy (modelAuthPolicyName model.name .external) (standardLabels model)
    (modelRouteName model.name .external) credentialSecretNames clientIDs

def buildInternalSecurityPolicy (model : Named LLMModel) (cfg : OperatorConfig) :
    Named SecurityPolicySpec :=
  buildJWTSecurityPolicy (modelAuthPolicyName model.name .internal) (standardLabels model)
    (modelRouteName model.name .internal) cfg
      (isPublicAccess model.body.spec.access) model.body.spec.access.groups

def buildAuthResources (model : Named LLMModel) (cfg : OperatorConfig)
    (clientIDs credentialSecretNames : List GoString) : AuthResources where
  apiKeySecret := buildAPIKeySecret model.name (authResourceLabels model)
  apiKeyMetadataCM := buildAPIKeyMetadataConfigMap model.name (authResourceLabels model)
  externalSecurityPolicy :=
    if boolOrDefault model.body.spec.endpoints.external.enabled true then
      some (buildExternalSecurityPolicy model clientIDs credentialSecretNames)
    else none
  internalSecurityPolicy :=
    if boolOrDefault model.body.spec.endpoints.internal.enabled true then
      some (buildInternalSecurityPolicy model cfg)
    else none

end reconcilers
