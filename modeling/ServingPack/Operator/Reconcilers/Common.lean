import Mathlib.Data.List.DropRight
import ServingPack.Kube.Objects

open golang apiserver kube v1alpha1

namespace config

/-- The operator's configuration, as far as reconciles of models read it. -/
structure OperatorConfig where
  baseDomain : GoString
  externalGatewayName : GoString
  externalGatewayNS : GoString
  internalGatewayName : GoString
  internalGatewayNS : GoString
  oidcIssuerURL : GoString
  oidcGroupsClaim : GoString
  oidcAudience : GoString := []
  defaultStorageClassName : GoString := []
  apiKeysNamespace : GoString := []
  usageMeteringEnabled : Bool := false

end config

namespace reconcilers

/-- The two shared endpoints of a model. -/
inductive Endpoint where
  | external
  | internal
  deriving DecidableEq

def Endpoint.name : Endpoint → GoString
  | .external => "external"
  | .internal => "internal"

def managedByLabel : GoString := "app.kubernetes.io/managed-by"
def instanceLabel : GoString := "app.kubernetes.io/instance"
def nameLabel : GoString := "app.kubernetes.io/name"
def modelLabel : GoString := "llm.nebari.dev/model"
def modelNameLabel : GoString := "llm.nebari.dev/model-name"
def operatorName : GoString := "nebari-llm-operator"

/-- The labels both kinds of model put on what is managed for them. -/
def labelsFor (kind modelName : GoString) : GoMap GoString :=
  GoMap.ofList [(managedByLabel, operatorName), (instanceLabel, modelName), (nameLabel, kind),
    (modelLabel, modelName)]

def standardLabels (model : Named LLMModel) : GoMap GoString := labelsFor "llmmodel" model.name

def passthroughStandardLabels (pm : Named PassthroughModel) : GoMap GoString :=
  labelsFor "passthroughmodel" pm.name

def apiKeySecretSuffix : GoString := "-api-keys"

def apiKeySecretName (modelName : GoString) : GoString := modelName ++ apiKeySecretSuffix

def apiKeyMetadataConfigMapName (modelName : GoString) : GoString :=
  modelName ++ ("-api-key-metadata" : GoString)

def modelRouteName (modelName : GoString) (endpoint : Endpoint) : GoString :=
  modelName ++ ("-" : GoString) ++ endpoint.name

def modelAuthPolicyName (modelName : GoString) (endpoint : Endpoint) : GoString :=
  modelRouteName modelName endpoint ++ ("-auth" : GoString)

def sharedExternalHostname (baseDomain : GoString) : GoString := ("llm." : GoString) ++ baseDomain

def sharedInternalHostname (baseDomain : GoString) : GoString :=
  ("llm-internal." : GoString) ++ baseDomain

section Slug

-- the SHA-256 digest
variable (sha256 : GoString → List UInt8)

def slugByte (c : UInt8) : Bool := (97 ≤ c && c ≤ 122) || (48 ≤ c && c ≤ 57) || c == 45

/-- A name as a label: other bytes become dashes, and a long name is cut and
ends in a hash of the original. -/
def slugify (name : GoString) : GoString :=
  let dashed := dashRuns false (· == 45) (dashRuns false (fun c => !slugByte c) (toLower name))
  let trimmed := (dashed.dropWhile (· == 45)).rdropWhile (· == 45)
  if trimmed.length ≤ 48 then trimmed
  else (trimmed.take 48).rdropWhile (· == 45) ++ ("-" : GoString) ++
    (hexEncode (sha256 name)).take 8

/-- The subdomain of a model: the one its spec sets, or the slug of its name. -/
def effectiveSubdomain (name : GoString) (spec : LLMModelSpec) : Except StatusError GoString :=
  let subdomain := if spec.endpoints.external.subdomain = [] then slugify sha256 name
    else spec.endpoints.external.subdomain
  if 63 < subdomain.length then
    .error ⟨.other, ("effective subdomain " : GoString) ++ quote subdomain ++ (" is " : GoString) ++
      itoa subdomain.length ++
        (" characters long; subdomains must be 63 characters or fewer" : GoString)⟩
  else .ok subdomain

end Slug

def boolOrDefault (b : Option Bool) (default : Bool) : Bool := b.getD default

/-- Whether an access policy is explicitly public. -/
def isPublicAccess (access : AccessSpec) : Bool := access.public == some true

/-- Whether a model's spec enables an endpoint. -/
def llmEnabled (spec : LLMModelSpec) : Endpoint → Bool
  | .external => boolOrDefault spec.endpoints.external.enabled true
  | .internal => boolOrDefault spec.endpoints.internal.enabled true

def passthroughEnabled (spec : PassthroughModelSpec) : Endpoint → Bool
  | .external => boolOrDefault spec.endpoints.external.enabled true
  | .internal => boolOrDefault spec.endpoints.internal.enabled true

/-- A model's two routes have names of their own. -/
theorem modelRouteName_injective {modelName : GoString} {e e' : Endpoint}
    (h : modelRouteName modelName e = modelRouteName modelName e') : e = e' := by
  have hname : e.name = e'.name := List.append_cancel_left h
  cases e <;> cases e' <;> first | rfl | exact absurd hname (by decide)

/-- So have its two policies. -/
theorem modelAuthPolicyName_injective {modelName : GoString} {e e' : Endpoint}
    (h : modelAuthPolicyName modelName e = modelAuthPolicyName modelName e') : e = e' :=
  modelRouteName_injective (List.append_cancel_right h)

/-- No two models share an API-key Secret. -/
theorem apiKeySecretName_injective : Function.Injective apiKeySecretName :=
  fun _ _ h => List.append_cancel_right h

end reconcilers
