import ServingPack.Lib.GoString

open golang

namespace v1alpha1

structure StorageSpec where
  type : GoString := []
  size : GoString := []
  storageClassName : GoString := []
  deriving DecidableEq

structure ModelSpec where
  name : GoString
  source : GoString := []
  revision : GoString := []
  image : GoString := []
  storage : StorageSpec := {}
  preload : Option Bool := none
  deriving DecidableEq

structure MonitoringSpec where
  enabled : Option Bool := none
  deriving DecidableEq

structure ServingSpec where
  replicas : Option Int := none
  monitoring : MonitoringSpec := {}
  deriving DecidableEq

structure AccessSpec where
  «public» : Option Bool := none
  groups : List GoString := []
  deriving DecidableEq

structure ExternalEndpointSpec where
  enabled : Option Bool := none
  subdomain : GoString := []
  deriving DecidableEq

structure InternalEndpointSpec where
  enabled : Option Bool := none
  deriving DecidableEq

structure EndpointSpec where
  external : ExternalEndpointSpec := {}
  internal : InternalEndpointSpec := {}
  requestTimeout : GoString := []
  deriving DecidableEq

/-- The raw JSON of a scheduler configuration; empty when there is none. -/
structure InferencePoolAdvancedSpec where
  schedulerConfig : GoString := []
  deriving DecidableEq

structure AdvancedSpec where
  inferencePool : InferencePoolAdvancedSpec := {}
  deriving DecidableEq

structure LLMModelSpec where
  model : ModelSpec
  serving : ServingSpec := {}
  access : AccessSpec := {}
  endpoints : EndpointSpec := {}
  advanced : AdvancedSpec := {}
  deriving DecidableEq

def modelSourceOCI : GoString := "oci"
def storageTypeEmptyDir : GoString := "emptyDir"

inductive LLMModelPhase where
  | unset
  | pending
  | downloading
  | starting
  | ready
  | degraded
  | error
  deriving DecidableEq

inductive ConditionStatus where
  | true
  | false
  | unknown
  deriving DecidableEq

/-- `metav1.Condition`, less its transition time. -/
structure Condition where
  type : GoString
  status : ConditionStatus
  reason : GoString
  message : GoString
  observedGeneration : Nat := 0
  deriving DecidableEq

structure ReplicaStatus where
  ready : Int := 0
  desired : Int := 0
  deriving DecidableEq

structure EndpointStatus where
  external : GoString := []
  internal : GoString := []
  deriving DecidableEq

structure LLMModelStatus where
  phase : LLMModelPhase := .unset
  conditions : List Condition := []
  observedGeneration : Nat := 0
  replicas : ReplicaStatus := {}
  endpoints : EndpointStatus := {}
  deriving DecidableEq

structure LLMModel where
  spec : LLMModelSpec
  status : LLMModelStatus := {}
  deriving DecidableEq

structure ProviderTLS where
  caConfigMapName : GoString
  deriving DecidableEq

structure BedrockBackend where
  region : GoString
  deriving DecidableEq

structure ProviderBackend where
  type : GoString
  bedrock : Option BedrockBackend := none
  deriving DecidableEq

structure ProviderCredential where
  type : GoString
  deriving DecidableEq

structure ProviderSpec where
  backend : Option ProviderBackend := none
  credential : Option ProviderCredential := none
  hostname : GoString := []
  port : Int := 0
  tls : Option ProviderTLS := none
  schemaVersion : GoString := []
  credentialSecretName : GoString := []
  deriving DecidableEq

def backendOpenAI : GoString := "OpenAI"
def backendBedrock : GoString := "Bedrock"
def credentialAPIKey : GoString := "APIKey"
def credentialWorkloadIdentity : GoString := "WorkloadIdentity"

structure PassthroughModels where
  catchAll : Bool := false
  declared : List GoString := []
  deriving DecidableEq

structure EndpointToggle where
  enabled : Option Bool := none
  deriving DecidableEq

structure PassthroughEndpoints where
  external : EndpointToggle := {}
  internal : EndpointToggle := {}
  deriving DecidableEq

structure PassthroughModelSpec where
  provider : ProviderSpec := {}
  models : PassthroughModels := {}
  access : AccessSpec := {}
  endpoints : PassthroughEndpoints := {}
  deriving DecidableEq

inductive PassthroughModelPhase where
  | unset
  | ready
  | error
  deriving DecidableEq

structure PassthroughModelStatus where
  phase : PassthroughModelPhase := .unset
  conditions : List Condition := []
  observedGeneration : Nat := 0
  endpoints : EndpointStatus := {}
  providerHostname : GoString := []
  deriving DecidableEq

structure PassthroughModel where
  spec : PassthroughModelSpec
  status : PassthroughModelStatus := {}
  deriving DecidableEq

end v1alpha1
