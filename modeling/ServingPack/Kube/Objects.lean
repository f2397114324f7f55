import ServingPack.Lib.ApiServer.Handle
import ServingPack.Api.V1alpha1
import ServingPack.KeyManager.Keys

open golang apiserver

namespace kube

/-- The kinds the operator and the key manager read or write. -/
inductive Kind where
  | «namespace»
  | secret
  | configMap
  | llmModel
  | passthroughModel
  | securityPolicy
  | aiGatewayRoute
  | httpRoute
  | backend
  | backendTLSPolicy
  | aiServiceBackend
  | backendSecurityPolicy
  | inferencePool
  | podMonitor
  | referenceGrant
  | deployment
  | pod
  | persistentVolumeClaim
  | networkPolicy
  | serviceAccount
  | service
  | role
  | roleBinding
  deriving DecidableEq

structure SecretBody where
  data : GoMap GoString := ∅
  deriving DecidableEq

structure ConfigMapBody where
  data : GoMap secrets.Entry := ∅
  deriving DecidableEq

inductive Action where
  | allow
  | deny
  deriving DecidableEq

/-- Who an authorization rule is about: requests with one of the values in a
header, or tokens of a JWT provider with one of the values in a claim. -/
inductive Principal where
  | headers (name : GoString) (values : List GoString)
  | jwt (provider claim valueType : GoString) (values : List GoString)
  deriving DecidableEq

structure AuthorizationRule where
  name : GoString
  action : Action
  principal : Principal
  deriving DecidableEq

structure Authorization where
  defaultAction : Action
  rules : List AuthorizationRule := []
  deriving DecidableEq

structure APIKeyAuth where
  credentialRefs : List GoString
  extractFrom : List GoString
  forwardClientIDHeader : GoString
  sanitize : Bool
  deriving DecidableEq

structure ClaimToHeader where
  header : GoString
  claim : GoString
  deriving DecidableEq

structure JWTProvider where
  name : GoString
  issuer : GoString
  remoteJWKS : GoString
  claimToHeaders : List ClaimToHeader
  audiences : List GoString := []
  deriving DecidableEq

/-- The spec of Envoy Gateway's `SecurityPolicy`. The target is an HTTPRoute. -/
structure SecurityPolicySpec where
  targetRef : GoString
  apiKeyAuth : Option APIKeyAuth := none
  jwt : Option JWTProvider := none
  authorization : Option Authorization := none
  deriving DecidableEq

structure HeaderMatch where
  name : GoString
  value : GoString
  deriving DecidableEq

structure BackendRef where
  group : GoString := []
  kind : GoString := []
  name : GoString
  deriving DecidableEq

structure RouteRule where
  «matches» : List (List HeaderMatch)
  backendRefs : List BackendRef
  timeout : GoString
  modelsOwnedBy : GoString := []
  deriving DecidableEq

/-- The spec of the AI Gateway's `AIGatewayRoute`. -/
structure AIGatewayRouteSpec where
  hostnames : List GoString
  parentName : GoString
  parentNamespace : GoString
  sectionName : GoString
  rules : List RouteRule
  recordTokenUsage : Bool
  deriving DecidableEq

structure DeploymentBody where
  replicas : Option Int := none
  readyReplicas : Int := 0
  deriving DecidableEq

structure PodBody where
  /-- Whether each init container is running. -/
  initContainerRunning : List Bool
  deriving DecidableEq

/-- What the objects of a kind hold. The contents of the kinds that are only
created and owned are left out. -/
abbrev Body : Kind → Type
  | .secret => SecretBody
  | .configMap => ConfigMapBody
  | .llmModel => v1alpha1.LLMModel
  | .passthroughModel => v1alpha1.PassthroughModel
  | .securityPolicy => SecurityPolicySpec
  | .aiGatewayRoute => AIGatewayRouteSpec
  | .deployment => DeploymentBody
  | .pod => PodBody
  | _ => Unit

instance : (kind : Kind) → DecidableEq (Body kind)
  | .secret => inferInstanceAs (DecidableEq SecretBody)
  | .configMap => inferInstanceAs (DecidableEq ConfigMapBody)
  | .llmModel => inferInstanceAs (DecidableEq v1alpha1.LLMModel)
  | .passthroughModel => inferInstanceAs (DecidableEq v1alpha1.PassthroughModel)
  | .securityPolicy => inferInstanceAs (DecidableEq SecurityPolicySpec)
  | .aiGatewayRoute => inferInstanceAs (DecidableEq AIGatewayRouteSpec)
  | .deployment => inferInstanceAs (DecidableEq DeploymentBody)
  | .pod => inferInstanceAs (DecidableEq PodBody)
  | .namespace | .httpRoute | .backend | .backendTLSPolicy | .aiServiceBackend | .backendSecurityPolicy
  | .inferencePool | .podMonitor | .referenceGrant | .persistentVolumeClaim | .networkPolicy
  | .serviceAccount | .service | .role | .roleBinding => inferInstanceAs (DecidableEq Unit)

def resource : Kind → GoString
  | .namespace => "namespaces"
  | .secret => "secrets"
  | .configMap => "configmaps"
  | .llmModel => "llmmodels.llm.nebari.dev"
  | .passthroughModel => "passthroughmodels.llm.nebari.dev"
  | .securityPolicy => "securitypolicies.gateway.envoyproxy.io"
  | .aiGatewayRoute => "aigatewayroutes.aigateway.envoyproxy.io"
  | .httpRoute => "httproutes.gateway.networking.k8s.io"
  | .backend => "backends.gateway.envoyproxy.io"
  | .backendTLSPolicy => "backendtlspolicies.gateway.networking.k8s.io"
  | .aiServiceBackend => "aiservicebackends.aigateway.envoyproxy.io"
  | .backendSecurityPolicy => "backendsecuritypolicies.aigateway.envoyproxy.io"
  | .inferencePool => "inferencepools.inference.networking.k8s.io"
  | .podMonitor => "podmonitors.monitoring.coreos.com"
  | .referenceGrant => "referencegrants.gateway.networking.k8s.io"
  | .deployment => "deployments.apps"
  | .pod => "pods"
  | .persistentVolumeClaim => "persistentvolumeclaims"
  | .networkPolicy => "networkpolicies.networking.k8s.io"
  | .serviceAccount => "serviceaccounts"
  | .service => "services"
  | .role => "roles.rbac.authorization.k8s.io"
  | .roleBinding => "rolebindings.rbac.authorization.k8s.io"

def storeCreate : (kind : Kind) → Body kind → Body kind
  | .llmModel, submitted => { submitted with status := {} }
  | .passthroughModel, submitted => { submitted with status := {} }
  | .deployment, submitted => { submitted with readyReplicas := 0 }
  | _, submitted => submitted

def storeUpdate : (kind : Kind) → Body kind → Body kind → Body kind
  | .llmModel, existing, submitted => { submitted with status := existing.status }
  | .passthroughModel, existing, submitted => { submitted with status := existing.status }
  | .deployment, existing, submitted => { submitted with readyReplicas := existing.readyReplicas }
  | _, _, submitted => submitted

def storeUpdateStatus : (kind : Kind) → Body kind → Body kind → Body kind
  | .llmModel, existing, submitted => { existing with status := submitted.status }
  | .passthroughModel, existing, submitted => { existing with status := submitted.status }
  | .deployment, existing, submitted => { existing with readyReplicas := submitted.readyReplicas }
  | .pod, _, submitted => submitted
  | _, existing, _ => existing

/-- Models, Deployments and Pods have a status subresource. -/
instance : Resource Body where
  resource := resource
  create := storeCreate
  update := storeUpdate
  updateStatus := storeUpdateStatus

/-- The objects of the namespace the operator and the key manager work in. -/
abbrev Cluster := ApiServer Body

end kube
