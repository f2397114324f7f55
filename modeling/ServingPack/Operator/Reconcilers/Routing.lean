import ServingPack.Operator.Reconcilers.Auth

open golang apiserver kube v1alpha1 config

namespace reconcilers

structure RoutingResources where
  externalRoute : Option (Named AIGatewayRouteSpec) := none
  internalRoute : Option (Named AIGatewayRouteSpec) := none

def defaultRequestTimeout : GoString := "600s"
def externalHTTPSListenerName : GoString := "llm-https"
def internalHTTPSListenerName : GoString := "llm-internal-https"
def modelHeader : GoString := "x-ai-eg-model"

/-- The Gateway, its namespace, the listener and the hostname one endpoint's routes attach to. -/
structure Attachment where
  gatewayName : GoString
  gatewayNS : GoString
  listener : GoString
  hostname : GoString

def attachment (cfg : OperatorConfig) : Endpoint → Attachment
  | .external => ⟨cfg.externalGatewayName, cfg.externalGatewayNS, externalHTTPSListenerName,
      sharedExternalHostname cfg.baseDomain⟩
  | .internal => ⟨cfg.internalGatewayName, cfg.internalGatewayNS, internalHTTPSListenerName,
      sharedInternalHostname cfg.baseDomain⟩

/-- A route on one listener with the given rules. -/
def routeSpec (at_ : Attachment) (rules : List RouteRule) (meteringEnabled : Bool) :
    AIGatewayRouteSpec where
  hostnames := [at_.hostname]
  parentName := at_.gatewayName
  parentNamespace := at_.gatewayNS
  sectionName := at_.listener
  rules := rules
  recordTokenUsage := meteringEnabled

def buildAIGatewayRoute (name : GoString) (labels : GoMap GoString) (at_ : Attachment)
    (poolName modelName requestTimeout : GoString) (meteringEnabled : Bool) :
    Named AIGatewayRouteSpec where
  name := name
  metadata := { labels := labels }
  body := routeSpec at_
    [{ «matches» := [[⟨modelHeader, modelName⟩]]
       backendRefs := [{ group := "inference.networking.k8s.io", kind := "InferencePool", name := poolName }]
       timeout := requestTimeout }] meteringEnabled

/-- The route of one endpoint of a served model. -/
def buildRoute (model : Named LLMModel) (cfg : OperatorConfig) (endpoint : Endpoint) :
    Named AIGatewayRouteSpec :=
  let requestTimeout := model.body.spec.endpoints.requestTimeout
  buildAIGatewayRoute (modelRouteName model.name endpoint) (standardLabels model)
    (attachment cfg endpoint) model.name
    model.body.spec.model.name
      (if requestTimeout = [] then defaultRequestTimeout else requestTimeout)
    cfg.usageMeteringEnabled

def buildRoutingResources (model : Named LLMModel) (cfg : OperatorConfig) : RoutingResources where
  externalRoute :=
    if boolOrDefault model.body.spec.endpoints.external.enabled true
      then some (buildRoute model cfg .external)
    else none
  internalRoute :=
    if boolOrDefault model.body.spec.endpoints.internal.enabled true
      then some (buildRoute model cfg .internal)
    else none

end reconcilers
