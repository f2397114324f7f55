import ServingPack.Operator.Reconcilers.Common

open golang apiserver kube v1alpha1 config

namespace reconcilers

/-- The volume claim a model needs, if it needs one. -/
structure StorageResult where
  pvc : Option (Named Unit) := none

structure ModelServiceResources where
  deployment : Named DeploymentBody
  service : Named Unit
  serviceAccount : Named Unit
  podMonitor : Option (Named Unit) := none

structure InferencePoolResources where
  inferencePool : Named Unit
  eppConfigMap : Named ConfigMapBody
  eppDeployment : Named DeploymentBody
  eppService : Named Unit
  eppServiceAccount : Named Unit
  eppRole : Named Unit
  eppRoleBinding : Named Unit

/-- An object of a kind whose contents are left out. -/
def labelled (name : GoString) (labels : GoMap GoString) : Named Unit where
  name := name
  metadata := { labels := labels }
  body := ()

section Storage

-- `resource.ParseQuantity`, as far as it can fail
variable (parseQuantity : GoString → Except StatusError Unit)

def parseStorageSize (size : GoString) : Except StatusError Unit :=
  if size = [] then .ok ()
  else (parseQuantity size).mapError (·.wrap (("invalid storage size " : GoString) ++ quote size))

/-- A volume claim for a HuggingFace model, unless it is stored in an `emptyDir`. -/
def buildHFStorageSpec (model : Named LLMModel) : Except StatusError StorageResult :=
  let storage := model.body.spec.model.storage
  match parseStorageSize parseQuantity storage.size with
  | .error e =>
    if storage.type = storageTypeEmptyDir then .error (e.wrap "parsing storage size")
    else .error ((e.wrap "parsing storage size").wrap "building PVC")
  | .ok _ =>
    if storage.type = storageTypeEmptyDir then .ok {}
    else .ok { pvc := some (labelled (model.name ++ ("-model-storage" : GoString)) ∅) }

def buildStorageSpec (model : Named LLMModel) : Except StatusError StorageResult :=
  if model.body.spec.model.source = modelSourceOCI then .ok {}
    else buildHFStorageSpec parseQuantity model

end Storage

def buildNetworkPolicy (model : Named LLMModel) : Named Unit :=
  labelled (model.name ++ ("-deny-direct" : GoString)) (standardLabels model)

def buildDeployment (model : Named LLMModel) : Named DeploymentBody where
  name := model.name
  metadata := { labels := standardLabels model }
  body := { replicas := some (model.body.spec.serving.replicas.getD 1) }

def buildModelServiceResources (model : Named LLMModel) : ModelServiceResources where
  deployment := buildDeployment model
  service := labelled model.name (standardLabels model)
  serviceAccount := labelled (model.name ++ ("-sa" : GoString)) (standardLabels model)
  podMonitor :=
    if model.body.spec.serving.monitoring.enabled = some true
      then some (labelled model.name (standardLabels model))
    else none

def eppName (modelName : GoString) : GoString := modelName ++ ("-epp" : GoString)

def eppConfigMapName (modelName : GoString) : GoString :=
  eppName modelName ++ ("-config" : GoString)

def eppConfigFileName : GoString := "epp-config.yaml"

def eppDefaultConfig : GoString :=
  ("apiVersion: inference.networking.x-k8s.io/v1alpha1\n" : GoString) ++
    ("kind: EndpointPickerConfig\n" : GoString) ++
  ("plugins:\n" : GoString) ++ ("- type: max-score-picker\n" : GoString) ++
    ("- type: single-profile-handler\n" : GoString) ++
  ("schedulingProfiles:\n" : GoString) ++ ("- name: default\n" : GoString) ++
    ("  plugins:\n" : GoString) ++
  ("  - pluginRef: max-score-picker\n" : GoString)

section InferencePool

-- `yaml.JSONToYAML`
variable (jsonToYAML : GoString → Except StatusError GoString)

/-- The scheduler configuration of the spec as YAML, or the default. -/
def renderEPPConfig (override : GoString) : Except StatusError GoString :=
  if override = [] then .ok eppDefaultConfig
  else (jsonToYAML override).mapError (·.wrap "converting schedulerConfig JSON to YAML")

def buildInferencePoolResources (model : Named LLMModel) :
    Except StatusError InferencePoolResources :=
  let labels := standardLabels model
  match renderEPPConfig jsonToYAML model.body.spec.advanced.inferencePool.schedulerConfig with
  | .error e => .error (e.wrap "building EPP ConfigMap")
  | .ok configYAML =>
    .ok
      { inferencePool := labelled model.name labels
        eppConfigMap :=
          { name := eppConfigMapName model.name
            metadata := { labels := labels }
            body := { data := GoMap.ofList [(eppConfigFileName, .text configYAML)] } }
        eppDeployment :=
          { name := eppName model.name
            metadata := { labels := labels.insert nameLabel "epp" }
            body := { replicas := some 1 } }
        eppService := labelled (eppName model.name) labels
        eppServiceAccount := labelled (eppName model.name) labels
        eppRole := labelled (eppName model.name) labels
        eppRoleBinding := labelled (eppName model.name) labels }

end InferencePool

end reconcilers
