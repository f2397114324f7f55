import ServingPack.Lib.Names
import ServingPack.Operator.GeneratedNames

open golang apiserver concurrency kube v1alpha1 config reconcilers controller naming

namespace objectnames

open LLMModelReconciler
open routeguard (servingReconciler)
open webhook (servingValidator)
open generatednames (key NamedAfter suffixes eppSuffix namedAfter_of)

/-- An object as the API server checks its names: its kind, its name and its
labels. The selectors and the pod templates of a model's objects repeat values
of these labels. -/
structure Rendered where
  kind : Kind
  name : GoString
  labels : GoMap GoString

def Rendered.of {B : Type} (kind : Kind) (object : Named B) : Rendered :=
  ⟨kind, object.name, object.metadata.labels⟩

/-- Whether the API server accepts the name of an object of a kind. -/
def nameAccepted : Kind → GoString → Bool
  | .service, name => isDNS1035Label name
  | _, name => isDNS1123Subdomain name

/-- What the naming rules ask of an object. -/
def Rendered.Acceptable (object : Rendered) : Prop :=
  nameAccepted object.kind object.name = true ∧
    ∀ label value, object.labels.lookup label = some value → isLabelValue value = true

section Objects

variable (r : LLMModelReconciler) (model : Named LLMModel)
  (clientIDs credentialSecretNames : List GoString)

def serviceObjects (resources : ModelServiceResources) : List Rendered :=
  [.of .serviceAccount resources.serviceAccount, .of .service resources.service,
    .of .deployment resources.deployment] ++
    resources.podMonitor.toList.map (.of .podMonitor)

def authObjects (resources : AuthResources) : List Rendered :=
  [.of .secret resources.apiKeySecret, .of .configMap resources.apiKeyMetadataCM] ++
    resources.externalSecurityPolicy.toList.map (.of .securityPolicy) ++
    resources.internalSecurityPolicy.toList.map (.of .securityPolicy)

def poolObjects (pool : InferencePoolResources) : List Rendered :=
  [.of .inferencePool pool.inferencePool, .of .serviceAccount pool.eppServiceAccount,
    .of .role pool.eppRole,
    .of .roleBinding pool.eppRoleBinding, .of .service pool.eppService,
      .of .configMap pool.eppConfigMap,
    .of .deployment pool.eppDeployment]

def routingObjects (resources : RoutingResources) : List Rendered :=
  resources.externalRoute.toList.map (.of .aiGatewayRoute) ++ resources.internalRoute.toList.map
    (.of .aiGatewayRoute)

/-- The objects `Reconcile` renders for a model, in its order: nothing where the
storage size does not parse, and neither pool nor routes where the scheduler
configuration does not convert. -/
def rendered : List Rendered :=
  match buildStorageSpec r.parseQuantity model with
  | .error _ => []
  | .ok storage =>
    storage.pvc.toList.map (.of .persistentVolumeClaim) ++
      authObjects (buildAuthResources model r.config clientIDs credentialSecretNames) ++
      .of .networkPolicy (buildNetworkPolicy model) :: serviceObjects
        (buildModelServiceResources model) ++
      match buildInferencePoolResources r.jsonToYAML model with
      | .error _ => []
      | .ok pool => poolObjects pool ++ routingObjects (buildRoutingResources model r.config)

end Objects

/-- Whether the storage size of a spec parses, where it is read at all. -/
def StorageParses (r : LLMModelReconciler) (spec : LLMModelSpec) : Prop :=
  spec.model.source = modelSourceOCI ∨
    ∃ size, parseStorageSize r.parseQuantity spec.model.storage.size = .ok size

/-- Whether the scheduler configuration of a spec converts to YAML. -/
def SchedulerConfigConverts (r : LLMModelReconciler) (spec : LLMModelSpec) : Prop :=
  ∃ configYAML, renderEPPConfig r.jsonToYAML spec.advanced.inferencePool.schedulerConfig =
    .ok configYAML

section Builders

variable {r : LLMModelReconciler} {model : Named LLMModel}
  {clientIDs credentialSecretNames : List GoString} {object : Rendered}

private theorem buildStorageSpec_ok_iff :
    (∃ storage, buildStorageSpec r.parseQuantity model = .ok storage) ↔
    StorageParses r model.body.spec := by
  simp only [buildStorageSpec, StorageParses, buildHFStorageSpec]
  by_cases hoci : model.body.spec.model.source = modelSourceOCI
  · simp [hoci]
  · cases hsize : parseStorageSize r.parseQuantity model.body.spec.model.storage.size with
    | error e =>
      simp only [hoci, if_false, false_or, reduceCtorEq, exists_false, iff_false, not_exists]
      intro storage
      split_ifs <;> simp
    | ok size =>
      simp only [hoci, if_false, false_or]
      constructor
      · exact fun _ => ⟨size, trivial⟩
      · intro _
        split_ifs
        · exact ⟨_, rfl⟩
        · exact ⟨_, rfl⟩

private theorem buildInferencePoolResources_ok_iff :
    (∃ pool, buildInferencePoolResources r.jsonToYAML model = .ok pool) ↔
    SchedulerConfigConverts r model.body.spec := by
  simp only [buildInferencePoolResources, SchedulerConfigConverts]
  cases renderEPPConfig r.jsonToYAML model.body.spec.advanced.inferencePool.schedulerConfig with
  | error e => simp
  | ok configYAML => simp

/-- The objects rendered before the pool. -/
theorem mem_rendered {storage : StorageResult}
    (hstorage : buildStorageSpec r.parseQuantity model = .ok storage) :
    object ∈ rendered r model clientIDs credentialSecretNames ↔
      object ∈ storage.pvc.toList.map (.of .persistentVolumeClaim) ∨
      object ∈ authObjects (buildAuthResources model r.config clientIDs credentialSecretNames) ∨
      object = .of .networkPolicy (buildNetworkPolicy model) ∨
      object ∈ serviceObjects (buildModelServiceResources model) ∨
      ∃ pool, buildInferencePoolResources r.jsonToYAML model = .ok pool ∧
        (object ∈ poolObjects pool ∨
          object ∈ routingObjects (buildRoutingResources model r.config)) := by
  simp only [rendered, hstorage]
  cases buildInferencePoolResources r.jsonToYAML model with
  | error e => simp only [List.mem_append, List.mem_cons, List.not_mem_nil, or_false, reduceCtorEq, false_and,
      exists_false, or_assoc]
  | ok pool => simp only [List.mem_append, List.mem_cons, Except.ok.injEq, exists_eq_left', or_assoc]

private theorem rendered_nil {e : StatusError}
    (hstorage : buildStorageSpec r.parseQuantity model = .error e) :
    rendered r model clientIDs credentialSecretNames = [] := by
  rw [rendered, hstorage]

end Builders

section Labels

/-- The label values that do not depend on the model. -/
def fixedValues : List GoString := [operatorName, "llmmodel", "epp"]

/-- Labels whose values are the model's name or fixed. -/
def LabelledFor (name : GoString) (labels : GoMap GoString) : Prop :=
  ∀ label value, labels.lookup label = some value → value = name ∨ value ∈ fixedValues

variable {name : GoString} {labels : GoMap GoString}

private theorem LabelledFor.empty : LabelledFor name ∅ := by
  intro label value h
  rw [Finmap.lookup_empty] at h
  cases h

private theorem LabelledFor.insert {value : GoString} (h : LabelledFor name labels)
    (hvalue : value = name ∨ value ∈ fixedValues)
    (label : GoString) : LabelledFor name (labels.insert label value) := by
  intro label' value' hlookup
  rw [GoMap.lookup_insert_eq] at hlookup
  split_ifs at hlookup
  · obtain rfl := Option.some.inj hlookup
    exact hvalue
  · exact h label' value' hlookup

private theorem LabelledFor.standard (kind : GoString) (hkind : kind ∈ fixedValues) :
    LabelledFor name (labelsFor kind name) :=
  (((LabelledFor.empty.insert (.inr (List.mem_cons_self ..)) managedByLabel).insert
    (.inl rfl) instanceLabel).insert
    (.inr hkind) nameLabel).insert (.inl rfl) modelLabel

/-- Such labels are valid while the model's name is short enough for a label value. -/
theorem LabelledFor.valid (h : LabelledFor name labels) (hname : isLabelValue name = true)
    {label value : GoString}
    (hlookup : labels.lookup label = some value) : isLabelValue value = true := by
  rcases h label value hlookup with rfl | hfixed
  · exact hname
  · have hall : ∀ value ∈ fixedValues, isLabelValue value = true := by decide
    exact hall value hfixed

end Labels

section Parts

variable {r : LLMModelReconciler} {model : Named LLMModel} {object : Rendered}

/-- An object named after a model and labelled for it. -/
structure ObjectOf (name : GoString) (object : Rendered) : Prop where
  named : NamedAfter name (object.kind, object.name)
  labelled : LabelledFor name object.labels

private theorem ObjectOf.of {name : GoString} {B : Type} {kind : Kind} {object : Named B}
    (hname : NamedAfter name (kind, object.name))
    (hlabels : LabelledFor name object.metadata.labels) : ObjectOf name (.of kind object) :=
  ⟨hname, hlabels⟩

private theorem pvc_objectOf {storage : StorageResult}
    (hstorage : buildStorageSpec r.parseQuantity model = .ok storage)
    (h : object ∈ storage.pvc.toList.map (.of .persistentVolumeClaim)) :
    ObjectOf model.name object ∧ object.kind ≠ .service := by
  obtain ⟨pvc, hpvc, rfl⟩ := List.mem_map.mp h
  refine ⟨⟨?_, ?_⟩, fun hkind => (by cases hkind)⟩
  · have hkey : (Kind.persistentVolumeClaim, pvc.name) ∈ generatednames.storageKeys
        (buildStorageSpec r.parseQuantity model) := by
      rw [hstorage]
      exact List.mem_map_of_mem hpvc
    exact generatednames.storageKeys_namedAfter hkey
  · rw [Option.mem_toList] at hpvc
    simp only [buildStorageSpec, buildHFStorageSpec] at hstorage
    split_ifs at hstorage
    · cases hstorage
      cases hpvc
    · split at hstorage
      · cases hstorage
      · cases hstorage
        cases hpvc
    · split at hstorage
      · cases hstorage
      · cases hstorage
        cases hpvc
        exact .empty

private theorem auth_objectOf {cfg : OperatorConfig}
    {clientIDs credentialSecretNames : List GoString}
    (h : object ∈ authObjects (buildAuthResources model cfg clientIDs credentialSecretNames)) :
    ObjectOf model.name object ∧ object.kind ≠ .service := by
  simp only [authObjects, List.mem_append, List.mem_cons, List.not_mem_nil, or_false, List.mem_map,
    Option.mem_toList, buildAuthResources] at h
  obtain ((rfl | rfl) | ⟨policy, hpolicy, rfl⟩) | ⟨policy, hpolicy, rfl⟩ := h
  · exact ⟨.of (generatednames.namedAfter _ (by decide))
      ((LabelledFor.standard _ (by decide)).insert (.inl rfl) _),
      fun hkind => (by cases hkind)⟩
  · exact ⟨.of (generatednames.namedAfter _ (by decide))
      ((LabelledFor.standard _ (by decide)).insert (.inl rfl) _),
      fun hkind => (by cases hkind)⟩
  · split_ifs at hpolicy
    cases hpolicy
    exact ⟨.of (generatednames.namedAfter_policy .external) (.standard _ (by decide)),
      fun hkind => (by cases hkind)⟩
  · split_ifs at hpolicy
    cases hpolicy
    exact ⟨.of (generatednames.namedAfter_policy .internal) (.standard _ (by decide)),
      fun hkind => (by cases hkind)⟩

private theorem routing_objectOf {cfg : OperatorConfig}
    (h : object ∈ routingObjects (buildRoutingResources model cfg)) :
    ObjectOf model.name object ∧ object.kind ≠ .service := by
  simp only [routingObjects, List.mem_append, List.mem_map, Option.mem_toList,
    buildRoutingResources] at h
  obtain ⟨route, hroute, rfl⟩ | ⟨route, hroute, rfl⟩ := h
  · split_ifs at hroute
    cases hroute
    exact ⟨.of (generatednames.namedAfter_route .external) (.standard _ (by decide)),
      fun hkind => (by cases hkind)⟩
  · split_ifs at hroute
    cases hroute
    exact ⟨.of (generatednames.namedAfter_route .internal) (.standard _ (by decide)),
      fun hkind => (by cases hkind)⟩

private theorem service_objectOf (h : object ∈ serviceObjects (buildModelServiceResources model)) :
    ObjectOf model.name object ∧ (object.kind = .service → object.name = model.name) := by
  simp only [serviceObjects, List.mem_append, List.mem_cons, List.not_mem_nil, or_false,
    List.mem_map, Option.mem_toList, buildModelServiceResources] at h
  obtain (rfl | rfl | rfl) | ⟨podMonitor, hpodMonitor, rfl⟩ := h
  · exact ⟨.of (generatednames.namedAfter _ (by decide)) (.standard _ (by decide)),
      fun hkind => (by cases hkind)⟩
  · exact ⟨.of (generatednames.namedAfter_self (by decide)) (.standard _ (by decide)), fun _ => rfl⟩
  · exact ⟨.of (generatednames.namedAfter_self (by decide)) (.standard _ (by decide)),
      fun hkind => (by cases hkind)⟩
  · split_ifs at hpodMonitor
    cases hpodMonitor
    exact ⟨.of (generatednames.namedAfter_self (by decide)) (.standard _ (by decide)),
      fun hkind => (by cases hkind)⟩

private theorem pool_objectOf {pool : InferencePoolResources}
    (hpool : buildInferencePoolResources r.jsonToYAML model = .ok pool)
    (h : object ∈ poolObjects pool) :
    ObjectOf model.name object ∧
    (object.kind = .service → object.name = model.name ++ eppSuffix) := by
  unfold buildInferencePoolResources at hpool
  split at hpool
  · cases hpool
  cases hpool
  simp only [poolObjects, List.mem_cons, List.not_mem_nil, or_false] at h
  obtain rfl | rfl | rfl | rfl | rfl | rfl | rfl := h
  · exact ⟨.of (generatednames.namedAfter_self (by decide)) (.standard _ (by decide)),
      fun hkind => (by cases hkind)⟩
  · exact ⟨.of (generatednames.namedAfter _ (by decide)) (.standard _ (by decide)),
      fun hkind => (by cases hkind)⟩
  · exact ⟨.of (generatednames.namedAfter _ (by decide)) (.standard _ (by decide)),
      fun hkind => (by cases hkind)⟩
  · exact ⟨.of (generatednames.namedAfter _ (by decide)) (.standard _ (by decide)),
      fun hkind => (by cases hkind)⟩
  · exact ⟨.of (generatednames.namedAfter _ (by decide)) (.standard _ (by decide)), fun _ => rfl⟩
  · exact ⟨.of (generatednames.namedAfter_eppConfig) (.standard _ (by decide)),
      fun hkind => (by cases hkind)⟩
  · exact ⟨.of (generatednames.namedAfter _ (by decide))
      ((LabelledFor.standard _ (by decide)).insert (.inr (by decide)) _),
      fun hkind => (by cases hkind)⟩

end Parts

section Acceptable

variable {r : LLMModelReconciler} {model : Named LLMModel}
  {clientIDs credentialSecretNames : List GoString} {object : Rendered} {name : GoString}

/-- Each object rendered for a model is named after it, and its Services are its
own and, where the scheduler configuration converts, its endpoint picker's. -/
theorem rendered_objectOf (h : object ∈ rendered r model clientIDs credentialSecretNames) :
    ObjectOf model.name object ∧ (object.kind = .service → object.name = model.name ∨
      SchedulerConfigConverts r model.body.spec ∧ object.name = model.name ++ eppSuffix) := by
  cases hstorage : buildStorageSpec r.parseQuantity model with
  | error e =>
    rw [rendered_nil hstorage] at h
    cases h
  | ok storage =>
    obtain h | h | rfl | h | ⟨pool, hpool, h | h⟩ := (mem_rendered hstorage).mp h
    · obtain ⟨hobject, hkind⟩ := pvc_objectOf hstorage h
      exact ⟨hobject, fun hservice => absurd hservice hkind⟩
    · obtain ⟨hobject, hkind⟩ := auth_objectOf h
      exact ⟨hobject, fun hservice => absurd hservice hkind⟩
    · exact ⟨.of (generatednames.namedAfter _ (by decide)) (.standard _ (by decide)),
        fun hkind => (by cases hkind)⟩
    · obtain ⟨hobject, hname⟩ := service_objectOf h
      exact ⟨hobject, fun hservice => .inl (hname hservice)⟩
    · obtain ⟨hobject, hname⟩ := pool_objectOf hpool h
      exact ⟨hobject, fun hservice => .inr ⟨buildInferencePoolResources_ok_iff.mp ⟨pool, hpool⟩,
        hname hservice⟩⟩
    · obtain ⟨hobject, hkind⟩ := routing_objectOf h
      exact ⟨hobject, fun hservice => absurd hservice hkind⟩

/-- A suffix continues the label it is appended to, and is short. -/
theorem suffixes_wellFormed :
    ∀ k ∈ suffixes, wellFormed true .inside k.2 = true ∧ k.2.length ≤ 190 := by
  decide +kernel

/-- A name after a DNS-1035 label is a subdomain. -/
theorem namedAfter_subdomain {k : Kind × GoString} (h : NamedAfter name k)
    (hname : isDNS1035Label name = true) :
    isDNS1123Subdomain k.2 = true := by
  obtain ⟨suffix, hsuffix, hfull⟩ := h
  obtain ⟨hform, hshort⟩ := suffixes_wellFormed _ hsuffix
  obtain ⟨hlength, _⟩ := isDNS1035Label_iff.mp hname
  rw [hfull]
  apply subdomain_append (subdomain_of_label hname) hform
  rw [List.length_append]
  have hshort' : suffix.length ≤ 190 := hshort
  omega

private theorem epp_label_iff (hname : isDNS1123Subdomain name = true) :
    isDNS1035Label (name ++ eppSuffix) = true ↔ isDNS1035Label name = true ∧ name.length ≤ 59 := by
  have heppSuffix : eppSuffix = 45 :: [101, 112, 112] := by decide
  rw [heppSuffix, label_append_iff hname (by decide), List.length_append]
  exact and_congr_right (fun _ => by simp)

private theorem nameAccepted_of {kind : Kind} {full : GoString}
    (hsubdomain : isDNS1123Subdomain full = true)
    (hlabel : kind = .service → isDNS1035Label full = true) : nameAccepted kind full = true := by
  cases kind with
  | service => exact hlabel rfl
  | _ => exact hsubdomain

/-- A model's own Service, and the Service of its endpoint picker. -/
theorem services_rendered {storage : StorageResult}
    (hstorage : buildStorageSpec r.parseQuantity model = .ok storage) :
    Rendered.of .service (labelled model.name (standardLabels model)) ∈ rendered r model clientIDs
      credentialSecretNames ∧
      (SchedulerConfigConverts r model.body.spec →
        Rendered.of .service (labelled (eppName model.name) (standardLabels model)) ∈
          rendered r model clientIDs credentialSecretNames) := by
  refine ⟨(mem_rendered hstorage).mpr (.inr (.inr (.inr (.inl ?_)))), fun hconverts => ?_⟩
  · exact List.mem_append_left _ (.tail _ (.head _))
  · obtain ⟨pool, hpool⟩ := buildInferencePoolResources_ok_iff.mpr hconverts
    refine (mem_rendered hstorage).mpr (.inr (.inr (.inr (.inr ⟨pool, hpool, .inl ?_⟩))))
    unfold buildInferencePoolResources at hpool
    split at hpool
    · cases hpool
    · cases hpool
      exact .tail _ (.tail _ (.tail _ (.tail _ (.head _))))

/-- The objects rendered for a model are acceptable exactly when its
storage size does not parse, so that nothing is rendered, or its name is a
DNS-1035 label and leaves room for the suffix of its endpoint picker's Service,
where there is one. -/
theorem rendered_acceptable_iff (r : LLMModelReconciler) {name : GoString} (body : LLMModel)
    (hname : isDNS1123Subdomain name = true) (clientIDs credentialSecretNames : List GoString) :
    (∀ object ∈ rendered r ⟨⟨{}, body⟩, name⟩ clientIDs credentialSecretNames, object.Acceptable) ↔
      (StorageParses r body.spec →
        isDNS1035Label name = true ∧ (SchedulerConfigConverts r body.spec → name.length ≤ 59)) := by
  constructor
  · intro hall hparses
    obtain ⟨storage, hstorage⟩ := (@buildStorageSpec_ok_iff r ⟨⟨{}, body⟩, name⟩).mpr hparses
    obtain ⟨hservice, hepp⟩ :=
      @services_rendered r _ clientIDs credentialSecretNames storage hstorage
    refine ⟨(hall _ hservice).1, fun hconverts => ?_⟩
    exact ((epp_label_iff hname).mp (hall _ (hepp hconverts)).1).2
  · intro hcondition object hobject
    have hparses : StorageParses r body.spec := by
      cases hstorage : buildStorageSpec r.parseQuantity (⟨⟨{}, body⟩, name⟩ : Named LLMModel) with
      | error e =>
        rw [rendered_nil hstorage] at hobject
        cases hobject
      | ok storage => exact buildStorageSpec_ok_iff.mp ⟨storage, hstorage⟩
    obtain ⟨hlabel, hshort⟩ := hcondition hparses
    obtain ⟨hof, hservice⟩ := rendered_objectOf hobject
    refine ⟨nameAccepted_of (namedAfter_subdomain hof.named hlabel) fun hkind => ?_,
      fun label value hlookup => ?_⟩
    · rcases hservice hkind with hown | ⟨hconverts, hepp⟩
      · rw [hown]
        exact hlabel
      · rw [hepp]
        exact (epp_label_iff hname).mpr ⟨hlabel, hshort hconverts⟩
    · exact hof.labelled.valid
        ((isLabelValue_iff hname).mpr (isDNS1035Label_iff.mp hlabel).1) hlookup

/-- A short DNS-1035 label gives the objects of its model acceptable names. -/
theorem chat_acceptable : isDNS1123Subdomain "chat" = true ∧
    ∀ object ∈ rendered servingReconciler ⟨⟨{}, generatednames.plain⟩, "chat"⟩ [] [],
    object.Acceptable := by
  refine ⟨by decide, ?_⟩
  exact (rendered_acceptable_iff servingReconciler generatednames.plain (by decide) [] []).mpr
    fun _ => ⟨by decide, fun _ => by decide⟩

/-- Next to a model, the webhook admits a model with a dot in its name, and the
API server accepts no Service of that name. -/
theorem dotted_rejected :
    isDNS1123Subdomain "qwen2.5-7b" = true ∧
      ((servingValidator.validateLLMModel "qwen2.5-7b" generatednames.plain.spec).run.eval
        ApiServer.handle
        generatednames.withChat).1 = .ok [] ∧
      ¬∀ object ∈ rendered servingReconciler ⟨⟨{}, generatednames.plain⟩, "qwen2.5-7b"⟩ [] [],
      object.Acceptable := by
  refine ⟨by decide, by decide +kernel, fun hall => ?_⟩
  have hservice : isDNS1035Label "qwen2.5-7b" = true :=
    (hall _ (@services_rendered servingReconciler ⟨⟨{}, generatednames.plain⟩, "qwen2.5-7b"⟩ []
      [] _ rfl).1).1
  have hdotted : isDNS1035Label "qwen2.5-7b" = false := by decide
  rw [hdotted] at hservice
  cases hservice

/-- What a reconcile of a model with such a name writes has an accepted name. -/
theorem allowed_accepted {log : CallLog} {q : Request Body} {k : Kind × GoString}
    (hlabel : isDNS1035Label name = true)
    (hshort : name.length ≤ 59) (hallowed : r.Allowed name log q) (htarget : q.target = some k)
    (hmodel : k.1 ≠ .llmModel) (hgrant : k.1 ≠ .referenceGrant) : nameAccepted k.1 k.2 = true := by
  have hnamed := generatednames.allowed_namedAfter hallowed htarget hmodel hgrant
  refine nameAccepted_of (namedAfter_subdomain hnamed hlabel) fun hkind => ?_
  obtain ⟨suffix, hsuffix, hfull⟩ := hnamed
  have hservices : ∀ k ∈ suffixes, k.1 = .service → k.2 = [] ∨ k.2 = eppSuffix := by decide +kernel
  rcases hservices _ hsuffix hkind with hself | hepp
  · rw [hfull, show suffix = [] from hself, List.append_nil]
    exact hlabel
  · rw [hfull, show suffix = eppSuffix from hepp]
    exact (epp_label_iff (subdomain_of_label hlabel)).mpr ⟨hlabel, hshort⟩

end Acceptable

end objectnames
