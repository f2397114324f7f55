import ServingPack.Operator.RouteGuard
import ServingPack.Webhook.Uniqueness

open golang apiserver concurrency kube v1alpha1 config reconcilers controller

namespace generatednames

open LLMModelReconciler
open routeguard (servingReconciler)
open webhook (servingValidator)

def key {B : Type} (kind : Kind) (object : Named B) : Kind × GoString := (kind, object.name)

section Generated

variable (r : LLMModelReconciler) (model : Named LLMModel)
  (clientIDs credentialSecretNames : List GoString)

def storageKeys : Except StatusError StorageResult → List (Kind × GoString)
  | .ok storage => storage.pvc.toList.map (key .persistentVolumeClaim)
  | .error _ => []

def serviceKeys (resources : ModelServiceResources) : List (Kind × GoString) :=
  [key .deployment resources.deployment, key .service resources.service,
    key .serviceAccount resources.serviceAccount] ++
    resources.podMonitor.toList.map (key .podMonitor)

def poolKeys : Except StatusError InferencePoolResources → List (Kind × GoString)
  | .ok pool =>
    [key .inferencePool pool.inferencePool, key .configMap pool.eppConfigMap,
      key .deployment pool.eppDeployment,
      key .service pool.eppService, key .serviceAccount pool.eppServiceAccount,
        key .role pool.eppRole,
      key .roleBinding pool.eppRoleBinding]
  | .error _ => []

def authKeys (resources : AuthResources) : List (Kind × GoString) :=
  [key .secret resources.apiKeySecret, key .configMap resources.apiKeyMetadataCM] ++
    resources.externalSecurityPolicy.toList.map (key .securityPolicy) ++
    resources.internalSecurityPolicy.toList.map (key .securityPolicy)

def routingKeys (resources : RoutingResources) : List (Kind × GoString) :=
  resources.externalRoute.toList.map (key .aiGatewayRoute) ++ resources.internalRoute.toList.map
    (key .aiGatewayRoute)

/-- The objects the operator generates for a model, all of them in its namespace. -/
def generated : List (Kind × GoString) :=
  storageKeys (buildStorageSpec r.parseQuantity model) ++
    key .networkPolicy (buildNetworkPolicy model) ::
    (serviceKeys (buildModelServiceResources model) ++
      poolKeys (buildInferencePoolResources r.jsonToYAML model) ++
      authKeys (buildAuthResources model r.config clientIDs credentialSecretNames) ++
      routingKeys (buildRoutingResources model r.config))

end Generated

/-- What the operator generates for a model of this name that the webhook
admits, whatever its spec and its keys. -/
def Generates (r : LLMModelReconciler) (v : webhook.Validator) (name : GoString)
    (k : Kind × GoString) : Prop :=
  ∃ (model : LLMModel) (clientIDs credentialSecretNames : List GoString),
    v.Passes .llmModel name model ∧
    k ∈ generated r ⟨⟨{}, model⟩, name⟩ clientIDs credentialSecretNames

/-- How the names of a model's objects end, kind by kind. -/
def suffixes : List (Kind × GoString) :=
  [(.persistentVolumeClaim, "-model-storage"), (.networkPolicy, "-deny-direct"), (.deployment, []),
    (.service, []),
    (.serviceAccount, "-sa"), (.podMonitor, []), (.inferencePool, []), (.configMap, "-epp-config"),
      (.deployment, "-epp"),
    (.service, "-epp"), (.serviceAccount, "-epp"), (.role, "-epp"), (.roleBinding, "-epp"),
      (.secret, "-api-keys"),
    (.configMap, "-api-key-metadata"), (.securityPolicy, "-external-auth"),
      (.securityPolicy, "-internal-auth"),
    (.aiGatewayRoute, "-external"), (.aiGatewayRoute, "-internal")]

def eppSuffix : GoString := "-epp"

/-- An object named after a model. -/
def NamedAfter (name : GoString) (k : Kind × GoString) : Prop :=
  ∃ suffix, (k.1, suffix) ∈ suffixes ∧ k.2 = name ++ suffix

section Names

variable {r : LLMModelReconciler} {v : webhook.Validator} {name name' : GoString}
  {k : Kind × GoString}

/-- A name with a suffix of the table is one after the model. -/
theorem namedAfter_of {kind : Kind} {suffix full : GoString} (h : (kind, suffix) ∈ suffixes)
    (hfull : full = name ++ suffix) :
    NamedAfter name (kind, full) := ⟨suffix, h, hfull⟩

/-- The same with the name written out. -/
theorem namedAfter {kind : Kind} (suffix : GoString) (h : (kind, suffix) ∈ suffixes) :
    NamedAfter name (kind, name ++ suffix) :=
  namedAfter_of h rfl

/-- A kind without a suffix has the model's own name. -/
theorem namedAfter_self {kind : Kind} (h : (kind, []) ∈ suffixes) : NamedAfter name (kind, name) :=
  ⟨[], h, (List.append_nil name).symm⟩

/-- Both endpoints' routes are named after the model. -/
theorem namedAfter_route (e : Endpoint) :
    NamedAfter name (.aiGatewayRoute, modelRouteName name e) := by
  refine namedAfter_of ?_ (List.append_assoc ..)
  cases e <;> decide

/-- And so are both policies. -/
theorem namedAfter_policy (e : Endpoint) :
    NamedAfter name (.securityPolicy, modelAuthPolicyName name e) := by
  have hname : modelAuthPolicyName name e = name ++
      (("-" : GoString) ++ (e.name ++ ("-auth" : GoString))) := by
    simp only [modelAuthPolicyName, modelRouteName, List.append_assoc]
  refine namedAfter_of ?_ hname
  cases e <;> decide

/-- The endpoint picker's configuration is named after the model. -/
theorem namedAfter_eppConfig : NamedAfter name (.configMap, eppConfigMapName name) :=
  namedAfter_of (by decide : (Kind.configMap, lit "-epp-config") ∈ suffixes) (List.append_assoc ..)

private theorem namedAfter_owned (h : k ∈ ownedKeys name) : NamedAfter name k := by
  simp only [ownedKeys, List.mem_cons, List.not_mem_nil, or_false] at h
  rcases h with rfl | rfl | rfl | rfl | rfl | rfl | rfl | rfl | rfl | rfl | rfl
  · exact namedAfter _ (by decide)
  · exact namedAfter _ (by decide)
  · exact namedAfter _ (by decide)
  · exact namedAfter_self (by decide)
  · exact namedAfter_self (by decide)
  · exact namedAfter _ (by decide)
  · exact namedAfter _ (by decide)
  · exact namedAfter _ (by decide)
  · exact namedAfter _ (by decide)
  · exact namedAfter_eppConfig
  · exact namedAfter _ (by decide)

/-- Two objects of one kind end alike, unless one of them is an endpoint picker's. -/
theorem suffixes_overlap : ∀ k ∈ suffixes, ∀ k' ∈ suffixes, k.1 = k'.1 → k.2 <:+ k'.2 →
    k.2 = k'.2 ∨ k.2 = [] ∧ k'.2 = eppSuffix := by
  decide +kernel

/-- Whatever the storage asks for is named after the model, if it can be built. -/
theorem storageKeys_namedAfter {parseQuantity : GoString → Except StatusError Unit}
    {model : Named LLMModel}
    (h : k ∈ storageKeys (buildStorageSpec parseQuantity model)) : NamedAfter model.name k := by
  cases hstorage : buildStorageSpec parseQuantity model with
  | error e =>
    rw [hstorage] at h
    cases h
  | ok storage =>
    rw [hstorage] at h
    obtain ⟨pvc, hpvc, rfl⟩ := List.mem_map.mp h
    rw [Option.mem_toList] at hpvc
    have hname : pvc.name = model.name ++ ("-model-storage" : GoString) := by
      simp only [buildStorageSpec, buildHFStorageSpec] at hstorage
      split_ifs at hstorage
      · cases hstorage
        cases hpvc
      · split at hstorage
        · cases hstorage
        · cases hstorage
          cases hpvc
      · split at hstorage
        · cases hstorage
        · cases hstorage
          cases hpvc
          rfl
    exact namedAfter_of (by decide) hname

private theorem serviceKeys_namedAfter {model : Named LLMModel}
    (h : k ∈ serviceKeys (buildModelServiceResources model)) :
    NamedAfter model.name k := by
  rcases List.mem_append.mp h with h | h
  · simp only [List.mem_cons, List.not_mem_nil, or_false] at h
    rcases h with rfl | rfl | rfl
    · exact namedAfter_self (by decide)
    · exact namedAfter_self (by decide)
    · exact namedAfter _ (by decide)
  · obtain ⟨podMonitor, hpodMonitor, rfl⟩ := List.mem_map.mp h
    rw [Option.mem_toList] at hpodMonitor
    simp only [buildModelServiceResources] at hpodMonitor
    split_ifs at hpodMonitor
    cases hpodMonitor
    exact namedAfter_self (by decide)

private theorem poolKeys_namedAfter {jsonToYAML : GoString → Except StatusError GoString}
    {model : Named LLMModel}
    (h : k ∈ poolKeys (buildInferencePoolResources jsonToYAML model)) :
    NamedAfter model.name k := by
  unfold buildInferencePoolResources at h
  split at h
  · cases h
  · simp only [poolKeys, List.mem_cons, List.not_mem_nil, or_false] at h
    rcases h with rfl | rfl | rfl | rfl | rfl | rfl | rfl
    · exact namedAfter_self (by decide)
    · exact namedAfter_eppConfig
    · exact namedAfter _ (by decide)
    · exact namedAfter _ (by decide)
    · exact namedAfter _ (by decide)
    · exact namedAfter _ (by decide)
    · exact namedAfter _ (by decide)

private theorem authKeys_namedAfter {model : Named LLMModel} {cfg : OperatorConfig}
    {clientIDs names : List GoString}
    (h : k ∈ authKeys (buildAuthResources model cfg clientIDs names)) :
    NamedAfter model.name k := by
  rcases List.mem_append.mp h with h | h
  · rcases List.mem_append.mp h with h | h
    · simp only [List.mem_cons, List.not_mem_nil, or_false] at h
      rcases h with rfl | rfl
      · exact namedAfter _ (by decide)
      · exact namedAfter _ (by decide)
    · obtain ⟨policy, hpolicy, rfl⟩ := List.mem_map.mp h
      rw [Option.mem_toList] at hpolicy
      simp only [buildAuthResources] at hpolicy
      split_ifs at hpolicy
      cases hpolicy
      exact namedAfter_policy .external
  · obtain ⟨policy, hpolicy, rfl⟩ := List.mem_map.mp h
    rw [Option.mem_toList] at hpolicy
    simp only [buildAuthResources] at hpolicy
    split_ifs at hpolicy
    cases hpolicy
    exact namedAfter_policy .internal

private theorem routingKeys_namedAfter {model : Named LLMModel} {cfg : OperatorConfig}
    (h : k ∈ routingKeys (buildRoutingResources model cfg)) : NamedAfter model.name k := by
  rcases List.mem_append.mp h with h | h
  · obtain ⟨route, hroute, rfl⟩ := List.mem_map.mp h
    rw [Option.mem_toList] at hroute
    simp only [buildRoutingResources] at hroute
    split_ifs at hroute
    cases hroute
    exact namedAfter_route .external
  · obtain ⟨route, hroute, rfl⟩ := List.mem_map.mp h
    rw [Option.mem_toList] at hroute
    simp only [buildRoutingResources] at hroute
    split_ifs at hroute
    cases hroute
    exact namedAfter_route .internal

private theorem generated_namedAfter {model : Named LLMModel} {clientIDs names : List GoString}
    (h : k ∈ generated r model clientIDs names) : NamedAfter model.name k := by
  rcases List.mem_append.mp h with h | h
  · exact storageKeys_namedAfter h
  rcases List.mem_cons.mp h with rfl | h
  · exact namedAfter _ (by decide)
  simp only [List.mem_append] at h
  rcases h with ((h | h) | h) | h
  · exact serviceKeys_namedAfter h
  · exact poolKeys_namedAfter h
  · exact authKeys_namedAfter h
  · exact routingKeys_namedAfter h

/-- What a reconcile writes besides the model itself is named after the model;
only the legacy grants are left to delete. -/
theorem allowed_namedAfter {log : CallLog} {q : Request Body} (h : r.Allowed name log q)
    (htarget : q.target = some k)
    (hmodel : k.1 ≠ .llmModel) (hgrant : k.1 ≠ .referenceGrant) : NamedAfter name k := by
  cases h with
  | get => cases htarget
  | list => cases htarget
  | addFinalizer | setPending | patchCondition | writeStatus | removeFinalizer =>
    obtain rfl := Option.some.inj htarget
    exact absurd rfl hmodel
  | deleteDeployment =>
    obtain rfl := Option.some.inj htarget
    exact namedAfter_self (by decide)
  | deleteKeys _ hkey =>
    obtain rfl := Option.some.inj htarget
    rcases hkey with hkey | hkey | hkey
    · rw [hkey]
      exact namedAfter _ (by decide)
    · rw [hkey]
      exact namedAfter _ (by decide)
    · exact absurd hkey hgrant
  | keys _ h =>
    rcases h with h | h
    · rw [applyRequest_target h] at htarget
      obtain rfl := Option.some.inj htarget
      exact namedAfter _ (by decide)
    · rw [applyRequest_target h] at htarget
      obtain rfl := Option.some.inj htarget
      exact namedAfter _ (by decide)
  | owned _ hkey _ _ h =>
    rw [applyRequest_target h] at htarget
    obtain rfl := Option.some.inj htarget
    exact namedAfter_owned hkey
  | extension _ hkind hname h =>
    rw [applyRequest_target h, hname] at htarget
    obtain rfl := Option.some.inj htarget
    rcases hkind with rfl | rfl
    · exact namedAfter_self (by decide)
    · exact namedAfter_self (by decide)
  | policy hrendered h =>
    rw [applyRequest_target h, hrendered.name_eq] at htarget
    obtain rfl := Option.some.inj htarget
    exact namedAfter_policy _
  | route _ h =>
    rw [applyRequest_target h] at htarget
    obtain rfl := Option.some.inj htarget
    exact namedAfter_route _

private theorem collide_of_tail {kind : Kind} {suffix suffix' : GoString}
    (hsuffix : (kind, suffix) ∈ suffixes)
    (hsuffix' : (kind, suffix') ∈ suffixes) {tail : GoString} (hname : name' = name ++ tail)
    (htail : suffix = tail ++ suffix') (hne : name ≠ name') : name' = name ++ eppSuffix := by
  rcases suffixes_overlap _ hsuffix' _ hsuffix rfl ⟨tail, htail.symm⟩ with heq | ⟨hnil, hepp⟩
  · have hempty : tail = [] := by
      have hlength := congrArg List.length htail
      rw [List.length_append, ← show suffix' = suffix from heq] at hlength
      exact List.eq_nil_of_length_eq_zero (by omega)
    rw [hempty, List.append_nil] at hname
    exact absurd hname.symm hne
  · rw [hname, ← show suffix = eppSuffix from hepp, htail, show suffix' = [] from hnil,
      List.append_nil]

/-- Objects named after two models are two objects, unless one model has the
name of the other's endpoint picker. -/
theorem NamedAfter.collide (h : NamedAfter name k) (h' : NamedAfter name' k) (hne : name ≠ name') :
    name' = name ++ eppSuffix ∨ name = name' ++ eppSuffix := by
  obtain ⟨suffix, hsuffix, hname⟩ := h
  obtain ⟨suffix', hsuffix', hname'⟩ := h'
  rcases List.append_eq_append_iff.mp (hname.symm.trans hname')
    with ⟨tail, htail, hrest⟩ | ⟨tail, htail, hrest⟩
  · exact .inl (collide_of_tail hsuffix hsuffix' htail hrest hne)
  · exact .inr (collide_of_tail hsuffix' hsuffix htail hrest (Ne.symm hne))

/-- A public model with a subdomain of its own, which the webhook admits. -/
def plain : LLMModel where
  spec :=
    { model := { name := "org/plain", source := modelSourceOCI }
      access := { «public» := some true }
      endpoints := { external := { subdomain := "plain" } } }

private theorem plain_passes (hadmits : v.validateOperatorNamespace webhook.llmTexts = .ok ())
    (name : GoString) :
    v.Passes .llmModel name plain := ⟨hadmits, rfl, rfl⟩

/-- A model's Deployment has the name of the endpoint picker of another model. -/
theorem generates_picker (r : LLMModelReconciler)
    (hadmits : v.validateOperatorNamespace webhook.llmTexts = .ok ())
    (name : GoString) : Generates r v name (.deployment, name ++ eppSuffix) ∧
      Generates r v (name ++ eppSuffix) (.deployment, name ++ eppSuffix) := by
  refine ⟨⟨plain, [], [], plain_passes hadmits _, ?_⟩, ⟨plain, [], [], plain_passes hadmits _, ?_⟩⟩
  · refine List.mem_append_right _
      (List.mem_cons_of_mem _ (List.mem_append_left _ (List.mem_append_left _
      (List.mem_append_right _ ?_))))
    exact .tail _ (.tail _ (.head _))
  · refine List.mem_append_right _
      (List.mem_cons_of_mem _ (List.mem_append_left _ (List.mem_append_left _
      (List.mem_append_left _ ?_))))
    exact .head _

end Names

section Disjoint

/-- The objects the operator generates for two models are apart exactly when
neither model has the name of the other's endpoint picker. -/
theorem disjoint_iff_not_picker (r : LLMModelReconciler) (v : webhook.Validator)
    (hadmits : v.validateOperatorNamespace webhook.llmTexts = .ok ()) {name name' : GoString}
    (hne : name ≠ name') :
    (∀ k, ¬(Generates r v name k ∧ Generates r v name' k)) ↔
    name' ≠ name ++ eppSuffix ∧ name ≠ name' ++ eppSuffix := by
  constructor
  · intro hdisjoint
    refine ⟨?_, ?_⟩
    · rintro rfl
      exact hdisjoint _ (generates_picker r hadmits name)
    · rintro rfl
      exact hdisjoint _ (generates_picker r hadmits name').symm
  · rintro ⟨hright, hleft⟩ k ⟨⟨model, _, _, _, hk⟩, ⟨model', _, _, _, hk'⟩⟩
    rcases (generated_namedAfter hk).collide (generated_namedAfter hk') hne with h | h
    · exact hright h
    · exact hleft h

/-- No two reconciles of such models write the same object. -/
theorem writes_apart (r : LLMModelReconciler) {name name' : GoString} (hne : name ≠ name')
    (hright : name' ≠ name ++ eppSuffix)
    (hleft : name ≠ name' ++ eppSuffix) {log log' : CallLog} {q q' : Request Body}
    (hallowed : r.Allowed name log q)
    (hallowed' : r.Allowed name' log' q') {k : Kind × GoString} (hmodel : k.1 ≠ .llmModel)
    (hgrant : k.1 ≠ .referenceGrant) (htarget : q.target = some k) : q'.target ≠ some k := by
  intro htarget'
  rcases (allowed_namedAfter hallowed htarget hmodel hgrant).collide
    (allowed_namedAfter hallowed' htarget' hmodel hgrant) hne
    with h | h
  · exact hright h
  · exact hleft h

end Disjoint

section Collision

/-- A managed namespace with a model. -/
def withChat : Cluster := clusterAfter
  [.create .namespace "llm-serving" ⟨{ labels := GoMap.ofList [(webhook.managedLabel, "true")] },
    ()⟩,
    .create .llmModel "chat" ⟨{ finalizers := [finalizerName] }, plain⟩]

/-- Next to a model, the webhook admits a model with the name of its endpoint
picker, and the operator generates one Deployment for both. -/
theorem chat_collides :
    ((servingValidator.validateLLMModel "chat-epp" plain.spec).run.eval ApiServer.handle
      withChat).1 = .ok [] ∧
      ¬∀ k, ¬(Generates servingReconciler servingValidator "chat" k ∧
        Generates servingReconciler servingValidator "chat-epp" k) := by
  refine ⟨by decide +kernel, fun hdisjoint => ?_⟩
  exact hdisjoint _ (generates_picker servingReconciler rfl "chat")

/-- Two models with unrelated names have no object in common. -/
theorem chat_vision_apart :
    ¬∃ k, Generates servingReconciler servingValidator "chat" k ∧
    Generates servingReconciler servingValidator "vision" k :=
  not_exists.mpr ((disjoint_iff_not_picker servingReconciler servingValidator rfl (by decide)).mpr
    ⟨by decide, by decide⟩)

end Collision

end generatednames
