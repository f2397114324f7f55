import ServingPack.Operator.Controller.LLMModel
import ServingPack.Operator.Controller.Keeping

open golang apiserver concurrency kube v1alpha1 config reconcilers

namespace controller

namespace LLMModelReconciler

/-- The model a reconcile works on: not being deleted and with its finalizer. -/
def Live (log : CallLog) (name : GoString) (first : Object (Body .llmModel)) : Prop :=
  Began log name first ∧ first.metadata.deletionTimestamp = false ∧ containsFinalizer first = true

/-- The model a reconcile renders from: the one it began with, or, where that had
no phase, the one it was answered when it set the phase. -/
def Working (log : CallLog) (name : GoString) (model : Object (Body .llmModel)) : Prop :=
  ∃ first, Live log name first ∧
    ((first.body.status.phase ≠ .unset ∧ model = first) ∨ (first.body.status.phase = .unset ∧
      FirstTold log (.updateStatus .llmModel name { first with body.status.phase := .pending })
        (.ok model)))

/-- What belongs to a model and carries its owner reference. -/
def ownedKeys (name : GoString) : List (Kind × GoString) :=
  [(.persistentVolumeClaim, name ++ ("-model-storage" : GoString)),
    (.networkPolicy, name ++ ("-deny-direct" : GoString)),
    (.serviceAccount, name ++ ("-sa" : GoString)), (.service, name), (.deployment, name),
    (.serviceAccount, eppName name), (.role, eppName name), (.roleBinding, eppName name),
      (.service, eppName name),
    (.configMap, eppConfigMapName name), (.deployment, eppName name)]

def keySecret (name : GoString) (model : Object (Body .llmModel)) : Named SecretBody :=
  buildAPIKeySecret name (authResourceLabels ⟨model, name⟩)

def keyMetadata (name : GoString) (model : Object (Body .llmModel)) : Named ConfigMapBody :=
  buildAPIKeyMetadataConfigMap name (authResourceLabels ⟨model, name⟩)

variable (r : LLMModelReconciler)

/-- The policy of an endpoint. -/
def policy (model : Named LLMModel) (clientIDs credentialSecretNames : List GoString) :
    Endpoint → Named SecurityPolicySpec
  | .external => buildExternalSecurityPolicy model clientIDs credentialSecretNames
  | .internal => buildInternalSecurityPolicy model r.config

/-- A policy rendered from the model, the client IDs and the Secret names the reconcile read. -/
def Rendered (log : CallLog) (name : GoString) (model : Object (Body .llmModel)) (e : Endpoint)
    (rendered : Named SecurityPolicySpec) : Prop :=
  Working log name model ∧ llmEnabled model.body.spec e = true ∧
    ∃ clientIDs names, Identified log name clientIDs ∧
    Pooled log name names ∧ rendered = r.policy ⟨model, name⟩ clientIDs names e

/-- The policy of an endpoint was written in this reconcile, or its kind is not installed. -/
def Guarded (log : CallLog) (name : GoString) (model : Object (Body .llmModel)) (e : Endpoint) :
    Prop :=
  ∃ rendered, r.Rendered log name model e rendered ∧
    (Applied log .securityPolicy (mergeAll rendered) rendered ∨ Unserved log)

/-- What a reconcile asks, from what it was told. -/
inductive Allowed (name : GoString) (log : CallLog) : Request Body → Prop where
  | get (kind : Kind) (name' : GoString) : Allowed name log (.get kind name')
  | list (kind : Kind) (matching : GoMap GoString) : Allowed name log (.list kind matching)
  | addFinalizer {first : Object (Body .llmModel)} (hbegan : Began log name first)
      (hlive : first.metadata.deletionTimestamp = false) :
      Allowed name log (.update .llmModel name (addFinalizer first))
  | setPending {first : Object (Body .llmModel)} (hlive : Live log name first) :
      Allowed name log (.updateStatus .llmModel name { first with body.status.phase := .pending })
  | patchCondition {model fresh : Object (Body .llmModel)} (hworking : Working log name model)
      (hfresh : Told log (.get .llmModel name) (.ok fresh)) {condition : Condition}
      (hgeneration : condition.observedGeneration = model.metadata.generation) :
      Allowed name log (.updateStatus .llmModel name
        { fresh with body.status.conditions := setStatusCondition fresh.body.status.conditions condition })
  | writeStatus {fresh : Object (Body .llmModel)}
    (hfresh : Told log (.get .llmModel name) (.ok fresh))
      (phase : LLMModelPhase) (deployment : Except StatusError (Object (Body .deployment))) :
      Allowed name log (.updateStatus .llmModel name
        { fresh with body.status := r.freshStatus phase fresh deployment })
  | deleteKeys {first : Object (Body .llmModel)} (hdeleting : Deleting log name first) {kind : Kind}
    {name' : GoString}
      (hkey : (kind, name') = (.secret, apiKeySecretName name) ∨
        (kind, name') = (.configMap, apiKeyMetadataConfigMapName name) ∨
        kind = .referenceGrant) : Allowed name log (.delete kind name' {})
  | removeFinalizer {first : Object (Body .llmModel)} (hdeleting : Deleting log name first)
      (hsecret : Gone log .secret (apiKeySecretName name))
      (hconfigMap : Gone log .configMap (apiKeyMetadataConfigMapName name)) :
      Allowed name log (.update .llmModel name (removeFinalizer first))
  | deleteDeployment {model : Object (Body .llmModel)} (hworking : Working log name model) :
      Allowed name log (.delete .deployment name {})
  | keys {model : Object (Body .llmModel)} (hworking : Working log name model) {q : Request Body}
      (h : ApplyRequest log .secret (mergeLabels (keySecret name model)) (keySecret name model) q ∨
        ApplyRequest log .configMap (mergeLabels (keyMetadata name model))
          (keyMetadata name model) q) : Allowed name log q
  | owned {model : Object (Body .llmModel)} (hworking : Working log name model) {kind : Kind}
      {merge : Object (Body kind) → Object (Body kind)} {desired : Named (Body kind)}
      (hkey : (kind, desired.name) ∈ ownedKeys name)
      (hcontroller : desired.metadata.controller =
        some (controllerReference "LLMModel" (Named.mk model name)))
      (hmerge : KeepsIdentity merge) {q : Request Body}
        (h : ApplyRequest log kind merge desired q) : Allowed name log q
  | extension {model : Object (Body .llmModel)} (hworking : Working log name model) {kind : Kind}
      {desired : Named (Body kind)} (hkind : kind = .inferencePool ∨
        kind = .podMonitor) (hname : desired.name = name)
      {q : Request Body} (h : ApplyRequest log kind (mergeAll desired) desired q) :
        Allowed name log q
  | policy {model : Object (Body .llmModel)} {e : Endpoint} {rendered : Named SecurityPolicySpec}
      (hrendered : r.Rendered log name model e rendered) {q : Request Body}
      (h : ApplyRequest log .securityPolicy (mergeAll rendered) rendered q) : Allowed name log q
  | route {model : Object (Body .llmModel)} {e : Endpoint} (hguarded : r.Guarded log name model e)
    {q : Request Body}
      (h : ApplyRequest log .aiGatewayRoute (mergeAll (buildRoute ⟨model, name⟩ r.config e))
        (buildRoute ⟨model, name⟩ r.config e) q) : Allowed name log q

section Targets

variable {r} {name : GoString} {log : CallLog} {q : Request Body} {e : Endpoint}

/-- The kinds a model owns are none of the gateway's. -/
theorem ownedKeys_kind {kind : Kind} {name' : GoString} (h : (kind, name') ∈ ownedKeys name) :
    kind ≠ .securityPolicy ∧ kind ≠ .aiGatewayRoute ∧ kind ≠ .secret ∧ kind ≠ .llmModel ∧
    kind ≠ .inferencePool ∧
      kind ≠ .podMonitor := by
  simp only [ownedKeys, List.mem_cons, Prod.mk.injEq, List.not_mem_nil, or_false] at h
  rcases h with ⟨rfl, _⟩ | ⟨rfl, _⟩ | ⟨rfl, _⟩ | ⟨rfl, _⟩ | ⟨rfl, _⟩ | ⟨rfl, _⟩ | ⟨rfl, _⟩ | ⟨rfl,
    _⟩ | ⟨rfl, _⟩ |
    ⟨rfl, _⟩ | ⟨rfl, _⟩ <;> simp

/-- A reconcile writes to the gateway's kinds only policies and guarded routes. -/
theorem Allowed.gateway (h : r.Allowed name log q) {kind : Kind} {name' : GoString} (htarget : q.target = some (kind, name'))
    (hkind : kind = .securityPolicy ∨ kind = .aiGatewayRoute) :
    (∃ model e rendered, r.Rendered log name model e rendered ∧
      ApplyRequest log .securityPolicy (mergeAll rendered) rendered q) ∨
    ∃ model e, r.Guarded log name model e ∧ ApplyRequest log .aiGatewayRoute
      (mergeAll (buildRoute ⟨model, name⟩ r.config e)) (buildRoute ⟨model, name⟩ r.config e) q := by
  cases h with
  | policy hrendered h => exact .inl ⟨_, _, _, hrendered, h⟩
  | route hguarded h => exact .inr ⟨_, _, hguarded, h⟩
  | get => cases htarget
  | list => cases htarget
  | addFinalizer | setPending | patchCondition | writeStatus | removeFinalizer | deleteDeployment =>
    obtain ⟨rfl, _⟩ := Prod.mk.inj (Option.some.inj htarget)
    rcases hkind with hkind | hkind <;> cases hkind
  | deleteKeys _ hkey =>
    obtain ⟨rfl, rfl⟩ := Prod.mk.inj (Option.some.inj htarget)
    rcases hkey with hkey | hkey | hkey <;> cases hkey <;> rcases hkind
      with hkind | hkind <;> cases hkind
  | keys _ h =>
    rcases h with h | h <;> rw [applyRequest_target h] at htarget <;> cases htarget <;>
      rcases hkind with hkind | hkind <;> cases hkind
  | owned _ hkey _ _ h =>
    rw [applyRequest_target h] at htarget
    obtain ⟨rfl, _⟩ := Prod.mk.inj (Option.some.inj htarget)
    rcases hkind with hkind | hkind
    · exact absurd hkind (ownedKeys_kind hkey).1
    · exact absurd hkind (ownedKeys_kind hkey).2.1
  | extension _ hextension _ h =>
    rw [applyRequest_target h] at htarget
    obtain ⟨rfl, _⟩ := Prod.mk.inj (Option.some.inj htarget)
    rcases hkind with rfl | rfl <;> rcases hextension
      with hextension | hextension <;> cases hextension

/-- A rendered policy has the name of its model's endpoint. -/
theorem Rendered.name_eq {model : Object (Body .llmModel)} {rendered : Named SecurityPolicySpec}
    (h : r.Rendered log name model e rendered) : rendered.name = modelAuthPolicyName name e := by
  obtain ⟨_, _, clientIDs, names, _, _, rfl⟩ := h
  cases e <;> rfl

/-- A reconcile writes a policy only as it rendered it. -/
theorem Allowed.policy_of_target (h : r.Allowed name log q)
    (htarget : q.target = some (.securityPolicy, modelAuthPolicyName name e)) :
    ∃ model rendered, r.Rendered log name model e rendered ∧
      ApplyRequest log .securityPolicy (mergeAll rendered) rendered q := by
  rcases h.gateway htarget (.inl rfl) with ⟨model, e', rendered, hrendered, h⟩ | ⟨_, _, _, h⟩
  · rw [applyRequest_target h, hrendered.name_eq] at htarget
    obtain ⟨_, hname⟩ := Prod.mk.inj (Option.some.inj htarget)
    obtain rfl : e' = e := modelAuthPolicyName_injective hname
    exact ⟨model, rendered, hrendered, h⟩
  · rw [applyRequest_target h] at htarget
    cases htarget

/-- A reconcile writes a route only behind the policy of its endpoint. -/
theorem Allowed.route_of_target (h : r.Allowed name log q)
    (htarget : q.target = some (.aiGatewayRoute, modelRouteName name e)) :
    ∃ model, r.Guarded log name model e ∧ ApplyRequest log .aiGatewayRoute
      (mergeAll (buildRoute ⟨model, name⟩ r.config e)) (buildRoute ⟨model, name⟩ r.config e) q := by
  rcases h.gateway htarget (.inr rfl) with ⟨_, _, _, _, h⟩ | ⟨model, e', hguarded, h⟩
  · rw [applyRequest_target h] at htarget
    cases htarget
  · rw [applyRequest_target h] at htarget
    obtain ⟨_, hname⟩ := Prod.mk.inj (Option.some.inj htarget)
    obtain rfl : e' = e := modelRouteName_injective hname
    exact ⟨model, hguarded, h⟩

end Targets

end LLMModelReconciler

end controller
