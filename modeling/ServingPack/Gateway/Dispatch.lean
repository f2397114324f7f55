import ServingPack.Gateway.Authorization
import ServingPack.Webhook.Uniqueness

open golang apiserver concurrency kube v1alpha1 config reconcilers

namespace envoy

section Routes

variable (resolve : ProviderSpec → Except StatusError provider.Resolved) (cfg : OperatorConfig)

/-- The route a reconcile of the model renders for an endpoint, whatever keys there are. -/
def Model.route (clientIDs credentialSecretNames : List GoString) :
    Model → Endpoint → Option (Named AIGatewayRouteSpec)
  | .llm model, .external => (buildRoutingResources model cfg).externalRoute
  | .llm model, .internal => (buildRoutingResources model cfg).internalRoute
  | .passthrough pm, e =>
    match buildPassthroughResources resolve pm cfg clientIDs credentialSecretNames, e with
    | .ok resources, .external => resources.externalRoute
    | .ok resources, .internal => resources.internalRoute
    | .error _, _ => none

/-- A value of the model header is matched by an exact rule of the model's route on
the endpoint's hostname. -/
def Model.Matches (clientIDs credentialSecretNames : List GoString) (model : Model) (e : Endpoint)
    (value : GoString) :
    Prop :=
  ∃ route, model.route resolve cfg clientIDs credentialSecretNames e = some route ∧
    (attachment cfg e).hostname ∈ route.body.hostnames ∧
    ∃ rule ∈ route.body.rules, ∃ headers ∈ rule.matches, ⟨modelHeader, value⟩ ∈ headers

end Routes

/-- A model claims an ID on an endpoint: the endpoint is enabled, and the ID is the
served model's or one of the provider's declared ones. -/
def Model.Claims : Model → Endpoint → GoString → Prop
  | .llm model, e, value => llmEnabled model.body.spec e = true ∧ value = model.body.spec.model.name
  | .passthrough pm, e, value =>
      passthroughEnabled pm.body.spec e = true ∧ value ∈ pm.body.spec.models.declared

/-- The model is one of the stored ones. -/
def Model.Stored (s : Cluster) : Model → Prop
  | .llm model => s.lookup .llmModel model.name = some model.toObject
  | .passthrough pm => s.lookup .passthroughModel pm.name = some pm.toObject

variable {resolve : ProviderSpec → Except StatusError provider.Resolved} {cfg : OperatorConfig}
  {clientIDs names : List GoString} {value : GoString}

private theorem llm_route (model : Named LLMModel) (e : Endpoint) :
    (Model.llm model).route resolve cfg clientIDs names e =
    if llmEnabled model.body.spec e then some (buildRoute model cfg e) else none := by
  cases e <;> rfl

private theorem passthrough_route {pm : Named PassthroughModel} {resolved : provider.Resolved}
    (hresolve : resolve pm.body.spec.provider = .ok resolved) (e : Endpoint) :
    (Model.passthrough pm).route resolve cfg clientIDs names e =
      if passthroughEnabled pm.body.spec e then
        some (buildPassthroughRoute pm cfg e) else none := by
  cases e <;> simp only [Model.route, buildPassthroughResources, hresolve] <;> rfl

private theorem llm_matches (model : Named LLMModel) (e : Endpoint) :
    (Model.llm model).Matches resolve cfg clientIDs names e value ↔
    (Model.llm model).Claims e value := by
  rw [Model.Matches, Model.Claims, llm_route]
  cases henabled : llmEnabled model.body.spec e with
  | true => simp [buildRoute, buildAIGatewayRoute, routeSpec]
  | false => simp

/-- A provider's exact rules are those for the IDs it declares: the rule that
catches all matches the host only. -/
theorem passthrough_matches {pm : Named PassthroughModel} {resolved : provider.Resolved}
    (hresolve : resolve pm.body.spec.provider = .ok resolved) (e : Endpoint) :
    (Model.passthrough pm).Matches resolve cfg clientIDs names e value ↔
    (Model.passthrough pm).Claims e value := by
  have hhost : modelHeader ≠ "Host" := by decide
  rw [Model.Matches, Model.Claims, passthrough_route hresolve]
  cases henabled : passthroughEnabled pm.body.spec e with
  | true =>
    simp only [if_true, Option.some.injEq, exists_eq_left', true_and, buildPassthroughRoute,
      routeSpec, List.mem_singleton, List.mem_append]
    constructor
    · rintro ⟨rule, hrule | hrule, headers, hheaders, hmem⟩
      · split_ifs at hrule
        · cases hrule
        · obtain rfl := List.mem_singleton.mp hrule
          obtain ⟨id, hid, rfl⟩ := List.mem_map.mp hheaders
          obtain rfl := (HeaderMatch.mk.inj (List.mem_singleton.mp hmem)).2
          exact hid
      · split_ifs at hrule
        · obtain rfl := List.mem_singleton.mp hrule
          obtain rfl := List.mem_singleton.mp hheaders
          exact absurd (HeaderMatch.mk.inj (List.mem_singleton.mp hmem)).1 hhost
        · cases hrule
    · intro hid
      have hdeclared : pm.body.spec.models.declared ≠ [] := List.ne_nil_of_mem hid
      rw [if_neg hdeclared]
      exact ⟨_, .inl (List.mem_singleton.mpr rfl), _, List.mem_map_of_mem hid,
        List.mem_singleton.mpr rfl⟩
  | false => simp

section Runs

open webhook

variable {v : Validator}
  {c : Config webhook.State (Request Body) Answer (Except StatusError Unit) Nat}

/-- The exact rules of an admitted model are those for the IDs it claims. -/
theorem matches_iff_claims (hreach : (machine v).Reachable NoModels c) {model : Model}
    (hstored : model.Stored c.state.cluster) (e : Endpoint) :
    model.Matches v.resolve cfg clientIDs names e value ↔ model.Claims e value := by
  obtain ⟨φ, hinv, _⟩ := keeps_checked.reachable hreach
  cases model with
  | llm model => exact llm_matches model e
  | passthrough pm =>
    obtain ⟨_, _, hprovider, _⟩ := hinv.passes .passthroughModel pm.name pm.toObject hstored
    cases hresolve : v.resolve pm.body.spec.provider with
    | ok resolved => exact passthrough_matches hresolve e
    | error error =>
      rw [Validator.validateProvider, hresolve] at hprovider
      cases hprovider

/-- Whatever the webhooks have admitted: a value of the model header is matched by
the exact rules of the models that claim it, so by at most one model's for every
value if and only if no two models claim one ID on the endpoint. -/
theorem dispatch_unique_iff (hreach : (machine v).Reachable NoModels c) (cfg : OperatorConfig)
    (clientIDs names : List GoString) (e : Endpoint) :
    (∀ (value : GoString) (model : Model), model.Stored c.state.cluster →
      (model.Matches v.resolve cfg clientIDs names e value ↔ model.Claims e value)) ∧
    ((∀ (value : GoString) (model model' : Model), model.Stored c.state.cluster →
      model'.Stored c.state.cluster →
        model.Matches v.resolve cfg clientIDs names e value →
        model'.Matches v.resolve cfg clientIDs names e value →
        model = model') ↔
      ∀ (value : GoString) (model model' : Model), model.Stored c.state.cluster →
      model'.Stored c.state.cluster →
        model.Claims e value → model'.Claims e value → model = model') := by
  refine ⟨fun value model hstored => matches_iff_claims hreach hstored e, ?_⟩
  refine forall_congr' (fun value => forall_congr' (fun model => forall_congr' (fun model' => ?_)))
  refine forall_congr' (fun hstored => forall_congr' (fun hstored' => ?_))
  rw [matches_iff_claims hreach hstored, matches_iff_claims hreach hstored']

/-- Two models of one model ID, created one after the other. -/
def twins : List (Machine.Move Nat webhook.Choice) :=
  [.start 0 (.write (.create .llmModel "chat" chatModel)), .answer 0 .reply, .answer 0 .reply,
    .answer 0 .reply,
    .start 1 (.write (.create .llmModel "chat-eu" chatModel)), .answer 1 .reply, .answer 1 .reply,
      .answer 1 .reply]

def chatID : GoString := "meta-llama/Llama-3.1-8B-Instruct"

/-- Whether a served model of this name and model ID is stored with its external endpoint
enabled. -/
def servedAs (s : Cluster) (name id : GoString) : Bool :=
  (s.lookup .llmModel name).any (fun object =>
    llmEnabled object.body.spec .external && decide (object.body.spec.model.name = id))

private theorem servedAs_claims {s : Cluster} {name id : GoString} (h : servedAs s name id = true) :
    ∃ model : Named LLMModel, model.name = name ∧ (Model.llm model).Stored s ∧
      (Model.llm model).Claims .external id := by
  obtain ⟨object, hobject, hspec⟩ := (Option.any_eq_true _ _).mp h
  rw [Bool.and_eq_true, decide_eq_true_eq] at hspec
  exact ⟨{ object with name := name }, rfl, hobject, hspec.1, hspec.2.symm⟩

private theorem twins_end :
    ((runner servingValidator).run twins ⟨servingState, fun _ => none⟩).any (fun c =>
    servedAs c.state.cluster "chat" chatID && servedAs c.state.cluster "chat-eu" chatID) =
      true := by
  decide +kernel

/-- Both models are admitted, and both of their external routes match the model ID. -/
theorem twins_both_match :
    ∃ (c : Config webhook.State (Request Body) Answer (Except StatusError Unit) Nat)
    (model model' : Named LLMModel), (machine servingValidator).Reachable NoModels c ∧
    (Model.llm model).Stored c.state.cluster ∧ (Model.llm model').Stored c.state.cluster ∧
    model.name ≠ model'.name ∧
    (Model.llm model).Matches servingValidator.resolve sampleConfig [] [] .external chatID ∧
    (Model.llm model').Matches servingValidator.resolve sampleConfig [] [] .external chatID := by
  obtain ⟨c, hrun, hends⟩ := (Option.any_eq_true _ _).mp twins_end
  rw [Bool.and_eq_true] at hends
  obtain ⟨model, hname, hstored, hclaims⟩ := servedAs_claims hends.1
  obtain ⟨model', hname', hstored', hclaims'⟩ := servedAs_claims hends.2
  refine ⟨c, model, model',
    (runner_sound servingValidator).reachable (.init servingState_noModels) hrun, hstored,
    hstored', ?_, (llm_matches model .external).mpr hclaims,
      (llm_matches model' .external).mpr hclaims'⟩
  rw [hname, hname']
  decide

/-- There too a value is matched by the rules of the models that claim it. -/
theorem twins_dispatch :
    ∃ c : Config webhook.State (Request Body) Answer (Except StatusError Unit) Nat,
    (∃ model : Named LLMModel, (Model.llm model).Stored c.state.cluster ∧
      (Model.llm model).Claims .external chatID) ∧
    ∀ (value : GoString) (model : Model), model.Stored c.state.cluster →
      (model.Matches servingValidator.resolve sampleConfig [] [] .external value ↔
        model.Claims .external value) := by
  obtain ⟨c, hrun, hends⟩ := (Option.any_eq_true _ _).mp twins_end
  rw [Bool.and_eq_true] at hends
  obtain ⟨model, _, hstored, hclaims⟩ := servedAs_claims hends.1
  exact ⟨c, ⟨model, hstored, hclaims⟩, (dispatch_unique_iff
    ((runner_sound servingValidator).reachable (.init servingState_noModels) hrun) sampleConfig []
      [] .external).1⟩

end Runs

end envoy
