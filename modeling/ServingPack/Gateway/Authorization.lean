import ServingPack.Gateway.Envoy
import ServingPack.KeyManager.FleetRuns
import ServingPack.Operator.Reconcilers.Passthrough

open golang apiserver concurrency kube v1alpha1 config reconcilers controller

namespace envoy

/-- A model of either kind. -/
inductive Model where
  | llm (model : Named LLMModel)
  | passthrough (pm : Named PassthroughModel)

def Model.name : Model → GoString
  | .llm model => model.name
  | .passthrough pm => pm.name

/-- The models of a namespace. -/
structure Fleet where
  models : List Model
  distinct : (models.map Model.name).Nodup

/-- The names of the fleet's api-keys Secrets. -/
def Fleet.pool (fleet : Fleet) (name : GoString) : Prop :=
  ∃ model ∈ fleet.models, name = apiKeySecretName model.name

/-- No key is minted yet, and the operator manages no other api-keys Secret. -/
def Initial (fleet : Fleet) (st : secrets.fleet.State) : Prop :=
  ∀ name secret, st.cluster.lookup .secret name = some secret →
    hasSuffix name apiKeySecretSuffix = true →
    (selects managedByOperator secret = true ↔ fleet.pool name) ∧
      (fleet.pool name → secret.body.data = ∅)

private theorem decideAction_apiKeys (clientIDs : List GoString) (id : GoString) :
    decideAction (buildAPIKeyAuthorization clientIDs) apiKeyClientIDHeader id = .allow ↔
    id ∈ clientIDs := by
  unfold decideAction buildAPIKeyAuthorization
  by_cases hnil : clientIDs = []
  · simp [hnil]
  · by_cases hmem : id ∈ clientIDs <;> simp [hnil, hmem, Principal.holds]

section Render

variable (resolve : ProviderSpec → Except StatusError provider.Resolved) (cfg : OperatorConfig)

/-- The external policy of a model, where its endpoint is enabled. -/
def Model.externalPolicy (clientIDs credentialSecretNames : List GoString) :
    Model → Option (Named SecurityPolicySpec)
  | .llm model => (buildAuthResources model cfg clientIDs
    credentialSecretNames).externalSecurityPolicy
  | .passthrough pm =>
    match buildPassthroughResources resolve pm cfg clientIDs credentialSecretNames with
    | .ok resources => resources.externalSecurityPolicy
    | .error _ => none

/-- The external policy a reconcile of the model renders. -/
def renderPolicy (model : Model) : controller.Call (Option (Named SecurityPolicySpec)) := do
  let clientIDs ← apiKeyClientIDs model.name
  let credentialSecretNames ← apiKeySecretNamesWith (apiKeySecretName model.name)
  pure (model.externalPolicy resolve cfg clientIDs credentialSecretNames)

/-- The policy rendered from the Secrets as they are. -/
def rendered (model : Model) (s : Cluster) : Option (Named SecurityPolicySpec) :=
  match (Program.eval ApiServer.handle s (renderPolicy resolve cfg model).run).1 with
  | .ok policy => policy
  | .error _ => none

variable {resolve cfg}

/-- The data keys of a model's own Secret, none while it is missing. -/
def ownClientIDs (s : Cluster) (modelName : GoString) : List GoString :=
  ((s.lookup .secret (apiKeySecretName modelName)).map clientIDsFromSecret).getD []

private theorem eval_apiKeyClientIDs (s : Cluster) (modelName : GoString) :
    Program.eval ApiServer.handle s (apiKeyClientIDs modelName).run =
      (.ok (ownClientIDs s modelName), s) := by
  change Program.eval ApiServer.handle (s.handle (.get .secret (apiKeySecretName modelName))).2
    (clientIDsOf (s.handle (.get .secret (apiKeySecretName modelName))).1).run = _
  rw [ApiServer.handle_get]
  unfold ownClientIDs
  simp only [ApiServer.handle]
  cases hlookup : s.lookup .secret (apiKeySecretName modelName) with
  | none => simp [clientIDsOf, apiserver.notFound, Program.eval]
  | some secret => rfl

private theorem rendered_eq (model : Model) (s : Cluster) :
    rendered resolve cfg model s = model.externalPolicy resolve cfg (ownClientIDs s model.name)
      (pooledNames (apiKeySecretName model.name) (s.list .secret managedByOperator)) := by
  unfold rendered renderPolicy
  rw [Fallible.run_bind_eq, Program.eval_bind, eval_apiKeyClientIDs]
  rfl

private theorem externalPolicy_spec {model : Model} {clientIDs names : List GoString}
    {policy : Named SecurityPolicySpec}
    (h : model.externalPolicy resolve cfg clientIDs names = some policy) :
    ∃ auth, policy.body.apiKeyAuth = some auth ∧ auth.credentialRefs = names ∧
      auth.forwardClientIDHeader = apiKeyClientIDHeader ∧
      policy.body.authorization = some (buildAPIKeyAuthorization clientIDs) := by
  cases model with
  | llm model =>
    simp only [Model.externalPolicy, buildAuthResources] at h
    split_ifs at h
    obtain rfl := Option.some.inj h
    exact ⟨_, rfl, rfl, rfl, rfl⟩
  | passthrough pm =>
    simp only [Model.externalPolicy, buildPassthroughResources] at h
    split at h
    · next resources heq =>
      split at heq
      · cases heq
      · obtain rfl := Except.ok.inj heq
        simp only at h
        split_ifs at h
        obtain rfl := Option.some.inj h
        exact ⟨_, rfl, rfl, rfl, rfl⟩
    · cases h

end Render

section Runs

open secrets.fleet

variable {fleet : Fleet} {st : State} {φ : Nat → Phase} {s : Cluster}

private theorem inv_initial (h : Initial fleet st) : Inv fleet.pool st (fun _ => .quiet) := by
  have hsuffix {name : GoString}
      (hpool : fleet.pool name) : hasSuffix name apiKeySecretSuffix = true := by
    obtain ⟨model, _, rfl⟩ := hpool
    exact hasSuffix_append model.name apiKeySecretSuffix
  have hempty (name id value : GoString)
      (hpool : fleet.pool name) : ¬Held st.cluster name id value := by
    rintro ⟨secret, hsecret, hid⟩
    rw [(h name secret hsecret (hsuffix hpool)).2 hpool, Finmap.lookup_empty] at hid
    cases hid
  exact ⟨fun _ => trivial, fun name secret hsecret hname => (h name secret hsecret hname).1,
    fun name id value hpool hheld => absurd hheld (hempty name id value hpool),
    fun name id value _ _ _ hpool _ hheld => absurd hheld (hempty name id value hpool), nofun,
      nofun⟩

private theorem credential_held {refs : List GoString} {id key : GoString}
    (h : credential s refs id = some key) :
    ∃ name ∈ refs, Held s name id key := by
  obtain ⟨name, hname, hbind⟩ := List.exists_of_findSome?_eq_some h
  obtain ⟨secret, hsecret, hid⟩ := Option.bind_eq_some_iff.mp hbind
  exact ⟨name, hname, secret, hsecret, hid⟩

/-- No client ID occurs in two pooled Secrets, so it does not matter which one counts. -/
theorem credential_eq {pool : GoString → Prop} (hinv : Inv pool st φ) {refs : List GoString}
    (hpool : ∀ name ∈ refs, pool name) {name id key : GoString} (hname : name ∈ refs)
    (hheld : Held st.cluster name id key) : credential st.cluster refs id = some key := by
  match hfound : credential st.cluster refs id with
  | some value =>
    obtain ⟨name', hname', hheld'⟩ := credential_held hfound
    obtain ⟨rfl, _⟩ := hinv.unique name id key name' id value (hpool name hname)
      (hpool name' hname') hheld hheld'
      (.inl rfl)
    obtain ⟨secret, hsecret, hid⟩ := hheld
    obtain ⟨secret', hsecret', hid'⟩ := hheld'
    obtain rfl := Option.some.inj (hsecret.symm.trans hsecret')
    rw [← hid, ← hid']
  | none =>
    obtain ⟨secret, hsecret, hid⟩ := hheld
    have hnone := List.findSome?_eq_none_iff.mp hfound name hname
    rw [hsecret, Option.bind_some, hid] at hnone
    cases hnone

/-- In every state that mints and revokes lead to, a key opens a model's
external route exactly if it is one of the model's own, and it is the key of
one client only. -/
theorem authorized_iff_own_key {m : secrets.Manager}
    {resolve : ProviderSpec → Except StatusError provider.Resolved}
    {cfg : OperatorConfig} {c : Config State secrets.Request secrets.Answer secrets.Outcome Nat}
    (hreach : (machine m).Reachable (Initial fleet) c) {model : Model}
    (hmodel : model ∈ fleet.models) {policy : Named SecurityPolicySpec}
    (hpolicy : rendered resolve cfg model c.state.cluster = some policy) (key : GoString) :
    (Authorized c.state.cluster policy.body key ↔ ∃ secret id,
      c.state.cluster.lookup .secret (apiKeySecretName model.name) = some secret ∧
        secret.body.data.lookup id = some key) ∧
    ∀ auth id id', policy.body.apiKeyAuth = some auth → Authenticates c.state.cluster auth key id →
      Authenticates c.state.cluster auth key id' → id = id' := by
  obtain ⟨φ, hinv, _⟩ := (keeps (m := m) (Initial fleet) (fun _ => inv_initial)).reachable hreach
  rw [rendered_eq] at hpolicy
  obtain ⟨auth, hauth, hrefs, hheader, hauthorization⟩ := externalPolicy_spec hpolicy
  have hown : fleet.pool (apiKeySecretName model.name) := ⟨model, hmodel, rfl⟩
  have hpool : ∀ name ∈ auth.credentialRefs, fleet.pool name := by
    intro name hname
    rw [hrefs, mem_pooledNames] at hname
    rcases hname with rfl | ⟨⟨secret, hlisted⟩, hsuffix⟩
    · exact hown
    · obtain ⟨hsecret, hselects⟩ := (c.state.cluster.mem_list).mp hlisted
      exact (hinv.managed name secret hsecret hsuffix).mp hselects
  have hmem (id : GoString) : id ∈ ownClientIDs c.state.cluster model.name ↔
      ∃ value, Held c.state.cluster (apiKeySecretName model.name) id value := by
    unfold ownClientIDs Held
    match hlookup : c.state.cluster.lookup .secret (apiKeySecretName model.name) with
    | none => simp
    | some secret => simp [clientIDsFromSecret, GoMap.mem_sortedKeys, Finmap.mem_iff]
  refine ⟨⟨?_, ?_⟩, ?_⟩
  · rintro ⟨auth', authorization, id, hauth', hauthorization', hauthenticates, hallow⟩
    obtain rfl := Option.some.inj (hauth.symm.trans hauth')
    obtain rfl := Option.some.inj (hauthorization.symm.trans hauthorization')
    rw [hheader, decideAction_apiKeys, hmem] at hallow
    obtain ⟨value, hvalue⟩ := hallow
    obtain ⟨name, hname, hheld⟩ := credential_held hauthenticates
    obtain ⟨rfl, _⟩ := hinv.unique name id key _ id value (hpool name hname) hown hheld hvalue
      (.inl rfl)
    obtain ⟨secret, hsecret, hid⟩ := hheld
    exact ⟨secret, id, hsecret, hid⟩
  · rintro ⟨secret, id, hsecret, hid⟩
    have hheld : Held c.state.cluster (apiKeySecretName model.name) id key := ⟨secret, hsecret, hid⟩
    have hname : apiKeySecretName model.name ∈ auth.credentialRefs := by
      rw [hrefs, mem_pooledNames]
      exact .inl rfl
    refine ⟨auth, _, id, hauth, hauthorization, credential_eq hinv hpool hname hheld, ?_⟩
    rw [hheader, decideAction_apiKeys, hmem]
    exact ⟨key, hheld⟩
  · intro auth' id id' hauth' hid hid'
    obtain rfl := Option.some.inj (hauth.symm.trans hauth')
    obtain ⟨name, hname, hheld⟩ := credential_held hid
    obtain ⟨name', hname', hheld'⟩ := credential_held hid'
    exact (hinv.unique name id key name' id' key (hpool name hname)
      (hpool name' hname') hheld hheld' (.inr rfl)).2

def sampleConfig : OperatorConfig where
  baseDomain := "example.org"
  externalGatewayName := "external"
  externalGatewayNS := "envoy-gateway-system"
  internalGatewayName := "internal"
  internalGatewayNS := "envoy-gateway-system"
  oidcIssuerURL := "https://keycloak.example.org/realms/main"
  oidcGroupsClaim := "groups"

def chat : Named LLMModel where
  name := "chat"
  metadata := {}
  body := { spec := { model := { name := "org/chat" }, access := { «public» := some true } } }

def hosted : Named PassthroughModel where
  name := "hosted"
  metadata := {}
  body := { spec := { access := { «public» := some true } } }

def pair : Fleet where
  models := [.llm chat, .passthrough hosted]
  distinct := by decide

/-- The Secrets and ConfigMaps of both models as the operator creates them. -/
def pairCluster : Cluster :=
  let create (s : Cluster) (modelName kind : GoString) : Cluster :=
    let labels := (labelsFor kind modelName).insert modelNameLabel modelName
    let secret := buildAPIKeySecret modelName labels
    let cm := buildAPIKeyMetadataConfigMap modelName labels
    ((s.create .secret secret.name secret.toObject).2.create .configMap cm.name cm.toObject).2
  create (create ApiServer.empty "chat" "llmmodel") "hosted" "passthroughmodel"

def minted : Option (Config State secrets.Request secrets.Answer secrets.Outcome Nat) :=
  (runner secrets.chatManager).run
    [.start 0 (.call ("chat", .create secrets.alice [])), .answer 0 .reply, .answer 0 .reply,
    .answer 0 (.bytes (List.replicate 8 0)), .answer 0 (.bytes (List.replicate 24 0)),
      .answer 0 .reply]
    ⟨⟨pairCluster, []⟩, fun _ => none⟩

private theorem pairCluster_initial : Initial pair ⟨pairCluster, []⟩ := by
  have hall : ∀ name ∈ (GoMap.sortedKeys (pairCluster.objects .secret)),
      (pair.models.any (fun model => name == apiKeySecretName model.name) &&
        (pairCluster.lookup .secret name).all (fun secret =>
          selects managedByOperator secret && decide (secret.body.data = ∅))) =
            true := by decide +kernel
  intro name secret hsecret _
  have hname := hall name (GoMap.mem_sortedKeys.mpr (Finmap.mem_of_lookup_eq_some hsecret))
  rw [Bool.and_eq_true, hsecret, Option.all_some, Bool.and_eq_true, List.any_eq_true,
    decide_eq_true_eq] at hname
  obtain ⟨⟨model, hmodel, heq⟩, hselects, hdata⟩ := hname
  exact ⟨iff_of_true hselects ⟨model, hmodel, eq_of_beq heq⟩, fun _ => hdata⟩

def mintedKey : GoString := secrets.apiKeyText (List.replicate 24 0)

private theorem minted_ends : minted.any (fun c =>
    (rendered (fun _ => .ok ⟨"provider.example.org"⟩) sampleConfig
      (.llm chat) c.state.cluster).isSome &&
    (rendered (fun _ => .ok ⟨"provider.example.org"⟩) sampleConfig
      (.passthrough hosted) c.state.cluster).isSome &&
    (c.state.cluster.lookup .secret (apiKeySecretName "chat")).any (fun secret =>
      secret.body.data.lookup
        (secrets.chatManager.clientID "chat" secrets.alice (List.replicate 8 0)) =
      some mintedKey) &&
    (c.state.cluster.lookup .secret (apiKeySecretName "hosted")).all
    (fun secret => decide (secret.body.data = ∅))) =
      true := by
  decide +kernel

/-- A key minted for one model opens its route, and not the other model's. -/
theorem minted_key_opens_own_route :
    ∃ (s : Cluster) (chatPolicy hostedPolicy : Named SecurityPolicySpec),
    rendered (fun _ => .ok ⟨"provider.example.org"⟩) sampleConfig (.llm chat) s = some chatPolicy ∧
    rendered (fun _ => .ok ⟨"provider.example.org"⟩) sampleConfig (.passthrough hosted) s =
      some hostedPolicy ∧
    Authorized s chatPolicy.body mintedKey ∧ ¬Authorized s hostedPolicy.body mintedKey := by
  obtain ⟨c, hrun, hends⟩ := (Option.any_eq_true _ _).mp minted_ends
  simp only [Bool.and_eq_true] at hends
  obtain ⟨⟨⟨hchat, hhosted⟩, hkey⟩, hempty⟩ := hends
  obtain ⟨chatPolicy, hchat⟩ := Option.isSome_iff_exists.mp hchat
  obtain ⟨hostedPolicy, hhosted⟩ := Option.isSome_iff_exists.mp hhosted
  obtain ⟨secret, hsecret, hkey⟩ := (Option.any_eq_true _ _).mp hkey
  have hreach : (machine secrets.chatManager).Reachable (Initial pair) c :=
    (runner_sound secrets.chatManager).reachable (.init pairCluster_initial) hrun
  refine ⟨c.state.cluster, chatPolicy, hostedPolicy, hchat, hhosted, ?_, fun hauthorized => ?_⟩
  · exact (authorized_iff_own_key hreach (List.mem_cons_self ..) hchat mintedKey).1.mpr
      ⟨secret, _, hsecret, of_decide_eq_true hkey⟩
  · obtain ⟨other, id, hother, hid⟩ := (authorized_iff_own_key hreach
      (List.mem_cons_of_mem _ (List.mem_cons_self ..)) hhosted mintedKey).1.mp hauthorized
    have hdata := (Option.all_eq_true _ _).mp hempty other hother
    rw [of_decide_eq_true hdata, Finmap.lookup_empty] at hid
    cases hid

end Runs

end envoy
