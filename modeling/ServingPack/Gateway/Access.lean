import ServingPack.Gateway.Authorization
import ServingPack.KeyManager.Audit

open golang apiserver concurrency kube v1alpha1 config reconcilers models audit

namespace envoy

section JWT

variable {name routeName : GoString} {labels : GoMap GoString} {cfg : OperatorConfig}
  {«public» : Bool} {groups claimed : List GoString} {token : Token}

private theorem decideToken_groups
    (hclaim : token.claims.lookup cfg.oidcGroupsClaim = some claimed) :
    decideToken (buildGroupAuthorization groups cfg.oidcGroupsClaim) "oidc" token = .allow ↔
    ∃ g ∈ groups, g ∈ claimed := by
  have hholds : Principal.holdsToken "oidc" token
    (.jwt "oidc" cfg.oidcGroupsClaim "StringArray" groups) = true ↔
      ∃ g ∈ groups, g ∈ claimed := by
    simp only [Principal.holdsToken, hclaim, Option.getD_some, beq_self_eq_true, Bool.true_and,
      List.any_eq_true, List.contains_iff_mem]
    exact exists_congr (fun g => and_comm)
  unfold decideToken buildGroupAuthorization
  by_cases hmatch : ∃ g ∈ groups, g ∈ claimed
  · simp [hholds.mpr hmatch, hmatch]
  · have hnot := Bool.eq_false_iff.mpr (fun h => hmatch (hholds.mp h))
    simp [hnot, hmatch]

/-- The internal policy lets every verified token through where the model is
public, and otherwise those that claim one of its groups. -/
theorem tokenAuthorized_jwt (hclaim : token.claims.lookup cfg.oidcGroupsClaim = some claimed) :
    TokenAuthorized (buildJWTSecurityPolicy name labels routeName cfg «public» groups).body token ↔
      «public» = true ∨ ∃ g ∈ groups, g ∈ claimed := by
  constructor
  · rintro ⟨jwt, hjwt, hauthorization⟩
    obtain rfl := Option.some.inj hjwt
    cases hpublic : «public» with
    | true => exact .inl rfl
    | false =>
      rw [hpublic] at hauthorization
      exact .inr ((decideToken_groups hclaim).mp (hauthorization _ rfl))
  · intro h
    refine ⟨_, rfl, fun authorization hauthorization => ?_⟩
    rcases h with rfl | hgroups
    · cases hauthorization
    · cases hpublic : «public» with
      | true =>
        rw [hpublic] at hauthorization
        cases hauthorization
      | false =>
        rw [hpublic] at hauthorization
        obtain rfl := Option.some.inj hauthorization
        exact (decideToken_groups hclaim).mpr hgroups

private theorem isPublicAccess_eq (access : AccessSpec) :
    isPublicAccess access = access.public.getD false := by
  unfold isPublicAccess
  cases access.public with
  | none => rfl
  | some value => cases value <;> rfl

end JWT

section Decisions

variable {resolve : ProviderSpec → Except StatusError provider.Resolved} {cfg : OperatorConfig}
  {fleet : models.Fleet}
  {clientIDs names : List GoString} {policy : Named SecurityPolicySpec} {token : Token}
    {claimed : List GoString}

private theorem llmModel_tokenAuthorized {m : Item LLMModel} (hm : m ∈ fleet.list)
    (hpolicy : (buildAuthResources m.toNamed cfg clientIDs names).internalSecurityPolicy =
      some policy)
    (hclaim : token.claims.lookup cfg.oidcGroupsClaim = some claimed) :
    TokenAuthorized policy.body token ↔
    llmModelInfo m ∈ filterModelsForUser fleet.cache claimed := by
  simp only [buildAuthResources] at hpolicy
  split_ifs at hpolicy
  obtain rfl := Option.some.inj hpolicy
  rw [buildInternalSecurityPolicy, tokenAuthorized_jwt hclaim, isPublicAccess_eq,
    mem_filterModelsForUser, and_iff_right (fleet.mem_cache.mpr (.inl ⟨m, hm, rfl⟩))]
  exact Iff.rfl

private theorem passthroughModel_tokenAuthorized {pm : Item PassthroughModel}
    (hpm : pm ∈ fleet.ptList) {resources : PassthroughResources}
    (hresources : buildPassthroughResources resolve pm.toNamed cfg clientIDs names = .ok resources)
    (hpolicy : resources.internalSecurityPolicy = some policy)
    (hclaim : token.claims.lookup cfg.oidcGroupsClaim = some claimed) :
    TokenAuthorized policy.body token ↔
    passthroughModelInfo pm ∈ filterModelsForUser fleet.cache claimed := by
  unfold buildPassthroughResources at hresources
  split at hresources
  · cases hresources
  · obtain rfl := Except.ok.inj hresources
    simp only at hpolicy
    split_ifs at hpolicy
    obtain rfl := Option.some.inj hpolicy
    rw [buildPassthroughInternalPolicy, tokenAuthorized_jwt hclaim, isPublicAccess_eq,
      mem_filterModelsForUser, and_iff_right (fleet.mem_cache.mpr (.inr ⟨pm, hpm, rfl⟩))]
    exact Iff.rfl

/-- The key manager offers a model to a user if and only if the model's internal
policy lets the user's token through, and an audit, whatever fails in it, revokes
the live keys whose creators' known groups do not give access. -/
theorem access_decisions_agree (resolve : ProviderSpec → Except StatusError provider.Resolved)
    (cfg : OperatorConfig)
    (fleet : models.Fleet) (clientIDs names claimed : List GoString) (token : Token)
    (hclaim : token.claims.lookup cfg.oidcGroupsClaim = some claimed) :
    (∀ m ∈ fleet.list, ∀ policy,
      (buildAuthResources m.toNamed cfg clientIDs names).internalSecurityPolicy = some policy →
      (TokenAuthorized policy.body token ↔
        llmModelInfo m ∈ filterModelsForUser fleet.cache claimed)) ∧
    (∀ pm ∈ fleet.ptList, ∀ resources policy,
      buildPassthroughResources resolve pm.toNamed cfg clientIDs names = .ok resources →
      resources.internalSecurityPolicy = some policy →
      (TokenAuthorized policy.body token ↔
        passthroughModelInfo pm ∈ filterModelsForUser fleet.cache claimed)) ∧
    ∀ allModels calls result, allModels.Perm (listModels fleet.cache) →
      Program.Runs Permitted (runOnce allModels) calls result →
      ∃ parts, List.Forall₂ (ModelAudited fleet.cache) allModels parts ∧ calls = parts.flatten := by
  refine ⟨fun m hm policy hpolicy => llmModel_tokenAuthorized hm hpolicy hclaim, ?_, ?_⟩
  · exact fun pm hpm resources policy hresources hpolicy =>
      passthroughModel_tokenAuthorized hpm hresources hpolicy hclaim
  · exact fun allModels calls result hall hruns => audited_of_runs hall hruns

end Decisions

section Samples

/-- A model for one group. -/
def chatItem : Item LLMModel where
  name := "chat"
  «namespace» := "llm-serving"
  metadata := {}
  body := { spec := { model := { name := "org/chat" }, access := { groups := ["llm-users"] } } }

/-- A provider for everyone. -/
def hostedItem : Item PassthroughModel where
  name := "hosted"
  «namespace» := "llm-serving"
  metadata := {}
  body := { spec := { access := { «public» := some true } } }

def sampleFleet : models.Fleet where
  list := [chatItem]
  ptList := [hostedItem]
  distinct := by decide
  valid := by decide

def userToken : Token where
  claims := GoMap.ofList [("groups", ["llm-users"])]

/-- A key of someone who has left the group. -/
def bobKey : secrets.KeyInfo where
  clientID := "user-bob-1"
  creator := "bob"
  createdAt := 0
  modelName := "chat"
  «namespace» := "llm-serving"

/-- A pass that revokes bob's key and leaves the provider's alone. -/
def bobAudit : Calls :=
  [⟨.listKeys "chat", .ok [bobKey]⟩, ⟨.lookup "bob", .ok []⟩,
    ⟨.revokeKey "chat" "user-bob-1", .ok ()⟩]

private theorem bobAudit_runs :
    Program.Runs Permitted (runOnce (listModels sampleFleet.cache)) bobAudit (.ok ()) := by
  have hlisted : listModels sampleFleet.cache =
      [llmModelInfo chatItem, passthroughModelInfo hostedItem] := by
    decide +kernel
  have hkeys : Permitted (.listKeys "chat") (.ok [bobKey]) := by
    refine ⟨⟨{}, { data := GoMap.ofList [(bobKey.clientID, .keyInfo bobKey)] }⟩, ?_⟩
    decide +kernel
  rw [hlisted]
  exact .call hkeys (.call trivial (.call trivial (.pure _)))

/-- The user of the group is let through and offered the model, and bob's key is revoked. -/
theorem sample_decisions_agree : ∃ policy,
    (buildAuthResources chatItem.toNamed sampleConfig [] []).internalSecurityPolicy = some policy ∧
    TokenAuthorized policy.body userToken ∧ ∃ parts,
      List.Forall₂ (ModelAudited sampleFleet.cache) (listModels sampleFleet.cache) parts ∧
      bobAudit = parts.flatten := by
  obtain ⟨hllm, _, haudit⟩ :=
    access_decisions_agree (fun _ => .ok ⟨"provider.example.org"⟩) sampleConfig sampleFleet
    [] [] ["llm-users"] userToken (by decide +kernel)
  refine ⟨_, rfl, (hllm chatItem (List.mem_cons_self ..) _ rfl).mpr (by decide +kernel), ?_⟩
  exact haudit _ bobAudit _ (List.Perm.refl _) bobAudit_runs

end Samples

end envoy
