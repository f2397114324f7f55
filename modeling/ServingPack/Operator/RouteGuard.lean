import ServingPack.Operator.Controller.LLMModelFollows
import ServingPack.Operator.Controller.Runs

open golang apiserver concurrency kube v1alpha1 config reconcilers controller

namespace routeguard

open LLMModelReconciler

/-- Anything may happen next to the reconciler, but only it creates the model's
routes and creates, deletes or rewrites the model's policies. -/
def foreign (name : GoString) (s : Cluster) : Request Body → Prop
  | .create .aiGatewayRoute name' _ => ∀ e, name' ≠ modelRouteName name e
  | .create .securityPolicy name' _ => ∀ e, name' ≠ modelAuthPolicyName name e
  | .delete .securityPolicy name' _ => ∀ e, name' ≠ modelAuthPolicyName name e
  | .update .securityPolicy name' object => ∀ e, name' = modelAuthPolicyName name e →
      ∀ existing, s.lookup .securityPolicy name' = some existing → object.body = existing.body
  | _ => True

/-- Neither routes nor policies of the model are there. -/
def Fresh (name : GoString) (s : Run) : Prop :=
  s.log = [] ∧ ∀ e, s.state.cluster.lookup .aiGatewayRoute (modelRouteName name e) = none ∧
    s.state.cluster.lookup .securityPolicy (modelAuthPolicyName name e) = none

section Invariant

variable {r : LLMModelReconciler} {name : GoString} {s s' : Run}

/-- The stored policy of an endpoint has this spec. -/
def Stored (s : Cluster) (name : GoString) (e : Endpoint) (spec : SecurityPolicySpec) : Prop :=
  ∃ policy, s.lookup .securityPolicy (modelAuthPolicyName name e) = some policy ∧ policy.body = spec

structure Inv (r : LLMModelReconciler) (name : GoString) (s : Run) : Prop where
  served : ¬Unserved s.log
  /-- No policy of the model is being deleted. -/
  kept : ∀ e policy, s.state.cluster.lookup .securityPolicy (modelAuthPolicyName name e) =
    some policy →
    policy.metadata.deletionTimestamp = false
  routes : ∀ e, s.state.cluster.lookup .aiGatewayRoute (modelRouteName name e) ≠ none →
    s.state.cluster.lookup .securityPolicy (modelAuthPolicyName name e) ≠ none
  /-- What the running reconcile has applied is stored, and is what it rendered. -/
  applied : ∀ e rendered, rendered.name = modelAuthPolicyName name e →
    Applied s.log .securityPolicy (mergeAll rendered) rendered →
      Stored s.state.cluster name e rendered.body ∧
      ∃ model rendered', r.Rendered s.log name model e rendered' ∧ rendered'.body = rendered.body

/-- A step that only rewrites policies to what the running reconcile rendered
keeps every policy that is there. -/
theorem Inv.policy_kept (hinv : Inv r name s) {absent : Kind → Prop} {q : Request Body}
    {a : Answer q} {e : Endpoint}
    (hobserved : Observed absent cached s.state.history q a s'.state.history)
    (hdelete : ∀ p, q ≠ .delete .securityPolicy (modelAuthPolicyName name e) p)
    {policy : Object SecurityPolicySpec}
    (hpolicy : s.state.cluster.lookup .securityPolicy (modelAuthPolicyName name e) = some policy) :
    ∃ policy', s'.state.cluster.lookup .securityPolicy (modelAuthPolicyName name e) = some policy' ∧
      policy'.metadata.deletionTimestamp = false ∧ (policy'.body = policy.body ∨
        ∃ submitted, q = .update .securityPolicy (modelAuthPolicyName name e) submitted ∧
        policy'.body = submitted.body) := by
  have hlive := hinv.kept e policy hpolicy
  obtain ⟨policy', hpolicy', hkept⟩ := hobserved.kept hdelete hpolicy hlive
  refine ⟨policy', hpolicy', hkept.live hlive, ?_⟩
  cases hkept with
  | same => exact .inl rfl
  | updated => exact .inr ⟨_, rfl, rfl⟩
  | statusUpdated => exact .inl rfl

private theorem applyRequest_body {log : CallLog} {rendered : Named SecurityPolicySpec}
    {submitted : Object SecurityPolicySpec} {name' : GoString}
    (h : ApplyRequest log .securityPolicy (mergeAll rendered) rendered
      (.create .securityPolicy name' submitted) ∨
      ApplyRequest log .securityPolicy (mergeAll rendered) rendered
        (.update .securityPolicy name' submitted)) :
    submitted.body = rendered.body := by
  rcases h with h | h
  · cases h
    rfl
  · cases h
    rfl

/-- No request of a reconcile deletes a policy. -/
theorem allowed_not_delete {log : CallLog} {q : Request Body} (h : r.Allowed name log q)
    (e : Endpoint) (p : Preconditions) :
    q ≠ .delete .securityPolicy (modelAuthPolicyName name e) p := by
  rintro rfl
  obtain ⟨_, _, _, happly⟩ := h.policy_of_target rfl
  cases happly

private theorem Inv.exec (hinv : Inv r name s) {absent : Kind → Prop}
    (hserved : ¬absent .securityPolicy) {q : Request Body}
    {a : Answer q} (hallowed : r.Allowed name s.log q)
    (hobserved : Observed absent cached s.state.history q a s'.state.history)
    (hlog : s'.log = ⟨q, a⟩ :: s.log) :
    Inv r name s' := by
  have hsuffix : s.log <:+ s'.log := hlog ▸ List.suffix_cons _ _
  -- a policy that is there stays, with its spec or with the one that is rendered
  have hkept : ∀ e policy, s.state.cluster.lookup .securityPolicy (modelAuthPolicyName name e) =
    some policy →
      ∃ policy', s'.state.cluster.lookup .securityPolicy (modelAuthPolicyName name e) =
        some policy' ∧
        policy'.metadata.deletionTimestamp = false ∧ (policy'.body = policy.body ∨
          ∃ model rendered, r.Rendered s.log name model e rendered ∧
            policy'.body = rendered.body) := by
    intro e policy hpolicy
    obtain ⟨policy', hpolicy', hlive, hbody⟩ :=
      hinv.policy_kept hobserved (allowed_not_delete hallowed e) hpolicy
    refine ⟨policy', hpolicy', hlive, hbody.imp_right ?_⟩
    rintro ⟨submitted, rfl, hsubmitted⟩
    obtain ⟨model, rendered, hrendered, happly⟩ := hallowed.policy_of_target rfl
    exact ⟨model, rendered, hrendered, hsubmitted.trans (applyRequest_body (.inr happly))⟩
  refine ⟨?_, fun e policy hpolicy => ?_, fun e hroute => ?_, fun e rendered hname happlied => ?_⟩
  · rintro ⟨q', err, hkind, hreason, htold⟩
    rw [hlog] at htold
    rcases List.mem_cons.mp htold with heq | hold
    · cases heq
      exact hserved (hkind ▸ hobserved.noMatch rfl hreason)
    · exact hinv.served ⟨q', err, hkind, hreason, hold⟩
  · cases hbefore : s.state.cluster.lookup .securityPolicy (modelAuthPolicyName name e) with
    | some before =>
      obtain ⟨policy', hpolicy', hlive, _⟩ := hkept e before hbefore
      obtain rfl := Option.some.inj (hpolicy.symm.trans hpolicy')
      exact hlive
    | none =>
      have horigin := hobserved.origin hpolicy
      obtain ⟨submitted, rfl⟩ := horigin.create_of_none hbefore
      cases horigin with
      | kept h => exact absurd (h.symm.trans hbefore) nofun
      | created => rfl
  · cases hbefore : s.state.cluster.lookup .securityPolicy (modelAuthPolicyName name e) with
    | some before =>
      obtain ⟨policy', hpolicy', _⟩ := hkept e before hbefore
      exact fun hnone => nomatch hpolicy'.symm.trans hnone
    | none =>
      -- without a policy there was no route, and none is created
      have hnoroute : s.state.cluster.lookup .aiGatewayRoute (modelRouteName name e) = none := by
        by_contra hsome
        exact hinv.routes e hsome hbefore
      obtain ⟨route, hroute'⟩ := Option.ne_none_iff_exists'.mp hroute
      obtain ⟨submitted, rfl⟩ := (hobserved.origin hroute').create_of_none hnoroute
      obtain ⟨model, ⟨rendered, hrendered, happlied | hunserved⟩, _⟩ := hallowed.route_of_target rfl
      · obtain ⟨⟨policy, hpolicy, _⟩, _⟩ := hinv.applied e rendered hrendered.name_eq happlied
        exact absurd (hpolicy.symm.trans hbefore) nofun
      · exact absurd hunserved hinv.served
  · rw [hlog] at happlied
    rcases happlied.cons with happlied | ⟨stored, heq⟩ | ⟨existing, stored, heq⟩
    · -- it was applied before, and only what is rendered can replace it
      obtain ⟨⟨policy, hpolicy, hbody⟩, model, rendered', hrendered', hbody'⟩ :=
        hinv.applied e rendered hname happlied
      obtain ⟨policy', hpolicy', _, hsame⟩ := hkept e policy hpolicy
      refine ⟨⟨policy', hpolicy', ?_⟩, model, rendered', hrendered'.suffix hsuffix, hbody'⟩
      rcases hsame with hsame | ⟨_, rendered'', hrendered'', hsame⟩
      · exact hsame.trans hbody
      · rw [hsame, hrendered''.unique hrendered', hbody']
    · cases heq
      obtain ⟨model, rendered', hrendered', happly⟩ :=
        hallowed.policy_of_target (by rw [← hname]; rfl)
      have hbody := applyRequest_body (.inl happly)
      refine ⟨⟨s.state.cluster.stamp (created s.state.cluster.next rendered.toObject), ?_, rfl⟩,
        model, rendered',
        hrendered'.suffix hsuffix, hbody.symm⟩
      rw [← hname]
      exact (hobserved.exec_of_target nofun).create_ok
    · cases heq
      obtain ⟨model, rendered', hrendered', happly⟩ :=
        hallowed.policy_of_target (by rw [← hname]; rfl)
      have hbody : (mergeAll rendered existing).body = rendered'.body :=
        applyRequest_body (.inr happly)
      obtain ⟨_, object, _, hobject, hstored⟩ := (hobserved.exec_of_target nofun).update_ok
        (fun policy hpolicy => hinv.kept e policy (by rw [← hname]; exact hpolicy))
      exact ⟨⟨object, by rw [← hname]; exact hobject, hstored⟩, model, rendered',
        hrendered'.suffix hsuffix, hbody.symm⟩

private theorem Inv.env (hinv : Inv r name s) {absent : Kind → Prop} {q : Request Body}
    {a : Answer q} (hforeign : foreign name s.state.cluster q)
    (hexec : Exec absent s.state.cluster q a s'.state.cluster)
    (hlog : s'.log = s.log) : Inv r name s' := by
  -- a policy that is there stays with its spec
  have hkept : ∀ e policy, s.state.cluster.lookup .securityPolicy (modelAuthPolicyName name e) =
    some policy →
      ∃ policy', s'.state.cluster.lookup .securityPolicy (modelAuthPolicyName name e) =
        some policy' ∧
        policy'.metadata.deletionTimestamp = false ∧ policy'.body = policy.body := by
    intro e policy hpolicy
    have hlive := hinv.kept e policy hpolicy
    obtain ⟨policy', hpolicy', hkept⟩ :=
      hexec.kept (by rintro p rfl; exact hforeign e rfl) hpolicy hlive
    refine ⟨policy', hpolicy', hkept.live hlive, ?_⟩
    cases hkept with
    | same => rfl
    | updated => exact hforeign e rfl policy hpolicy
    | statusUpdated => rfl
  have hnone : ∀ e, s.state.cluster.lookup .securityPolicy (modelAuthPolicyName name e) = none →
      s'.state.cluster.lookup .securityPolicy (modelAuthPolicyName name e) = none := by
    intro e hnone
    by_contra hsome
    obtain ⟨policy, hpolicy⟩ := Option.ne_none_iff_exists'.mp hsome
    obtain ⟨submitted, rfl⟩ := (hexec.origin hpolicy).create_of_none hnone
    exact hforeign e rfl
  refine ⟨by rw [hlog]; exact hinv.served, fun e policy hpolicy => ?_, fun e hroute hnopolicy => ?_,
    fun e rendered hname happlied => ?_⟩
  · cases hbefore : s.state.cluster.lookup .securityPolicy (modelAuthPolicyName name e) with
    | some before =>
      obtain ⟨policy', hpolicy', hlive, _⟩ := hkept e before hbefore
      obtain rfl := Option.some.inj (hpolicy.symm.trans hpolicy')
      exact hlive
    | none => exact nomatch hpolicy.symm.trans (hnone e hbefore)
  · have hbefore : s.state.cluster.lookup .securityPolicy (modelAuthPolicyName name e) = none := by
      by_contra hsome
      obtain ⟨policy, hpolicy⟩ := Option.ne_none_iff_exists'.mp hsome
      obtain ⟨policy', hpolicy', _⟩ := hkept e policy hpolicy
      exact nomatch hpolicy'.symm.trans hnopolicy
    have hnoroute : s.state.cluster.lookup .aiGatewayRoute (modelRouteName name e) = none := by
      by_contra hsome
      exact hinv.routes e hsome hbefore
    obtain ⟨route, hroute'⟩ := Option.ne_none_iff_exists'.mp hroute
    obtain ⟨submitted, rfl⟩ := (hexec.origin hroute').create_of_none hnoroute
    exact hforeign e rfl
  · rw [hlog] at happlied ⊢
    obtain ⟨⟨policy, hpolicy, hbody⟩, hrendered⟩ := hinv.applied e rendered hname happlied
    obtain ⟨policy', hpolicy', _, hsame⟩ := hkept e policy hpolicy
    exact ⟨⟨policy', hpolicy', hsame.trans hbody⟩, hrendered⟩

private theorem Inv.init (h : Fresh name s) : Inv r name s := by
  refine ⟨?_, fun e policy hpolicy => ?_, fun e hroute => absurd (h.2 e).1 hroute,
    fun e rendered _ happlied => ?_⟩
  · rintro ⟨q, err, _, _, htold⟩
    rw [h.1] at htold
    cases htold
  · rw [(h.2 e).2] at hpolicy
    cases hpolicy
  · rw [h.1] at happlied
    rcases happlied with ⟨_, h⟩ | ⟨_, _, h⟩ <;> cases h

private theorem Inv.finish (h : Inv r name s) : Inv r name { s with log := [] } := by
  refine ⟨?_, h.kept, h.routes, fun e rendered _ happlied => ?_⟩
  · rintro ⟨q, err, _, _, htold⟩
    cases htold
  · rcases happlied with ⟨_, h⟩ | ⟨_, _, h⟩ <;> cases h

end Invariant

section Runs

variable {r : LLMModelReconciler} {name : GoString} {absent : Kind → Prop}

/-- Where policies are served, no route of the model is ever stored without its
endpoint's policy. A reconcile that is about to write a route finds stored the
very policy it rendered from the model, the client IDs and the names it read. -/
theorem route_never_without_policy (r : LLMModelReconciler) (name : GoString)
    (hserved : ¬absent .securityPolicy) {c : Config Run (Request Body) Answer Outcome Unit}
    (hreach : (machine absent (foreign name) (r.reconcile name)).Reachable (Fresh name) c)
    (e : Endpoint) :
    (c.state.state.cluster.lookup .aiGatewayRoute (modelRouteName name e) ≠ none →
      c.state.state.cluster.lookup .securityPolicy (modelAuthPolicyName name e) ≠ none) ∧
    ∀ {q : Request Body} {next : Answer q → Program (Request Body) Answer Outcome},
      c.threads () = some (.call q next) →
      q.target = some (.aiGatewayRoute, modelRouteName name e) →
      ∃ model clientIDs names, Working c.state.log name model ∧
      Identified c.state.log name clientIDs ∧
        Pooled c.state.log name names ∧
        ApplyRequest c.state.log .aiGatewayRoute (mergeAll (buildRoute ⟨model, name⟩ r.config e))
          (buildRoute ⟨model, name⟩ r.config e) q ∧
        Stored c.state.state.cluster name e (r.policy ⟨model, name⟩ clientIDs names e).body := by
  obtain ⟨hinv, hthread⟩ :=
    machine_loops.reachable (I := Inv r name) follows_reconcile (fun s h => ⟨h.1, .init h⟩)
    (fun s q a s' hinv hallowed hexec => hinv.exec hserved hallowed (observed_of_exec hexec)
      (machine_loops.exec () s q a s' hexec))
    (fun s hinv => hinv.finish)
    (fun s s' hinv henv => by
      obtain ⟨q, a, hforeign, hexec, hlog⟩ := exec_of_env henv
      exact hinv.env hforeign hexec hlog) hreach
  refine ⟨hinv.routes e, fun hcall htarget => ?_⟩
  have hallowed := (hthread _ hcall).1
  obtain ⟨model, ⟨rendered, hrendered, happlied | hunserved⟩, hwrite⟩ :=
    hallowed.route_of_target htarget
  · obtain ⟨hstored, _⟩ := hinv.applied e rendered hrendered.name_eq happlied
    obtain ⟨hworking, _, clientIDs, names, hids, hpool, rfl⟩ := hrendered
    exact ⟨model, clientIDs, names, hworking, hids, hpool, hwrite, hstored⟩
  · exact absurd hunserved hinv.served

/-- A reconciler with a Gateway for both endpoints. -/
def servingReconciler : LLMModelReconciler where
  config :=
    { baseDomain := "example.org"
      externalGatewayName := "external"
      externalGatewayNS := "envoy-gateway-system"
      internalGatewayName := "internal"
      internalGatewayNS := "envoy-gateway-system"
      oidcIssuerURL := "https://keycloak.example.org/realms/main"
      oidcGroupsClaim := "groups" }
  «namespace» := "llm-serving"
  sha256 _ := List.replicate 32 0
  parseQuantity _ := .ok ()
  jsonToYAML json := .ok json

def chat : LLMModel where
  spec := { model := { name := "org/chat", source := modelSourceOCI } }
  status := { phase := .starting }

/-- A model that waits for its Deployment, which by now is ready. -/
def served : Cluster := clusterAfter
  [.create .llmModel "chat" ⟨{ finalizers := [finalizerName] }, chat⟩,
    .updateStatus .llmModel "chat" ⟨{ resourceVersion := 1 }, chat⟩,
      .create .deployment "chat" ⟨{}, { replicas := some 1 }⟩,
    .updateStatus .deployment "chat" ⟨{ resourceVersion := 3 }, { readyReplicas := 1 }⟩]

/-- The requests of one reconcile, up to the creation of the internal route. -/
def opening : List (Machine.Move Unit Choice) :=
  .start () .reply :: List.replicate 40 (.answer () .reply)

/-- Whether a reconcile is about to write a route of the model. -/
def writesRoute (name : GoString) (e : Endpoint) :
    Option (Program (Request Body) Answer Outcome) → Bool
  | some (.call q _) => q.target == some (.aiGatewayRoute, modelRouteName name e)
  | _ => false

private theorem served_fresh : Fresh "chat" (runIn served) := by
  refine ⟨rfl, fun e => ?_⟩
  cases e <;> exact ⟨rfl, rfl⟩

private theorem opening_ends :
    ((runner (fun _ _ => false) (servingReconciler.reconcile "chat")).run opening ⟨runIn served,
      fun _ => none⟩).any
      (fun c => (c.state.state.cluster.lookup .aiGatewayRoute
        (modelRouteName "chat" .external)).isSome &&
        writesRoute "chat" .internal (c.threads ())) = true := by
  decide +kernel

/-- A reconcile has opened the external route and is about to open the internal
one: the external policy is stored, and so is the internal one as it was rendered. -/
theorem opening_guarded : ∃ c : Config Run (Request Body) Answer Outcome Unit,
    c.state.state.cluster.lookup .securityPolicy (modelAuthPolicyName "chat" .external) ≠ none ∧
    ∃ model clientIDs names, Working c.state.log "chat" model ∧
    Identified c.state.log "chat" clientIDs ∧
      Stored c.state.state.cluster "chat" .internal
        (servingReconciler.policy ⟨model, "chat"⟩ clientIDs names .internal).body := by
  obtain ⟨c, hrun, hends⟩ := (Option.any_eq_true _ _).mp opening_ends
  rw [Bool.and_eq_true, Option.isSome_iff_ne_none] at hends
  have hreach : (machine (fun _ => False) (foreign "chat")
      (servingReconciler.reconcile "chat")).Reachable (Fresh "chat") c :=
    (runner_sound _ (fun _ _ h => nomatch h)).reachable (.init served_fresh) hrun
  refine ⟨c, (route_never_without_policy servingReconciler "chat" id hreach .external).1 hends.1,
    ?_⟩
  have hwrites := hends.2
  unfold writesRoute at hwrites
  split at hwrites
  · next q next hcall =>
    obtain ⟨model, clientIDs, names, hworking, hids, _, _, hstored⟩ :=
      (route_never_without_policy servingReconciler "chat" id hreach .internal).2 hcall
        (eq_of_beq hwrites)
    exact ⟨model, clientIDs, names, hworking, hids, hstored⟩
  · cases hwrites

end Runs

end routeguard
