import ServingPack.Operator.KeyCleanup

open golang apiserver concurrency Protocol kube v1alpha1 config reconcilers controller

namespace endpointremoval

open PassthroughModelReconciler
open keycleanup (passthroughReconciler relay)

/-- Anything may happen next to the reconciler, but only it creates the model's
routes, and the gateway generates an HTTPRoute from a route that is there. -/
def foreign (name : GoString) (s : Cluster) : Request Body → Prop
  | .create .aiGatewayRoute name' _ => ∀ e, name' ≠ modelRouteName name e
  | .create .httpRoute name' _ =>
      ∀ e, name' = modelRouteName name e → s.lookup .aiGatewayRoute name' ≠ none
  | _ => True

/-- Neither the endpoint's route is there nor the one the gateway generates from it. -/
def Unreachable (s : Cluster) (name : GoString) (e : Endpoint) : Prop :=
  s.lookup .aiGatewayRoute (modelRouteName name e) = none ∧
    s.lookup .httpRoute (modelRouteName name e) = none

/-- The model the reconcile works on has the endpoint enabled. -/
def EnabledIn (log : CallLog) (name : GoString) (e : Endpoint) : Prop :=
  ∃ pm, Working log name pm ∧ passthroughEnabled pm.body.spec e = true

section Invariant

variable {r : PassthroughModelReconciler} {name : GoString} {s s' : Run} {absent : Kind → Prop}
  {q : Request Body} {a : Answer q} {e : Endpoint} {log log' : CallLog}

private theorem EnabledIn.suffix (h : EnabledIn log name e) (hlog : log <:+ log') :
    EnabledIn log' name e := by
  obtain ⟨pm, hworking, henabled⟩ := h
  exact ⟨pm, hworking.suffix hlog, henabled⟩

/-- What the running reconcile has seen go stays away, unless it serves the endpoint itself. -/
structure Inv (name : GoString) (s : Run) : Prop where
  missed : ∀ e, Missed s.log .aiGatewayRoute (modelRouteName name e) →
    s.state.cluster.lookup .aiGatewayRoute (modelRouteName name e) = none ∨ EnabledIn s.log name e
  cleared : ∀ e, Cleared s.log name e → Unreachable s.state.cluster name e ∨ EnabledIn s.log name e

/-- A reconcile creates a route only for an endpoint it serves. -/
theorem enabledIn_of_create {submitted : Object (Body .aiGatewayRoute)}
    (h : r.Allowed name log (.create .aiGatewayRoute (modelRouteName name e) submitted)) :
    EnabledIn log name e := by
  cases h with
  | keys _ h => rcases h with h | h <;> cases h
  | backend _ hbackend h =>
    obtain ⟨rfl, _⟩ := Prod.mk.inj (Option.some.inj (applyRequest_target h))
    exact absurd hbackend (by decide)
  | @route pm hworking e' henabled _ h =>
    obtain ⟨_, hname⟩ := Prod.mk.inj (Option.some.inj (applyRequest_target h))
    obtain rfl : e' = e := modelRouteName_injective hname.symm
    exact ⟨pm, hworking, henabled⟩
  | policy _ _ h => cases h

/-- A reconcile creates none of the routes that the gateway generates. -/
theorem not_create_httpRoute {name' : GoString} {submitted : Object (Body .httpRoute)} :
    ¬r.Allowed name log (.create .httpRoute name' submitted) := by
  intro h
  cases h with
  | keys _ h => rcases h with h | h <;> cases h
  | backend _ hbackend h =>
    obtain ⟨rfl, _⟩ := Prod.mk.inj (Option.some.inj (applyRequest_target h))
    exact absurd hbackend (by decide)
  | route _ _ h => cases h
  | policy _ _ h => cases h

/-- An object that is not there comes only with a create. -/
theorem none_of_not_create {t t' : Cluster} {kind : Kind} {name' : GoString}
    (horigin : ∀ object, t'.lookup kind name' = some object → Origin t kind name' q object)
    (hcreate : ∀ submitted, q ≠ .create kind name' submitted) (hnone : t.lookup kind name' = none) :
    t'.lookup kind name' = none := by
  by_contra hsome
  obtain ⟨object, hobject⟩ := Option.ne_none_iff_exists'.mp hsome
  obtain ⟨submitted, hq⟩ := (horigin object hobject).create_of_none hnone
  exact hcreate submitted hq

/-- A read that is not answered from the cache and misses an object has found none. -/
theorem none_of_missed {h h' : History Body} {kind : Kind} {name' : GoString} {err : StatusError}
    (hobserved : Observed absent cached h (.get kind name') (.error err) h')
    (hcached : cached kind = false) (hreason : err.reason = .notFound ∨ err.reason = .noMatch) :
    h'.current.lookup kind name' = none := by
  generalize ha : (Except.error err : Answer (.get kind name' : Request Body)) = a at hobserved
  cases hobserved with
  | direct hexec =>
    subst ha
    rw [History.advance, hexec.get.1]
    exact hexec.get_absent hreason
  | cachedGet hkind =>
    rw [hcached] at hkind
    cases hkind

private theorem missed_cons {name' : GoString} {kind : Kind}
    (h : Missed (⟨q, a⟩ :: log) kind name') :
    Missed log kind name' ∨ ∃ err : StatusError, (err.reason = .notFound ∨ err.reason = .noMatch) ∧
      (⟨q, a⟩ : Σ q : Request Body, Answer q) = ⟨.get kind name', .error err⟩ := by
  obtain ⟨err, hreason, htold⟩ := h
  rcases List.mem_cons.mp htold with heq | hold
  · exact .inr ⟨err, hreason, heq.symm⟩
  · exact .inl ⟨err, hreason, hold⟩

private theorem cleared_cons (h : Cleared (⟨q, a⟩ :: log) name e) : Cleared log name e ∨
    Missed log .aiGatewayRoute (modelRouteName name e) ∧ ∃ err : StatusError,
      (err.reason = .notFound ∨ err.reason = .noMatch) ∧
        (⟨q, a⟩ : Σ q : Request Body, Answer q) = ⟨.get .httpRoute (modelRouteName name e),
          .error err⟩ := by
  obtain ⟨earlier, err, hreason, hsuffix, hmissed⟩ := h
  rcases List.suffix_cons_iff.mp hsuffix with heq | hlater
  · obtain ⟨hhead, rfl⟩ := List.cons.inj heq
    exact .inr ⟨hmissed, err, hreason, hhead.symm⟩
  · exact .inl ⟨earlier, err, hreason, hlater, hmissed⟩

private theorem Inv.exec (hinv : Inv name s) (hallowed : r.Allowed name s.log q)
    (hobserved : Observed absent cached s.state.history q a s'.state.history)
    (hlog : s'.log = ⟨q, a⟩ :: s.log) :
    Inv name s' := by
  have hsuffix : s.log <:+ s'.log := hlog ▸ List.suffix_cons _ _
  have hroute : ∀ e, s.state.cluster.lookup .aiGatewayRoute (modelRouteName name e) = none ∨
    EnabledIn s.log name e →
      s'.state.cluster.lookup .aiGatewayRoute (modelRouteName name e) = none ∨
        EnabledIn s'.log name e := by
    rintro e (hnone | henabled)
    · by_cases hcreate : ∃ submitted, q = .create .aiGatewayRoute (modelRouteName name e) submitted
      · obtain ⟨submitted, rfl⟩ := hcreate
        exact .inr ((enabledIn_of_create hallowed).suffix hsuffix)
      · exact .inl (none_of_not_create (fun _ => hobserved.origin)
          (fun submitted hq => hcreate ⟨submitted, hq⟩) hnone)
    · exact .inr (henabled.suffix hsuffix)
  have hhttpRoute : ∀ e, s.state.cluster.lookup .httpRoute (modelRouteName name e) = none →
      s'.state.cluster.lookup .httpRoute (modelRouteName name e) = none := by
    refine fun e => none_of_not_create (fun _ => hobserved.origin) ?_
    rintro submitted rfl
    exact not_create_httpRoute hallowed
  refine ⟨fun e hmissed => ?_, fun e hcleared => ?_⟩
  · rw [hlog] at hmissed
    rcases missed_cons hmissed with hold | ⟨err, hreason, heq⟩
    · exact hroute e (hinv.missed e hold)
    · cases heq
      exact .inl (none_of_missed hobserved rfl hreason)
  · rw [hlog] at hcleared
    rcases cleared_cons hcleared with hold | ⟨hmissed, err, hreason, heq⟩
    · rcases hinv.cleared e hold with ⟨hnoRoute, hnoHTTPRoute⟩ | henabled
      · exact (hroute e (.inl hnoRoute)).imp_left (fun hnone => ⟨hnone, hhttpRoute e hnoHTTPRoute⟩)
      · exact .inr (henabled.suffix hsuffix)
    · cases heq
      exact (hroute e (hinv.missed e hmissed)).imp_left
        (fun hnone => ⟨hnone, none_of_missed hobserved rfl hreason⟩)

private theorem Inv.env (hinv : Inv name s) (hforeign : foreign name s.state.cluster q)
    (hexec : Exec absent s.state.cluster q a s'.state.cluster) (hlog : s'.log = s.log) :
    Inv name s' := by
  have hroute : ∀ e, s.state.cluster.lookup .aiGatewayRoute (modelRouteName name e) = none →
      s'.state.cluster.lookup .aiGatewayRoute (modelRouteName name e) = none := by
    refine fun e => none_of_not_create (fun _ => hexec.origin) ?_
    rintro submitted rfl
    exact hforeign e rfl
  refine ⟨fun e hmissed => ?_, fun e hcleared => ?_⟩
  · rw [hlog] at hmissed ⊢
    exact (hinv.missed e hmissed).imp_left (hroute e)
  · rw [hlog] at hcleared ⊢
    refine (hinv.cleared e hcleared).imp_left
      (fun ⟨hnoRoute, hnoHTTPRoute⟩ => ⟨hroute e hnoRoute, ?_⟩)
    refine none_of_not_create (fun _ => hexec.origin) ?_ hnoHTTPRoute
    rintro submitted rfl
    exact hforeign e rfl hnoRoute

private theorem Inv.of_nil (h : s.log = []) : Inv name s := by
  refine ⟨?_, ?_⟩
  · rintro e ⟨err, _, htold⟩
    rw [h] at htold
    cases htold
  · rintro e ⟨earlier, err, _, hsuffix, _⟩
    rw [h] at hsuffix
    cases List.eq_nil_of_suffix_nil hsuffix

end Invariant

section Runs

variable {r : PassthroughModelReconciler} {name : GoString} {absent : Kind → Prop}

/-- The deletion of a policy by the reconciler: of the policy it has read, which
the model controls, and whose endpoint the model has disabled. -/
def OwnDisabled (log : CallLog) (name : GoString) (e : Endpoint) (p : Preconditions) : Prop :=
  ∃ pm policy, Working log name pm ∧ passthroughEnabled pm.body.spec e = false ∧
    Told log (.get .securityPolicy (modelAuthPolicyName name e)) (.ok policy) ∧
    isControlledBy policy (Named.mk pm name) = true ∧
    p = { uid := some policy.metadata.uid, resourceVersion := some policy.metadata.resourceVersion }

private theorem removePolicy_of_delete {log : CallLog} {e : Endpoint} {p : Preconditions}
    (h : r.Allowed name log (.delete .securityPolicy (modelAuthPolicyName name e) p)) :
    OwnDisabled log name e p ∧ Cleared log name e := by
  generalize hname : modelAuthPolicyName name e = name' at h
  cases h with
  | deleteKeys _ hkey => rcases hkey with hkey | hkey <;> cases hkey
  | keys _ h => rcases h with h | h <;> cases h
  | backend _ _ h => cases h
  | route _ _ h => cases h
  | policy _ _ h => cases h
  | @removePolicy pm hworking e' hdisabled hcleared policy hpolicy hcontrolled =>
    obtain rfl : e = e' := modelAuthPolicyName_injective hname
    exact ⟨⟨pm, policy, hworking, hdisabled, hpolicy, hcontrolled, rfl⟩, hcleared⟩

/-- The authentication of an endpoint is removed last: whenever the reconciler is
about to delete a policy, neither the endpoint's route is there nor the HTTPRoute
the gateway generated from it. -/
theorem policy_removed_last (r : PassthroughModelReconciler) (name : GoString)
    {c : Config Run (Request Body) Answer Outcome Unit}
    (hreach : (machine absent (foreign name) (r.reconcile name)).Reachable (fun s => s.log = []) c)
    (e : Endpoint)
    {p : Preconditions} {q : Request Body} {next : Answer q → Program (Request Body) Answer Outcome}
    (hcall : c.threads () = some (.call q next))
    (hdelete : q = .delete .securityPolicy (modelAuthPolicyName name e) p) :
    Unreachable c.state.state.cluster name e ∧ OwnDisabled c.state.log name e p := by
  obtain ⟨hinv, hthread⟩ := machine_loops.reachable (I := Inv name) follows_reconcile
    (fun s h => ⟨h, .of_nil h⟩)
    (fun s q a s' hinv hallowed hexec => hinv.exec hallowed (observed_of_exec hexec)
      (machine_loops.exec () s q a s' hexec))
    (fun s _ => .of_nil rfl)
    (fun s s' hinv henv => by
      obtain ⟨q, a, hforeign, hexec, hlog⟩ := exec_of_env henv
      exact hinv.env hforeign hexec hlog) hreach
  subst hdelete
  obtain ⟨hown, hcleared⟩ := removePolicy_of_delete (hthread _ hcall).1
  refine ⟨(hinv.cleared e hcleared).resolve_right ?_, hown⟩
  rintro ⟨pm, hworking, henabled⟩
  obtain ⟨pm', _, hworking', hdisabled, _⟩ := hown
  obtain rfl := hworking.unique hworking'
  rw [henabled] at hdisabled
  cases hdisabled

/-- A model that has its external endpoint disabled. -/
def closed : PassthroughModel := { relay with spec.endpoints.external.enabled := some false }

/-- What is left of the endpoint once its routes are gone: the policy. -/
def guarded : Cluster := clusterAfter
  [.create .passthroughModel "chat" ⟨{ finalizers := [finalizerName] }, closed⟩,
    .create .securityPolicy (modelAuthPolicyName "chat" .external)
      ⟨{ controller := some { kind := "PassthroughModel", name := "chat", uid := 1 } },
        { targetRef := "chat" }⟩]

/-- Whether a reconcile is about to delete the policy of an endpoint. -/
def deletesPolicy (name : GoString) (e : Endpoint) :
    Option (Program (Request Body) Answer Outcome) → Option Preconditions
  | some (.call (.delete kind name' p) _) =>
    if kind = .securityPolicy ∧ name' = modelAuthPolicyName name e then some p else none
  | _ => none

private theorem deletesPolicy_eq {name : GoString} {e : Endpoint}
    {thread : Option (Program (Request Body) Answer Outcome)}
    {p : Preconditions} (h : deletesPolicy name e thread = some p) :
    ∃ q next, thread = some (.call q next) ∧
    q = .delete .securityPolicy (modelAuthPolicyName name e) p := by
  unfold deletesPolicy at h
  split at h
  · next kind name' p' next =>
    split_ifs at h with hkey
    obtain ⟨rfl, rfl⟩ := hkey
    obtain rfl := Option.some.inj h
    exact ⟨_, next, rfl, rfl⟩
  · cases h

private theorem removal_ends :
    ((runner (fun _ _ => false) (passthroughReconciler.reconcile "chat")).run
      (.start () .reply :: List.replicate 19 (.answer () .reply)) ⟨runIn guarded,
        fun _ => none⟩).any
      (fun c => (deletesPolicy "chat" .external (c.threads ())).isSome) = true := by
  decide +kernel

/-- A reconcile of a model with a disabled endpoint comes to delete its policy,
with no route left that it guards. -/
theorem removal_guarded : ∃ (c : Config Run (Request Body) Answer Outcome Unit) (p : Preconditions),
    deletesPolicy "chat" .external (c.threads ()) = some p ∧
    Unreachable c.state.state.cluster "chat" .external := by
  obtain ⟨c, hrun, hc⟩ := (Option.any_eq_true _ _).mp removal_ends
  obtain ⟨p, hp⟩ := Option.isSome_iff_exists.mp hc
  have hreach :
    (machine (fun _ => False) (foreign "chat") (passthroughReconciler.reconcile "chat")).Reachable
      (fun s => s.log = []) c :=
    (runner_sound _ (fun _ _ h => nomatch h)).reachable (.init rfl) hrun
  obtain ⟨q, next, hcall, hdelete⟩ := deletesPolicy_eq hp
  exact ⟨c, p, hp, (policy_removed_last passthroughReconciler "chat" hreach .external hcall
    hdelete).1⟩

end Runs

end endpointremoval
