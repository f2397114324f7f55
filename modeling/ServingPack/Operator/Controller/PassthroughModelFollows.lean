import ServingPack.Operator.Controller.PassthroughModelSteps

open golang apiserver concurrency kube v1alpha1 config reconcilers

namespace controller

namespace PassthroughModelReconciler

open Protocol

variable {r : PassthroughModelReconciler} {name : GoString} {log : CallLog}
  {pm : Object (Body .passthroughModel)}

/-- A step of the reconcile that asks only what is allowed. -/
abbrev Keeping (r : PassthroughModelReconciler) (name : GoString) (log : CallLog) {α : Type}
    (x : Call α) : Prop :=
  controller.Keeping (r.Allowed name) log x

section Apply

private theorem keeping_keys {text : GoString} {kind : Kind} {desired : Named (Body kind)}
    (hwrite : ∀ log' q, log <:+ log' → ApplyRequest log' kind (mergeLabels desired) desired q →
      r.Allowed name log' q) :
    r.Keeping name log (orFail text (createOrUpdateLabels kind desired)) :=
  keeping_orFail (keeping_createOrUpdate (allowed_reads r) hwrite)

private theorem keeping_applyAll (objects : List AppliedObject) (firstErr : Option StatusError)
    (hobjects : ∀ object ∈ objects, ∀ log' q, log <:+ log' →
      ApplyRequest log' object.1 (mergeAll (owned name pm object.2)) (owned name pm object.2) q →
      r.Allowed name log' q) :
    r.Keeping name log (applyAll ⟨pm, name⟩ firstErr objects) := by
  induction objects generalizing log firstErr with
  | nil => exact keeping_pure firstErr
  | cons object rest ih =>
    refine keeping_attempt
      (keeping_createOrUpdate (allowed_reads r) (hobjects object (List.mem_cons_self ..)))
      (fun res log' hlog => ?_)
    have hrest : ∀ firstErr, r.Keeping name log' (applyAll ⟨pm, name⟩ firstErr rest) :=
      fun firstErr =>
      ih firstErr (fun object' hmem log'' q hlog' =>
        hobjects object' (List.mem_cons_of_mem _ hmem) log'' q (hlog.trans hlog'))
    cases res with
    | ok value => exact hrest _
    | error e => exact hrest _

end Apply

section Remove

/-- An object that is not removed was not there. -/
theorem follows_removeControlledObject {kind : Kind} {kindName name' : GoString}
    (hdelete : ∀ log' object, log <:+ log' → Told log' (.get kind name') (.ok object) →
      isControlledBy object (Named.mk pm name) = true → r.Allowed name log' (.delete kind name'
        { uid := some object.metadata.uid,
          resourceVersion := some object.metadata.resourceVersion })) :
    (logged (r.Allowed name)).Follows log
      (removeControlledObject ⟨pm, name⟩ kind kindName name').run
      (fun res log' => res = .ok false → Missed log' kind name') := by
  refine Follows.attemptThen (follows_ask (.get _ _)) (fun res log' hlog htold => ?_)
  cases res with
  | error e =>
    change (logged (r.Allowed name)).Follows log'
      (ExceptT.run (if e.reason = .notFound ∨ e.reason = .noMatch then pure false else throw e)) _
    split_ifs with hreason
    · exact fun _ => ⟨e, hreason, htold⟩
    · exact nofun
  | ok object =>
    change (logged (r.Allowed name)).Follows log'
      (ExceptT.run (if isControlledBy object (Named.mk pm name) then
      if object.metadata.deletionTimestamp then pure true else _ else throw _)) _
    split_ifs with hcontrolled hdeleting
    · exact nofun
    · refine Follows.andThen (follows_deleteFound (hdelete log' object hlog htold hcontrolled)) ?_
        (fun _ _ _ _ => nofun)
      exact fun _ _ _ _ => nofun
    · exact nofun

private theorem keeping_removePolicy (hworking : Working log name pm) {e : Endpoint}
    (hdisabled : passthroughEnabled pm.body.spec e = false)
    (hmissed : Missed log .aiGatewayRoute (modelRouteName name e)) :
    r.Keeping name log (removePolicy ⟨pm, name⟩ e) := by
  refine ⟨.get _ _, fun found => ?_⟩
  cases found with
  | ok httpRoute => exact keeping_pure true
  | error err =>
    change (logged (r.Allowed name)).Follows _
      (ExceptT.run (if err.reason = .notFound ∨ err.reason = .noMatch then
      removeControlledObject ⟨pm, name⟩ .securityPolicy "SecurityPolicy"
        (modelAuthPolicyName name e) else throw err)) _
    split_ifs with hreason
    · refine (follows_removeControlledObject (fun log' policy hlog htold hcontrolled => ?_)).mono
        (fun _ _ _ => trivial)
      exact .removePolicy (hworking.suffix ((List.suffix_cons _ _).trans hlog)) hdisabled
        ⟨log, err, hreason, hlog, hmissed⟩ htold hcontrolled
    · trivial

private theorem keeping_removeEndpoint (hworking : Working log name pm) {e : Endpoint}
    (hdisabled : passthroughEnabled pm.body.spec e = false) :
    r.Keeping name log (removeEndpoint ⟨pm, name⟩ e) := by
  refine Follows.andThen (follows_removeControlledObject (fun log' route hlog htold hcontrolled =>
    .removeRoute (hworking.suffix hlog) hdisabled htold hcontrolled))
      (fun pending log' hlog hmissed => ?_) (fun _ _ _ _ => trivial)
  cases pending with
  | true => exact keeping_pure true
  | false => exact keeping_removePolicy (hworking.suffix hlog) hdisabled (hmissed rfl)

end Remove

section Endpoints

/-- An endpoint that is enabled is applied, and one that is not is removed. -/
theorem keeping_endpoint (hworking : Working log name pm) (e : Endpoint) (okMessage : GoString)
    (clientIDs names : List GoString) :
    r.Keeping name log (reconcileEndpoint ⟨pm, name⟩ e okMessage
      (if passthroughEnabled pm.body.spec e then some (policy r.config ⟨pm, name⟩ clientIDs names e)
        else none)
      (if passthroughEnabled pm.body.spec e then some (buildPassthroughRoute ⟨pm, name⟩ r.config e)
        else none)) := by
  split_ifs with henabled
  · refine keeping_bind (keeping_applyAll _ _ (fun object hmem log' q hlog h => ?_))
      (fun _ _ _ => trivial)
    rcases List.mem_cons.mp hmem with rfl | hmem
    · exact .route (hworking.suffix hlog) henabled h
    · obtain rfl := List.mem_singleton.mp hmem
      exact .policy (hworking.suffix hlog) henabled h
  · refine keeping_attempt (keeping_removeEndpoint hworking (Bool.not_eq_true _ ▸ henabled))
      (fun res log' _ => ?_)
    cases res with
    | ok pending => trivial
    | error err => trivial

end Endpoints

section Reconcile

private theorem keeping_updateStatus (hworking : Working log name pm)
    (phase : PassthroughModelPhase) (providerHostname : GoString) (conditions : List Condition) :
    r.Keeping name log (r.updateStatus name phase providerHostname conditions) := by
  refine Follows.attemptThen (follows_ask (.get _ _)) (fun res log' hlog htold => ?_)
  cases res with
  | ok fresh =>
    exact keeping_bind (keeping_ask
      (.writeStatus (hworking.suffix hlog) htold phase providerHostname conditions))
      (fun _ _ _ => trivial)
  | error e =>
    change (logged (r.Allowed name)).Follows log'
      (ExceptT.run (if e.reason = .notFound then pure () else throw e)) _
    split_ifs <;> trivial

private theorem keeping_credentialConditions :
    r.Keeping name log (credentialConditions ⟨pm, name⟩) := by
  unfold credentialConditions
  split_ifs
  · refine keeping_bind ?_ (fun _ _ _ => trivial)
    exact keeping_attempt (keeping_ask (.get _ _)) (fun _ _ _ => trivial)
  · trivial

private theorem keeping_reconcileResources (hworking : Working log name pm)
    {clientIDs names : List GoString} {resources : PassthroughResources}
    (h : buildPassthroughResources r.resolve ⟨pm, name⟩ r.config clientIDs names = .ok resources)
    (conditions : List Condition) :
    r.Keeping name log (r.reconcileResources ⟨pm, name⟩ resources conditions) := by
  unfold buildPassthroughResources at h
  split at h
  · cases h
  · obtain rfl := Except.ok.inj h
    refine keeping_bind (keeping_keys (fun _ _ hlog h => .keys (hworking.suffix hlog) (.inl h)))
      (fun _ log₁ hlog₁ => ?_)
    have hworking₁ := hworking.suffix hlog₁
    refine keeping_bind (keeping_keys (fun _ _ hlog h => .keys (hworking₁.suffix hlog) (.inr h)))
      (fun _ log₂ hlog₂ => ?_)
    have hworking₂ := hworking₁.suffix hlog₂
    refine keeping_bind (keeping_applyAll _ _ (fun object hmem log' q hlog h => ?_))
      (fun backendErr log₃ hlog₃ => ?_)
    · refine .backend (hworking₂.suffix hlog) ?_ h
      simp only [List.mem_cons, List.not_mem_nil, or_false] at hmem
      rcases hmem with rfl | rfl | rfl | rfl <;> simp [backendKinds]
    have hworking₃ := hworking₂.suffix hlog₃
    refine keeping_bind (keeping_endpoint hworking₃ .external _ clientIDs names)
      (fun external log₄ hlog₄ => ?_)
    have hworking₄ := hworking₃.suffix hlog₄
    refine keeping_bind (keeping_endpoint hworking₄ .internal _ clientIDs names)
      (fun internal log₅ hlog₅ => ?_)
    exact keeping_bind (keeping_updateStatus (hworking₄.suffix hlog₅) _ _ _) (fun _ _ _ => trivial)

private theorem keeping_reconcileModel (hworking : Working log name pm) :
    r.Keeping name log (r.reconcileModel ⟨pm, name⟩) := by
  refine keeping_bind keeping_credentialConditions (fun conditions log₁ hlog₁ => ?_)
  refine keeping_bind (keeping_orFail ?_) (fun clientIDs log₂ hlog₂ => ?_)
  · refine keeping_attempt (keeping_ask (.get _ _)) (fun res log' _ => ?_)
    cases res with
    | ok secret => trivial
    | error e =>
      change (logged (r.Allowed name)).Follows log'
        (ExceptT.run (if e.reason = .notFound then pure [] else throw e)) _
      split_ifs <;> trivial
  refine keeping_bind (keeping_orFail ?_) (fun names log₃ hlog₃ => ?_)
  · exact keeping_bind (keeping_ask (.list _ _)) (fun _ _ _ => trivial)
  have hworking₃ := hworking.suffix (hlog₁.trans (hlog₂.trans hlog₃))
  dsimp only
  cases hbuilt : buildPassthroughResources r.resolve ⟨pm, name⟩ r.config clientIDs names with
  | error e => exact keeping_bind (keeping_orSkip (keeping_updateStatus hworking₃ _ _ _)) (fun _ _ _ => trivial)
  | ok resources => exact keeping_reconcileResources hworking₃ hbuilt conditions

private theorem keeping_reconcileDelete {first : Object (Body .passthroughModel)}
    (hbegan : Began log name first) (htimestamp : first.metadata.deletionTimestamp = true) :
    r.Keeping name log (reconcileDelete ⟨first, name⟩) := by
  unfold reconcileDelete
  split_ifs with hfinalizer
  swap
  · trivial
  have hdeleting : Deleting log name first := ⟨hbegan, htimestamp, hfinalizer⟩
  refine Follows.andThen (follows_deleteIfFound (allowed_reads r)
    (fun _ hlog => .deleteKeys (hdeleting.suffix hlog) (.inl rfl))) (fun _ log₁ hlog₁ hsecret => ?_)
      (fun _ _ _ _ => trivial)
  have hdeleting₁ := hdeleting.suffix hlog₁
  refine Follows.andThen (follows_deleteIfFound (allowed_reads r)
    (fun _ hlog => .deleteKeys (hdeleting₁.suffix hlog) (.inr rfl)))
      (fun _ log₂ hlog₂ hconfigMap => ?_)
    (fun _ _ _ _ => trivial)
  exact keeping_bind (keeping_orFail (keeping_ask (.removeFinalizer (hdeleting₁.suffix hlog₂)
    ((hsecret () rfl).suffix hlog₂) (hconfigMap () rfl)))) (fun _ _ _ => trivial)

/-- A reconcile asks only what is allowed. -/
theorem follows_reconcile :
    (logged (r.Allowed name)).Follows [] (r.reconcile name).run (fun _ _ => True) := by
  refine ⟨.get _ _, fun res => ?_⟩
  cases res with
  | error e =>
    change (logged (r.Allowed name)).Follows _
      (ExceptT.run (if e.reason = .notFound then pure Result.done else throw e)) _
    split_ifs <;> trivial
  | ok first =>
    have hbegan : Began [⟨.get .passthroughModel name, .ok first⟩] name first := List.suffix_refl _
    change (logged (r.Allowed name)).Follows _ (r.reconcileFound ⟨first, name⟩).run _
    unfold reconcileFound
    split_ifs with htimestamp hfinalizer
    · exact keeping_reconcileDelete hbegan htimestamp
    · exact keeping_reconcileModel ⟨first, hbegan, Bool.not_eq_true _ ▸ htimestamp,
        .inl ⟨hfinalizer, rfl⟩⟩
    · have hlive : first.metadata.deletionTimestamp = false := Bool.not_eq_true _ ▸ htimestamp
      have hadded : (logged (r.Allowed name)).Follows [⟨.get .passthroughModel name, .ok first⟩]
          (orFail "adding finalizer" (update .passthroughModel name (addFinalizer first))).run
          (fun res log' => ∀ stored, res = .ok stored →
            FirstTold log' (.update .passthroughModel name (addFinalizer first)) (.ok stored)) := by
        refine follows_orFail ((follows_askFirst (.addFinalizer hbegan hlive) ?_).mono ?_)
        · rintro b (_ | ⟨_, ⟨⟩⟩)
        · rintro res log' ⟨_, htold⟩ stored rfl
          exact htold
      refine Follows.andThen hadded (fun stored log' hlog h => ?_) (fun _ _ _ _ => trivial)
      exact keeping_reconcileModel ⟨first, hbegan.suffix hlog, hlive,
        .inr ⟨Bool.not_eq_true _ ▸ hfinalizer, h stored rfl⟩⟩

end Reconcile

end PassthroughModelReconciler

end controller
