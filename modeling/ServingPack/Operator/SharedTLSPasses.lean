import Mathlib.Data.Set.Finite.Basic
import ServingPack.Operator.SharedTLS

open golang apiserver concurrency unstructured reconcilers controller controller.ClusterTLSSingleton
  listenerpolicies
  sharedlisteners specequality upkeep

namespace sharedtls

/-- A delete of a kind that is not installed is of an object that is not there. -/
def Installed (s : State) : (request : Request) → Answer request → Prop
  | .delete obj, .error e => e.reason = .noMatch → s.objects (keyOf obj) = none
  | _, _ => True

/-- How the server answers a request. The kinds it deletes objects of need not be installed. -/
def Serves (s : State) (request : Request) (answer : Answer request) (s' : State) : Prop :=
  Exec s request answer s' ∧ Installed s request answer

/-- What the reconciler keeps in order. -/
def plan (t : Tools) (c : SharedTLSConfig) : Plan State Part where
  goal i s := Wanted c i → InOrder t c i s
  inv := Ready t c
  may := Confined c
  refl := Confined.refl c
  trans := Confined.trans

section Parts

variable {t : Tools} {c : SharedTLSConfig} {s s' : State} {i : Part} {res : Except StatusError Unit}
  {log : List (Σ request : Request, Answer request)}

private theorem exec_of_serves {α : Type} {p : Program Request Answer α} {value : α}
    (h : Program.RunsOn Serves s p log value s') : Program.RunsOn Exec s p log value s' :=
  h.mono (fun _ _ _ _ hserves => hserves.1)

/-- A program whose writes go to one part, and which puts that in order. -/
theorem upkept_of_moved (hs : Ready t c s) (hwanted : Wanted c i) (hmoved : Moved c i s s')
    (hdone : res = .ok () → InOrder t c i s') (hidle : InOrder t c i s → s' = s) :
    Upkept (plan t c) {i} s res s' where
  inv := hmoved.ready hs
  may := hmoved.confined hwanted
  others := by
    intro j hj hgoal hwantedj
    exact hmoved.inOrder hs (fun heq => hj (Set.mem_singleton_iff.mpr heq)) hwantedj
      (hgoal hwantedj)
  done := by
    intro hok j hj _
    rw [Set.mem_singleton_iff] at hj
    rw [hj]
    exact hdone hok
  idle := fun hgoal => hidle (hgoal i (Set.mem_singleton i) hwanted)

/-- A program that changes nothing and succeeds only where the part is in order. -/
theorem upkept_of_same (hs : Ready t c s) (hdone : res = .ok () → InOrder t c i s) :
    Upkept (plan t c) {i} s res s := by
  apply upkept_same hs
  intro hok j hj _
  rw [Set.mem_singleton_iff] at hj
  rw [hj]
  exact hdone hok

private theorem createOrUpdate_outcome {desired : Unstructured}
    (hrun : Program.RunsOn Exec s (createOrUpdateUnstructured desired).run log res s') :
    (∀ key, key ≠ keyOf desired → s'.objects key = s.objects key) ∧
    (res = .ok () → Placed desired s') ∧
      (Placed desired s → s' = s) := by
  cases res with
  | error e =>
    obtain rfl := createOrUpdate_failed hrun
    exact ⟨fun _ _ => rfl, fun herror => (by cases herror), fun _ => rfl⟩
  | ok value =>
    obtain ⟨stored, hstored, hequal, -, hothers, -⟩ := createOrUpdate_leaves hrun
    refine ⟨hothers, fun _ => ⟨stored, hstored, hequal⟩, fun hplaced => ?_⟩
    obtain ⟨current, hcurrent, hplaced⟩ := hplaced
    obtain ⟨hnone, -⟩ | ⟨current', hcurrent', ⟨-, hsame⟩ | ⟨hdiffers, -⟩⟩ :=
      createOrUpdate_cases hrun
    · rw [hcurrent] at hnone
      cases hnone
    · exact hsame
    · obtain rfl := Option.some.inj (hcurrent.symm.trans hcurrent')
      rw [hplaced] at hdiffers
      cases hdiffers

/-- A part that one object is, created or updated. -/
theorem upkept_placed {desired : Unstructured} (hs : Ready t c s) (hwanted : Wanted c i)
    (hkey : keyOf desired = partKey c i)
    (hpolicy : ∀ e, i ≠ .policy e) (hlistener : ∀ e, i ≠ .listener e)
    (hgoal : ∀ s, InOrder t c i s ↔ Placed desired s)
    (hrun : Program.RunsOn Exec s (createOrUpdateUnstructured desired).run log res s') :
    Upkept (plan t c) {i} s res s' := by
  obtain ⟨honly, hdone, hidle⟩ := createOrUpdate_outcome hrun
  rw [hkey] at honly
  have hmoved : Moved c i s s' :=
    ⟨honly, fun e he => absurd he (hpolicy e), fun e he => absurd he (hlistener e),
    fun e he => absurd he (hlistener e)⟩
  exact upkept_of_moved hs hwanted hmoved (fun hok => (hgoal s').mpr (hdone hok))
    (fun hplaced => hidle ((hgoal s).mp hplaced))

private theorem maintains_grant {ns : GoString} (hwanted : Wanted c (.grant ns)) :
    Maintains Serves (plan t c) {.grant ns} (ensureReferenceGrant c ns) := by
  intro s log res s' hs hrun
  exact upkept_placed hs hwanted rfl (by simp) (by simp) (fun _ => Iff.rfl) (exec_of_serves hrun)

private theorem maintains_certificate (htls : c.tlsSecretName = []) :
    Maintains Serves (plan t c) {.source} (ensureCertificate c) := by
  intro s log res s' hs hrun
  rw [ensureCertificate] at hrun
  cases hbuilt : buildSharedCertificate c.baseDomain c.operatorNamespace c.clusterIssuerName with
  | error text =>
    rw [hbuilt] at hrun
    obtain ⟨-, rfl, rfl⟩ := hrun.pure_inv
    exact upkept_of_same hs (fun herror => by cases herror)
  | ok desired =>
    rw [hbuilt] at hrun
    refine upkept_placed hs trivial (keyOf_certificate hbuilt) (by simp) (by simp) (fun s => ?_)
      (exec_of_serves hrun)
    change Sourced c s ↔ Placed desired s
    rw [Sourced, if_neg (not_not.mpr htls)]
    constructor
    · intro hsourced
      obtain ⟨desired', hbuilt', hplaced⟩ := hsourced
      obtain rfl := Except.ok.inj (hbuilt.symm.trans hbuilt')
      exact hplaced
    · exact fun hplaced => ⟨desired, hbuilt, hplaced⟩

private theorem maintains_unmanaged (htls : c.tlsSecretName ≠ []) :
    Maintains Serves (plan t c) {.source} (deleteManagedCertificate c) := by
  intro s log res s' hs hrun
  have hgoal : ∀ s, InOrder t c .source s ↔ s.objects (partKey c .source) = none := by
    intro s
    change Sourced c s ↔ _
    rw [Sourced, if_pos htls]
  obtain ⟨answer, s₁, tail, hdelete, hend, -⟩ := Program.RunsOn.call_inv hrun
  have hrest : Program.RunsOn Serves s₁ (ignoreUnmanaged answer).run tail res s' := hend
  obtain ⟨hexec, hinstalled⟩ := hdelete
  -- An error changes nothing, and is passed over where there is no Certificate to delete.
  have hfailed :
    ∀ e, (e.reason = .notFound ∨ e.reason = .noMatch → s.objects (partKey c .source) = none) →
      Program.RunsOn Serves s (ignoreUnmanaged (.error e)).run tail res s' →
        Upkept (plan t c) {.source} s res s' := by
    intro e hnone hrest
    rw [ignoreUnmanaged] at hrest
    split_ifs at hrest with he
    · obtain ⟨-, -, rfl⟩ := hrest.pure_inv
      exact upkept_of_same hs (fun _ => (hgoal s').mpr (hnone he))
    · obtain ⟨-, rfl, rfl⟩ := hrest.pure_inv
      exact upkept_of_same hs (fun herror => by cases herror)
  cases hexec with
  | deleted hfound =>
    obtain ⟨-, rfl, rfl⟩ := hrest.pure_inv
    have hmoved : Moved c .source s (s.remove (partKey c .source)) :=
      ⟨fun key hkey => State.objects_remove_ne hkey, fun e he => (by cases he),
        fun e he => (by cases he),
        fun e he => (by cases he)⟩
    refine upkept_of_moved hs trivial hmoved (fun _ => (hgoal _).mpr State.objects_remove)
      (fun hnone => ?_)
    have hgone : s.objects (partKey c .source) = none := (hgoal s).mp hnone
    have hsome : (s.objects (partKey c .source)).isSome = true := hfound
    rw [hgone] at hsome
    cases hsome
  | deleteMissing hnone => exact hfailed _ (fun _ => hnone) hrest
  | deleteFails he =>
    apply hfailed _ _ hrest
    intro hreason
    exact hinstalled (hreason.resolve_left he)

private theorem maintains_check : Maintains Serves (plan t c) ∅ (checkUserSecret c) := by
  intro s log res s' hs hrun
  obtain ⟨answer, s₁, tail, hget, hend, -⟩ := Program.RunsOn.call_inv hrun
  obtain ⟨-, rfl, rfl⟩ := Program.RunsOn.pure_inv hend
  obtain ⟨hexec, -⟩ := hget
  have hsame : s' = s := by
    cases hexec with
    | found | missing | getFails => rfl
  subst hsame
  exact upkept_same hs (fun _ i hi => absurd hi (Set.notMem_empty i))

private theorem maintains_source : Maintains Serves (plan t c) {.source} (ensureTLSSource c) := by
  rw [ensureTLSSource]
  split_ifs with htls
  · rw [← Set.union_empty {Part.source}]
    exact (maintains_unmanaged htls).mapError.seq maintains_check (Set.disjoint_empty _)
  · exact (maintains_certificate (not_not.mp htls)).mapError

/-- The grants for some namespaces. -/
def grantParts (c : SharedTLSConfig) (namespaces : List GoString) : Set Part :=
  {i | ∃ ns ∈ namespaces, ns ≠ c.operatorNamespace ∧ i = .grant ns}

private theorem maintains_grants {namespaces : List GoString}
    (hsub : ∀ ns ∈ namespaces, ns ∈ distinctGatewayNamespaces c) (hnodup : namespaces.Nodup) :
    Maintains Serves (plan t c) (grantParts c namespaces) (ensureReferenceGrants c namespaces) := by
  induction namespaces with
  | nil =>
    have hempty : grantParts c [] = ∅ := by
      apply Set.eq_empty_of_forall_notMem
      rintro i ⟨ns, hns, -⟩
      cases hns
    rw [hempty, ensureReferenceGrants]
    exact maintains_pure
  | cons ns rest ih =>
    obtain ⟨hns, hrest⟩ := List.forall_mem_cons.mp hsub
    obtain ⟨hnotMem, hnodup⟩ := List.nodup_cons.mp hnodup
    have hkeeps := ih hrest hnodup
    rw [ensureReferenceGrants]
    split_ifs with hhome
    · have hsame : grantParts c (ns :: rest) = grantParts c rest := by
        ext i
        simp only [grantParts, List.mem_cons, exists_eq_or_imp, Set.mem_ofPred_eq,
          or_iff_right_iff_imp]
        exact fun h => absurd hhome h.1
      rw [hsame]
      exact hkeeps
    · have hsplit : grantParts c (ns :: rest) = {Part.grant ns} ∪ grantParts c rest := by
        ext i
        simp [grantParts, hhome]
      rw [hsplit]
      apply (maintains_grant ⟨hns, hhome⟩).mapError.seq hkeeps
      rw [Set.disjoint_singleton_left]
      rintro ⟨ns', hns', -, heq⟩
      obtain rfl := Part.grant.inj heq
      exact hnotMem hns'

/-- What the configuration calls for at each endpoint. -/
def endpointParts (c : SharedTLSConfig) (part : Endpoint → Part) : Set Part :=
  {i | ∃ e, Wanted c i ∧ i = part e}

private theorem endpointParts_of_wanted {part : Endpoint → Part} (h : ∀ e, Wanted c (part e)) :
    endpointParts c part = {part .external} ∪ {part .internal} := by
  ext i
  simp only [endpointParts, Set.mem_ofPred_eq, Set.mem_union, Set.mem_singleton_iff]
  constructor
  · rintro ⟨e, -, rfl⟩
    cases e with
    | external => exact .inl rfl
    | internal => exact .inr rfl
  · rintro (rfl | rfl)
    · exact ⟨_, h _, rfl⟩
    · exact ⟨_, h _, rfl⟩

private theorem endpointParts_of_not {part : Endpoint → Part} (h : ∀ e, ¬Wanted c (part e)) :
    endpointParts c part = ∅ := by
  apply Set.eq_empty_of_forall_notMem
  rintro i ⟨e, hwanted, rfl⟩
  exact h e hwanted

end Parts

section Policies

variable {t : Tools} {c : SharedTLSConfig} {s s' : State} {e : Endpoint} {gw : Unstructured}
  {log : List (Σ request : Request, Answer request)}

private theorem setting_of_ready (hs : Ready t c s) (hmetering : c.usageMeteringEnabled = true)
    (hgw : s.objects (gatewayKey c e) = some gw) :
    Setting t s gw (gatewayName c e) (gatewayNS c e) (listener e) where
  gateway := hgw
  finite := by
    obtain ⟨objs, hobjs⟩ := hs.finite
    have hfinite : {p | Policy s (gatewayNS c e) p}.Finite :=
      objs.finite_toSet.subset (fun p hp => hobjs (keyOf p) p hp.1)
    exact ⟨hfinite.toFinset.toList, Finset.nodup_toList _, fun p => by simp⟩
  parsed := hs.parsed hmetering e gw hgw
  listener := by
    cases e with
    | external => exact .inl rfl
    | internal => exact .inr rfl

/-- Without the Gateway nothing is done. -/
theorem ensure_missing {res : Except StatusError Unit} (hgw : s.objects (gatewayKey c e) = none)
    (hrun : Program.RunsOn Exec s
      (ensureListenerHeaderPolicy t (gatewayName c e) (gatewayNS c e) (listener e)).run log res
    s') :
    s' = s := by
  cases res with
  | error _ => exact ensure_failed hrun
  | ok value =>
    have hensure :
      (ensureListenerHeaderPolicy t (gatewayName c e) (gatewayNS c e) (listener e)).run =
        .call (.get (gatewayKey c e))
          (fun found => (ensureFound t (gatewayName c e) (gatewayNS c e) (listener e) found).run) :=
            rfl
    rw [hensure] at hrun
    obtain ⟨answer, s₁, tail, hget, hrest, -⟩ := hrun.call_inv
    cases hget with
    | found hfound =>
      rw [hgw] at hfound
      cases hfound
    | missing _ he =>
      rw [ensureFound, if_pos he] at hrest
      exact hrest.pure_inv.2.2
    | getFails he =>
      rw [ensureFound, if_neg he] at hrest
      exact hrest.pure_inv.2.2

/-- What is in order already stays as it is. -/
theorem ensure_idle (hs : Ready t c s) (hmetering : c.usageMeteringEnabled = true)
    (hgw : s.objects (gatewayKey c e) = some gw) (hguarded : Guarded t c s e)
    (hrun : Program.RunsOn Exec s
      (ensureListenerHeaderPolicy t (gatewayName c e) (gatewayNS c e) (listener e)).run log
      (.ok ()) s') : s' = s := by
  obtain ⟨htaken, hgone, hothers⟩ | ⟨hfree, applied, tail, happlied, hwrite⟩ :=
    ensure_cases (setting_of_ready hs hmetering hgw) hrun
  · obtain ⟨-, hnone⟩ | ⟨hfree, -⟩ := hguarded gw hgw
    · apply State.ext
      funext key
      by_cases hkey : key = ownKey (gatewayNS c e) (listener e)
      · rw [hkey, hgone]
        exact hnone.symm
      · exact hothers key hkey
    · exact absurd htaken hfree
  · obtain ⟨htaken, -⟩ | ⟨-, applied', happlied', hplaced⟩ := hguarded gw hgw
    · exact absurd htaken hfree
    · obtain rfl := happlied.unique happlied'
      exact (createOrUpdate_outcome hwrite).2.2 hplaced

private theorem maintains_policy (hmetering : c.usageMeteringEnabled = true) :
    Maintains Serves (plan t c) {.policy e}
    (ensureListenerHeaderPolicy t (gatewayName c e) (gatewayNS c e) (listener e)) := by
  intro s log res s' hs hserved
  have hrun := exec_of_serves hserved
  cases hgw : s.objects (gatewayKey c e) with
  | none =>
    obtain rfl := ensure_missing hgw hrun
    apply upkept_of_same hs
    intro _ gw hfound
    rw [hgw] at hfound
    cases hfound
  | some gw =>
    cases res with
    | error _ =>
      obtain rfl := ensure_failed hrun
      exact upkept_of_same hs (fun herror => by cases herror)
    | ok value =>
      obtain ⟨howned, hothers, hleft⟩ :=
        ensure_leaves (setting_of_ready hs hmetering hgw) (hs.owned hmetering e) hrun
      have hmoved : Moved c (.policy e) s s' := by
        refine ⟨hothers, fun e' he => ?_, fun e' he => (by cases he), fun e' he => (by cases he)⟩
        obtain rfl := Part.policy.inj he
        exact howned
      refine upkept_of_moved hs hmetering hmoved (fun _ => ?_)
        (fun hguarded => ensure_idle hs hmetering hgw hguarded hrun)
      have hgateway : gatewayKey c e ≠ partKey c (.policy e) := by
        intro hkey
        have hkind : gatewayKind = clientTrafficPolicyKind := congrArg Key.kind hkey
        exact absurd hkind (by decide)
      have hforeign : ∀ p, Foreign s' (gatewayNS c e) p ↔ Foreign s (gatewayNS c e) p :=
        fun p => hmoved.foreign (hs.owned hmetering)
      intro gw' hgw'
      rw [hothers _ hgateway, hgw] at hgw'
      obtain rfl := Option.some.inj hgw'
      have htaken : Taken s' gw (gatewayNS c e) (listener e) ↔
          Taken s gw (gatewayNS c e) (listener e) := by
        simp only [Taken, hforeign]
      obtain ⟨htakenBefore, hgone⟩ | ⟨hfree, applied, stored, happlied, hstored, hequal⟩ := hleft
      · exact .inl ⟨htaken.mpr htakenBefore, hgone⟩
      · refine .inr ⟨fun htakenAfter => hfree (htaken.mp htakenAfter), applied, ?_, stored, ?_, ?_⟩
        · cases applied with
          | none =>
            simp only [listenerpolicies.Applied, hforeign]
            exact happlied
          | some p =>
            simp only [listenerpolicies.Applied, hforeign]
            exact happlied
        · rw [keyOf_listenerPolicy]
          exact hstored
        · rw [spec_listenerPolicy]
          exact hequal

private theorem maintains_policies :
    Maintains Serves (plan t c) (endpointParts c .policy) (ensureListenerHeaderPolicies t c) := by
  rw [ensureListenerHeaderPolicies]
  cases hmetering : c.usageMeteringEnabled with
  | false =>
    rw [endpointParts_of_not (fun e hwanted => by rw [Wanted, hmetering] at hwanted; cases hwanted)]
    exact maintains_pure
  | true =>
    have hwanted : ∀ e, Wanted c (.policy e) := fun _ => hmetering
    rw [endpointParts_of_wanted hwanted]
    apply (maintains_policy hmetering (e := .external)).mapError.seq
      (maintains_policy hmetering (e := .internal)).mapError
    simp

end Policies

section Listeners

variable {t : Tools} {c : SharedTLSConfig} {s s' : State} {e : Endpoint} {gw : Unstructured}
  {res : Except StatusError Unit} {log : List (Σ request : Request, Answer request)}
    {name hostname secretName secretNamespace : GoString}
  {gateway' : Fields Value} {listeners : List Value} {l : Fields Value} {changed : Bool}

private theorem relisted_of_merge (hlisted : Listed gw.object listeners)
    (hmerge : mergeHTTPSListener (some gw.object) name hostname secretName secretNamespace =
      .ok (changed, gateway'))
    (hwf : (Value.map gateway').wellFormed = true) : Relisted [name] gw ⟨gateway', hwf⟩ where
  rest := by
    obtain ⟨before, after, -, -, ⟨l, -, -, -, -, rfl⟩ | ⟨-, -, -, hrest⟩⟩ :=
      merge_cases hlisted hmerge
    · exact fun _ _ _ => rfl
    · exact hrest
  listeners := by
    intro listeners hlisted
    obtain ⟨listeners', v, hlisted', -, hothers⟩ := merge_listed hlisted hmerge
    have houtside : outside [name] = fun v => !named name v := by
      funext v
      rw [outside, List.all_cons, List.all_nil, Bool.and_true]
    rw [houtside]
    exact ⟨listeners', hlisted', hothers⟩

/-- A merge leaves the listener, as it found it or as it is built. -/
theorem attached_of_merge (hlisted : Listed gw.object listeners)
    (hmerge : mergeHTTPSListener (some gw.object) name hostname secretName secretNamespace =
      .ok (changed, gateway')) :
    ∃ listeners' l, Listed gateway' listeners' ∧ .map l ∈ listeners' ∧ listenerName l = name ∧
      ReadsAsBuilt name hostname secretName secretNamespace l := by
  obtain ⟨before, after, -, -, ⟨l, hsplit, hname, hreads, -, rfl⟩ | ⟨-, -, hlisted', -⟩⟩ :=
    merge_cases hlisted hmerge
  · refine ⟨listeners, l, hlisted, ?_, hname, hreads⟩
    rw [hsplit]
    exact List.mem_append_right _ List.mem_cons_self
  · exact ⟨_, _, hlisted', List.mem_append_right _ List.mem_cons_self, listenerName_build,
      readsAsBuilt_self⟩

/-- A listener that reads as built is left as it is, wherever it stands. -/
theorem merge_kept (hlisted : Listed gw.object listeners) (hl : .map l ∈ listeners)
    (hname : listenerName l = name)
    (hreads : ReadsAsBuilt name hostname secretName secretNamespace l) :
    mergeHTTPSListener (some gw.object) name hostname secretName secretNamespace =
      .ok (false, gw.object) := by
  have hnamed : Value.map l ∈ listeners.filter (named name) :=
    List.mem_filter.mpr ⟨hl, named_map.mpr hname⟩
  obtain hnone | ⟨before, l', after, hsplit, hname', hbefore, hafter⟩ := hlisted.split name
  · rw [List.filter_eq_nil_iff.mpr (fun v hv => by rw [hnone v hv]; exact Bool.false_ne_true)]
      at hnamed
    cases hnamed
  · rw [hsplit, (filter_named hbefore hafter (named_map.mpr hname')).1, List.mem_singleton]
      at hnamed
    obtain rfl := Value.map.inj hnamed
    exact merge_equal hlisted hsplit hname hbefore hreads

/-- The Gateway as merged is written, or nothing is. -/
theorem writeMerged_outcome {merged : Except MergeError (Bool × Fields Value)}
    {hwf : ∀ changed gateway, merged = .ok (changed, gateway) →
      (Value.map gateway).wellFormed = true}
    (hrun : Program.RunsOn Exec s (writeMerged name secretNamespace merged hwf).run log res s') :
    (s' = s ∧ (res = .ok () → ∃ gateway, merged = .ok (false, gateway))) ∨
      ∃ gateway, ∃ hmerged : merged = .ok (true, gateway), s' =
        s.put ⟨gateway, hwf _ _ hmerged⟩ := by
  cases merged with
  | error e =>
    obtain ⟨-, rfl, rfl⟩ := Program.RunsOn.pure_inv hrun
    exact .inl ⟨rfl, fun herror => by cases herror⟩
  | ok merged =>
    obtain ⟨changed, gateway⟩ := merged
    cases changed with
    | false =>
      obtain ⟨-, -, rfl⟩ := Program.RunsOn.pure_inv hrun
      exact .inl ⟨rfl, fun _ => ⟨gateway, rfl⟩⟩
    | true =>
      obtain ⟨answer, s₁, tail, hupdate, hend, -⟩ := Program.RunsOn.call_inv hrun
      obtain ⟨-, rfl, rfl⟩ := Program.RunsOn.pure_inv hend
      cases hupdate with
      | updated => exact .inr ⟨gateway, rfl, rfl⟩
      | updateFails => exact .inl ⟨rfl, fun herror => by cases herror⟩

private theorem maintains_listener (hmanaged : c.manageSharedListeners = true) :
    Maintains Serves (plan t c) {.listener e}
    (patchGatewayListener c (gatewayName c e) (gatewayNS c e) (listener e)
      (sharedtls.hostname c e)) := by
  intro s log res s' hs hserved
  have hrun := exec_of_serves hserved
  have hpatch : (patchGatewayListener c (gatewayName c e) (gatewayNS c e) (listener e)
    (sharedtls.hostname c e)).run =
      .call (.get (gatewayKey c e)) (fun found =>
        (patchFound c (gatewayName c e) (gatewayNS c e) (listener e)
          (sharedtls.hostname c e) found).run) := rfl
  rw [hpatch] at hrun
  obtain ⟨answer, s₁, tail, hget, hrest, -⟩ := hrun.call_inv
  cases hget with
  | missing hnone he =>
    rw [patchFound, if_pos he] at hrest
    obtain ⟨-, -, rfl⟩ := hrest.pure_inv
    apply upkept_of_same hs
    intro _ gw hgw
    rw [hnone] at hgw
    cases hgw
  | getFails he =>
    rw [patchFound, if_neg he] at hrest
    obtain ⟨-, rfl, rfl⟩ := hrest.pure_inv
    exact upkept_of_same hs (fun herror => by cases herror)
  | @found _ gw hgw =>
    obtain ⟨listeners, hlisted⟩ := hs.listed hmanaged e gw hgw
    have hkey : keyOf gw = gatewayKey c e := s.filed _ _ hgw
    obtain ⟨rfl, hok⟩ | ⟨gateway', hmerge, rfl⟩ := writeMerged_outcome hrest
    · apply upkept_of_same hs
      intro hres gw' hgw'
      obtain rfl := Option.some.inj (hgw.symm.trans hgw')
      obtain ⟨gateway', hmerge⟩ := hok hres
      obtain ⟨before, after, -, -, ⟨l, hsplit, hname, hreads, -, -⟩ | ⟨-, hchanged, -⟩⟩ :=
        merge_cases hlisted hmerge
      · refine ⟨listeners, l, hlisted, ?_, hname, hreads⟩
        rw [hsplit]
        exact List.mem_append_right _ List.mem_cons_self
      · cases hchanged
    · have hsame := relisted_of_merge hlisted hmerge
        (wellFormed_mergeHTTPSListener gw.wellFormed hmerge)
      have hstored := hsame.key.trans hkey
      have hput : (s.put ⟨gateway', wellFormed_mergeHTTPSListener gw.wellFormed hmerge⟩).objects
        (gatewayKey c e) =
          some ⟨gateway', wellFormed_mergeHTTPSListener gw.wellFormed hmerge⟩ := by
        rw [← hstored]
        exact State.objects_put
      have hmoved : Moved c (.listener e) s
          (s.put ⟨gateway', wellFormed_mergeHTTPSListener gw.wellFormed hmerge⟩) := by
        refine ⟨fun key hne => ?_, fun e' he => (by cases he), fun e' he hnone => ?_,
          fun e' he gw' hgw' => ?_⟩
        · apply State.objects_put_ne
          rw [hstored]
          exact hne
        · obtain rfl := Part.listener.inj he
          rw [hgw] at hnone
          cases hnone
        · obtain rfl := Part.listener.inj he
          obtain rfl := Option.some.inj (hgw.symm.trans hgw')
          exact ⟨_, hput, hsame⟩
      refine upkept_of_moved hs hmanaged hmoved (fun _ gw' hgw' => ?_) (fun hattached => ?_)
      · obtain rfl := Option.some.inj (hput.symm.trans hgw')
        exact attached_of_merge hlisted hmerge
      · obtain ⟨listeners', l, hlisted', hl, hname, hreads⟩ := hattached gw hgw
        have hkept := merge_kept hlisted' hl hname hreads
        cases (Prod.mk.inj (Except.ok.inj (hmerge.symm.trans hkept))).1

private theorem maintains_listeners :
    Maintains Serves (plan t c) (endpointParts c .listener) (patchGatewayListeners c) := by
  rw [patchGatewayListeners]
  cases hmanaged : c.manageSharedListeners with
  | false =>
    rw [endpointParts_of_not (fun e hwanted => by rw [Wanted, hmanaged] at hwanted; cases hwanted)]
    exact maintains_pure
  | true =>
    have hwanted : ∀ e, Wanted c (.listener e) := fun _ => hmanaged
    rw [endpointParts_of_wanted hwanted]
    apply (maintains_listener hmanaged (e := .external)).mapError.seq
      (maintains_listener hmanaged (e := .internal)).mapError
    simp

end Listeners

section Feasible

variable {t : Tools} {c : SharedTLSConfig} {e : Endpoint}

/-- Requests that are answered whatever kinds are installed. -/
def NoDelete : Request → Prop
  | .delete _ => False
  | _ => True

private theorem serves_of_exec {s s' : State} {request : Request} {answer : Answer request}
    (hrequest : NoDelete request)
    (hexec : Exec s request answer s') : Serves s request answer s' := by
  refine ⟨hexec, ?_⟩
  cases request with
  | delete => cases hrequest
  | get | list | create | update | event => trivial

private theorem uses_createOrUpdate (desired : Unstructured) :
    (createOrUpdateUnstructured desired).run.Uses NoDelete := by
  refine ⟨trivial, fun found => ?_⟩
  change (createOrUpdateLookedUp desired found).run.Uses NoDelete
  cases found with
  | error e =>
    rw [createOrUpdateLookedUp]
    split_ifs
    · exact ⟨trivial, fun _ => trivial⟩
    · trivial
  | ok current =>
    rw [createOrUpdateLookedUp]
    split_ifs
    · trivial
    · exact ⟨trivial, fun _ => trivial⟩

private theorem feasible_createOrUpdate (desired : Unstructured) :
    Feasible Serves (plan t c) (createOrUpdateUnstructured desired) := by
  intro s _
  obtain ⟨log, s', hrun⟩ := createOrUpdate_runs s desired
  exact ⟨log, s', hrun.mono_of_uses (uses_createOrUpdate desired)
    (fun _ _ _ _ hrequest => serves_of_exec hrequest)⟩

/-- A look and what follows it can come to an end where both can. -/
theorem exists_get {s : State} {key : Key}
    {next : Except StatusError Unstructured → ClusterTLSSingleton.Call Unit}
    (hfound : ∀ obj, s.objects key = some obj →
      ∃ log s', Program.RunsOn Serves s (next (.ok obj)).run log (.ok ()) s')
    (hmissing : s.objects key = none →
      ∃ log s', Program.RunsOn Serves s (next (.error ⟨.notFound, []⟩)).run log (.ok ()) s') :
    ∃ log s', Program.RunsOn Serves s
      (do let found ← Fallible.attempt (get key); next found).run log (.ok ()) s' := by
  cases hobj : s.objects key with
  | none =>
    obtain ⟨log, s', hrun⟩ := hmissing hobj
    exact ⟨_, s', Program.RunsOn.call (serves_of_exec trivial (.missing hobj rfl)) hrun⟩
  | some obj =>
    obtain ⟨log, s', hrun⟩ := hfound obj hobj
    exact ⟨_, s', Program.RunsOn.call (serves_of_exec trivial (.found hobj)) hrun⟩

/-- A delete can always be answered, as done or as nothing to do. -/
theorem exists_delete (s : State) (obj : Unstructured) :
    ∃ answer s', Serves s (.delete obj) answer s' ∧
    (answer = .ok () ∨ ∃ e : StatusError, answer = .error e ∧ e.reason = .notFound) := by
  cases hobj : s.objects (keyOf obj) with
  | none =>
    refine ⟨.error ⟨.notFound, []⟩, s, ⟨.deleteMissing hobj rfl, ?_⟩, .inr ⟨_, rfl, rfl⟩⟩
    exact fun _ => hobj
  | some found => exact ⟨.ok (), _, ⟨.deleted (by rw [hobj, Option.isSome_some]), trivial⟩, .inl rfl⟩

private theorem feasible_source (hready : c.baseDomain ≠ [] ∧ c.operatorNamespace ≠ [])
    (hissuer : c.tlsSecretName = [] → c.clusterIssuerName ≠ []) :
    Feasible Serves (plan t c) (ensureTLSSource c) := by
  rw [ensureTLSSource]
  split_ifs with htls
  · refine Feasible.seq (Feasible.mapError ?_) (maintains_unmanaged htls).mapError ?_
    · intro s _
      obtain ⟨answer, s', hdelete, hanswer⟩ :=
        exists_delete s (managedCertificate c.operatorNamespace)
      have hend : Program.RunsOn Serves s' (ignoreUnmanaged answer).run [] (.ok ()) s' := by
        obtain rfl | ⟨e, rfl, he⟩ := hanswer
        · exact .pure s' _
        · rw [ignoreUnmanaged, if_pos (.inl he)]
          exact .pure s' _
      exact ⟨_, s', Program.RunsOn.call hdelete hend⟩
    · intro s _
      exact exists_get (fun _ _ => ⟨[], s, .pure s _⟩) (fun _ => ⟨[], s, .pure s _⟩)
  · apply Feasible.mapError
    rw [ensureCertificate, buildSharedCertificate, if_neg hready.1, if_neg hready.2,
      if_neg (hissuer (not_not.mp htls))]
    exact feasible_createOrUpdate _

private theorem feasible_grants {namespaces : List GoString}
    (hsub : ∀ ns ∈ namespaces, ns ∈ distinctGatewayNamespaces c) :
    Feasible Serves (plan t c) (ensureReferenceGrants c namespaces) := by
  induction namespaces with
  | nil => exact feasible_pure
  | cons ns rest ih =>
    obtain ⟨hns, hrest⟩ := List.forall_mem_cons.mp hsub
    rw [ensureReferenceGrants]
    split_ifs with hhome
    · exact ih hrest
    · exact (feasible_createOrUpdate _).mapError.seq (maintains_grant ⟨hns, hhome⟩).mapError
        (ih hrest)

private theorem feasible_policy (hmetering : c.usageMeteringEnabled = true) :
    Feasible Serves (plan t c)
    (ensureListenerHeaderPolicy t (gatewayName c e) (gatewayNS c e) (listener e)) := by
  intro s hs
  refine exists_get (fun gw hgw => ?_) (fun _ => ⟨[], s, .pure s _⟩)
  have hsetting := setting_of_ready hs hmetering hgw
  obtain ⟨policies, hnodup, hpolicies⟩ := hsetting.finite
  have happly : ∃ log s',
    Program.RunsOn Serves s (applyScan t gw (gatewayName c e) (gatewayNS c e) (listener e)
      (scanPolicies t gw (listener e) [] policies)).run log (.ok ()) s' := by
    obtain ⟨-, p, hscan⟩ | ⟨-, wide, hscan, -⟩ := scan_listed hsetting hpolicies
    · rw [hscan]
      obtain ⟨answer, s', hdelete, hanswer⟩ := exists_delete s
        (listenerPolicy (gatewayName c e) (gatewayNS c e) (listener e) none)
      have hend : Program.RunsOn Serves s'
        (ignoreGone (listenerPolicy (gatewayName c e) (gatewayNS c e) (listener e) none)
          answer).run [] (.ok ()) s' := by
        obtain rfl | ⟨e, rfl, he⟩ := hanswer
        · exact .pure s' _
        · rw [ignoreGone, if_pos he]
          exact .pure s' _
      exact ⟨_, s', Program.RunsOn.call (serves_of_exec trivial .recorded)
        (Program.RunsOn.call hdelete hend)⟩
    · rw [hscan]
      exact feasible_createOrUpdate _ s hs
  obtain ⟨log, s', happly⟩ := happly
  exact ⟨_, s', Program.RunsOn.call (serves_of_exec trivial (.listed hpolicies hnodup)) happly⟩

private theorem feasible_policies :
    Feasible Serves (plan t c) (ensureListenerHeaderPolicies t c) := by
  rw [ensureListenerHeaderPolicies]
  cases hmetering : c.usageMeteringEnabled with
  | false => exact feasible_pure
  | true =>
    exact (feasible_policy hmetering (e := .external)).mapError.seq
      (maintains_policy hmetering (e := .external)).mapError
      (feasible_policy hmetering (e := .internal)).mapError

private theorem feasible_listener (hmanaged : c.manageSharedListeners = true) :
    Feasible Serves (plan t c)
    (patchGatewayListener c (gatewayName c e) (gatewayNS c e) (listener e) (hostname c e)) := by
  intro s hs
  refine exists_get (fun gw hgw => ?_) (fun _ => ⟨[], s, .pure s _⟩)
  obtain ⟨listeners, hlisted⟩ := hs.listed hmanaged e gw hgw
  have hstored : ∀ merged : Except MergeError (Bool × Fields Value),
      ∀ hwf : ∀ changed gateway, merged = .ok (changed, gateway) →
        (Value.map gateway).wellFormed = true,
      (∃ changed gateway, ∃ hmerged : merged = .ok (changed, gateway),
        (s.objects (keyOf ⟨gateway, hwf changed gateway hmerged⟩)).isSome = true) →
      ∃ log s', Program.RunsOn Serves s
        (writeMerged (gatewayName c e) (gatewayNS c e) merged hwf).run log (.ok ()) s' := by
    rintro merged hwf ⟨changed, gateway, rfl, hstored⟩
    cases changed with
    | false => exact ⟨[], s, .pure s _⟩
    | true => exact ⟨_, _, Program.RunsOn.call (serves_of_exec trivial (.updated hstored)) (.pure _ _)⟩
  apply hstored
  have hmerge : ∃ changed gateway',
    mergeHTTPSListener (some gw.object) (listener e) (hostname c e) (sharedSecretName c)
      c.operatorNamespace = .ok (changed, gateway') := by
    obtain hmissing | ⟨before, l, after, hsplit, hname, hbefore, hafter⟩ :=
      hlisted.split (listener e)
    · have hnone : ∀ v ∈ ([] : List Value), named (listener e) v = false :=
        fun v hv => (by cases hv)
      obtain ⟨gateway', hwritten, -⟩ :=
        merge_written hlisted (.inl ⟨hmissing, rfl, rfl⟩) hmissing hnone
      exact ⟨_, _, hwritten⟩
    · by_cases hl : ReadsAsBuilt (listener e) (hostname c e)
        (sharedSecretName c) c.operatorNamespace l
      · exact ⟨_, _, merge_equal hlisted hsplit hname hbefore hl⟩
      · obtain ⟨gateway', hwritten, -⟩ :=
          merge_written hlisted (.inr ⟨l, hsplit, hname, hl⟩) hbefore hafter
        exact ⟨_, _, hwritten⟩
  obtain ⟨changed, gateway', hmerge⟩ := hmerge
  refine ⟨changed, gateway', hmerge, ?_⟩
  have hsame := relisted_of_merge hlisted hmerge
    (wellFormed_mergeHTTPSListener gw.wellFormed hmerge)
  rw [hsame.key, s.filed _ _ hgw, hgw, Option.isSome_some]

private theorem feasible_listeners : Feasible Serves (plan t c) (patchGatewayListeners c) := by
  rw [patchGatewayListeners]
  cases hmanaged : c.manageSharedListeners with
  | false => exact feasible_pure
  | true =>
    exact (feasible_listener hmanaged (e := .external)).mapError.seq
      (maintains_listener hmanaged (e := .external)).mapError
      (feasible_listener hmanaged (e := .internal)).mapError

end Feasible

section Passes

variable {t : Tools} {c : SharedTLSConfig}

/-- The namespaces of the Gateways are two, or one. -/
theorem nodup_distinctGatewayNamespaces (c : SharedTLSConfig) :
    (distinctGatewayNamespaces c).Nodup := by
  rw [distinctGatewayNamespaces]
  split_ifs with hsame
  · exact List.nodup_singleton _
  · simp [hsame]

private theorem wanted_split (c : SharedTLSConfig) : {i | Wanted c i} = {Part.source} ∪
    (grantParts c (distinctGatewayNamespaces c) ∪
      (endpointParts c .policy ∪ endpointParts c .listener)) := by
  ext i
  cases i with
  | source => simp [Wanted]
  | grant ns => simp [Wanted, grantParts, endpointParts]
  | policy e => simp [Wanted, grantParts, endpointParts]
  | listener e => simp [Wanted, grantParts, endpointParts]

private theorem reconcile_eq (hdomain : c.baseDomain ≠ []) (hhome : c.operatorNamespace ≠ []) :
    reconcile t (some c) = (do
      ensureTLSSource c
      ensureReferenceGrants c (distinctGatewayNamespaces c)
      let headerPolicyErr ← Fallible.attempt (ensureListenerHeaderPolicies t c)
      patchGatewayListeners c
      Fallible.ofExcept headerPolicyErr) := by
  rw [reconcile, if_neg hdomain, if_neg hhome]

private theorem apart_listeners :
    Disjoint (endpointParts c .policy) (endpointParts c .listener) := by
  rw [Set.disjoint_left]
  rintro i ⟨e, -, rfl⟩ ⟨e', -, heq⟩
  cases heq

private theorem apart_grants {namespaces : List GoString} :
    Disjoint (grantParts c namespaces) (endpointParts c .policy ∪ endpointParts c .listener) := by
  rw [Set.disjoint_left]
  rintro i ⟨ns, -, -, rfl⟩ (⟨e, -, heq⟩ | ⟨e, -, heq⟩)
  · cases heq
  · cases heq

private theorem apart_source {namespaces : List GoString} : Disjoint {Part.source}
    (grantParts c namespaces ∪ (endpointParts c .policy ∪ endpointParts c .listener)) := by
  rw [Set.disjoint_singleton_left]
  rintro (⟨ns, -, -, heq⟩ | ⟨e, -, heq⟩ | ⟨e, -, heq⟩)
  · cases heq
  · cases heq
  · cases heq

/-- A full pass sees to every part. -/
theorem maintains_reconcile (hdomain : c.baseDomain ≠ []) (hhome : c.operatorNamespace ≠ []) :
    Maintains Serves (plan t c) {i | Wanted c i} (reconcile t (some c)) := by
  rw [reconcile_eq hdomain hhome, wanted_split]
  have hgrants := maintains_grants (t := t) (fun _ hns => hns) (nodup_distinctGatewayNamespaces c)
  exact maintains_source.seq
    (hgrants.seq (maintains_policies.deferred maintains_listeners apart_listeners) apart_grants)
    apart_source

private theorem feasible_reconcile (hdomain : c.baseDomain ≠ []) (hhome : c.operatorNamespace ≠ [])
    (hissuer : c.tlsSecretName = [] → c.clusterIssuerName ≠ []) :
    Feasible Serves (plan t c) (reconcile t (some c)) := by
  rw [reconcile_eq hdomain hhome]
  have hgrants := maintains_grants (t := t) (fun _ hns => hns) (nodup_distinctGatewayNamespaces c)
  have hlast := feasible_policies.deferred maintains_policies (feasible_listeners (t := t) (c := c))
  exact (feasible_source ⟨hdomain, hhome⟩ hissuer).seq maintains_source
    ((feasible_grants (fun _ hns => hns)).seq hgrants hlast)

/-- What runs under the reconciler's lock: full passes on the tick, and the header
policies alone where a ClientTrafficPolicy has changed. -/
inductive Turn where
  | resync
  | policyChange
  deriving DecidableEq

def pass (t : Tools) (c : SharedTLSConfig) : Turn → ClusterTLSSingleton.Call Unit
  | .resync => reconcile t (some c)
  | .policyChange => ensureListenerHeaderPolicies t c

/-- The parts that a pass sees to. -/
def passParts (c : SharedTLSConfig) : Turn → Set Part
  | .resync => {i | Wanted c i}
  | .policyChange => endpointParts c .policy

/-- Passes in turn, each to its end, and what they came to. -/
abbrev Passes (t : Tools) (c : SharedTLSConfig) :
    State → List (Turn × Except StatusError Unit) → State → Prop :=
  Rounds Serves (pass t c)

end Passes

section Concrete

/-- One Gateway for both endpoints, with a listener of its own. -/
def gateway : Unstructured where
  object := [("apiVersion", .string "gateway.networking.k8s.io/v1"), ("kind", .string "Gateway"),
    ("metadata", .map [("name", .string "nebari-gateway"),
      ("namespace", .string "envoy-gateway-system")]),
    ("spec", .map [("gatewayClassName", .string "envoy-gateway"),
      ("listeners", .slice [.map [("hostname", .string "argocd.example.com"),
        ("name", .string "https-argocd")]])])]
  wellFormed := by decide

/-- A configuration with metered usage and an issuer for the Certificate. -/
def clusterConfig : SharedTLSConfig where
  baseDomain := "example.com"
  externalGatewayName := "nebari-gateway"
  externalGatewayNS := "envoy-gateway-system"
  internalGatewayName := "nebari-gateway"
  internalGatewayNS := "envoy-gateway-system"
  oidcIssuerURL := "https://keycloak.example.com/realms/nebari"
  oidcGroupsClaim := "groups"
  usageMeteringEnabled := true
  operatorNamespace := "llm-serving"
  clusterIssuerName := "letsencrypt-production"

private theorem objects_put_gateway {key : Key} {obj : Unstructured}
    (h : (State.empty.put gateway).objects key = some obj) :
    obj = gateway := by
  by_cases hkey : key = keyOf gateway
  · rw [hkey, State.objects_put] at h
    exact (Option.some.inj h).symm
  · rw [State.objects_put_ne hkey] at h
    cases h

private theorem ready_gateway : Ready tools clusterConfig (State.empty.put gateway) where
  domain := by decide
  home := by decide
  issuer := fun _ => by decide
  finite := ⟨[gateway], fun key obj h => List.mem_singleton.mpr (objects_put_gateway h)⟩
  owned := by
    intro _ e o ho
    have hkind := congrArg Key.kind ((State.empty.put gateway).filed _ _ ho)
    rw [objects_put_gateway ho] at hkind
    exact absurd hkind (by cases e <;> decide)
  parsed := fun _ _ _ _ _ _ _ _ => ⟨true, rfl⟩
  listed := by
    intro _ e gw hgw
    rw [objects_put_gateway hgw]
    refine ⟨[.map [("hostname", .string "argocd.example.com"), ("name", .string "https-argocd")]],
      rfl, ?_, ?_⟩
    · intro v hv
      rw [List.mem_singleton.mp hv]
      rfl
    · exact List.nodup_singleton _

end Concrete

end sharedtls
