import ServingPack.Operator.Controller.ListenerHeaders
import ServingPack.Operator.SpecEquality

open golang apiserver concurrency unstructured reconcilers controller controller.ClusterTLSSingleton
  specequality

namespace listenerpolicies

/-- What the operator's own policy for a listener is stored under. -/
def ownKey (gatewayNamespace listenerName : GoString) : Key :=
  ⟨clientTrafficPolicyVersion, clientTrafficPolicyKind, gatewayNamespace,
    listenerHeaderPolicyName listenerName⟩

/-- The ClientTrafficPolicies of a namespace. -/
def Policy (s : State) (ns : GoString) (p : Unstructured) : Prop :=
  s.objects (keyOf p) = some p ∧ p.getAPIVersion = clientTrafficPolicyVersion ∧
    p.getKind = clientTrafficPolicyKind ∧
    p.getNamespace = ns

/-- The policies of a namespace that the operator does not manage. -/
def Foreign (s : State) (ns : GoString) (p : Unstructured) : Prop :=
  Policy s ns p ∧ isListenerHeaderPolicy p = false

section Order

variable {t : Tools} {a b c : Unstructured}

/-- The order Envoy Gateway applies policies in. -/
def Earlier (t : Tools) (a b : Unstructured) : Prop :=
  creationTime t a < creationTime t b ∨
    creationTime t a = creationTime t b ∧ before (qualifiedName a) (qualifiedName b)

private theorem comparePolicies_neg : comparePolicies t a b < 0 ↔ Earlier t a b := by
  rw [comparePolicies, Earlier]
  by_cases htime : creationTime t a = creationTime t b
  · rw [if_neg (not_not.mpr htime), compareStrings]
    split_ifs with hname hbefore
    · simp [htime, hname, before]
    · simp [htime, hbefore]
    · simp [htime, hbefore]
  · rw [if_pos htime]
    split_ifs with hlt
    · simp [hlt]
    · simp [hlt, htime]

private theorem not_earlier : ¬Earlier t a b ↔ creationTime t b < creationTime t a ∨
    creationTime t b = creationTime t a ∧ le (qualifiedName b) (qualifiedName a) := by
  rw [Earlier, not_or, not_and, not_before.symm, not_lt]
  constructor
  · intro ⟨hle, hname⟩
    obtain hlt | heq := lt_or_eq_of_le hle
    · exact .inl hlt
    · exact .inr ⟨heq, hname heq.symm⟩
  · intro h
    obtain hlt | ⟨heq, hname⟩ := h
    · exact ⟨hlt.le, fun heq => absurd heq (ne_of_gt hlt)⟩
    · exact ⟨heq.le, fun _ => hname⟩

private theorem not_earlier_self : ¬Earlier t a a :=
  not_earlier.mpr (.inr ⟨rfl, not_before.mp (before_irrefl _)⟩)

private theorem not_earlier_trans (h : ¬Earlier t a b) (h' : ¬Earlier t b c) : ¬Earlier t a c := by
  rw [not_earlier] at h h' ⊢
  obtain hlt | ⟨heq, hname⟩ := h
  · obtain hlt' | ⟨heq', -⟩ := h'
    · exact .inl (hlt'.trans hlt)
    · exact .inl (heq' ▸ hlt)
  · obtain hlt' | ⟨heq', hname'⟩ := h'
    · exact .inl (heq ▸ hlt')
    · exact .inr ⟨heq'.trans heq, IsTrans.trans _ _ _ hname' hname⟩

private theorem Earlier.not_earlier (h : Earlier t a b) : ¬Earlier t b a := by
  rw [listenerpolicies.not_earlier]
  obtain hlt | ⟨heq, hname⟩ := h
  · exact .inl hlt
  · exact .inr ⟨heq, hname.2⟩

/-- Of two policies with different names one comes first. -/
theorem earlier_or (hname : qualifiedName a ≠ qualifiedName b) : Earlier t a b ∨ Earlier t b a := by
  by_contra h
  obtain ⟨h, h'⟩ := not_or.mp h
  rw [listenerpolicies.not_earlier] at h h'
  obtain hlt | ⟨heq, hle⟩ := h
  · obtain hlt' | ⟨heq', -⟩ := h'
    · exact lt_irrefl _ (hlt.trans hlt')
    · exact absurd heq' (ne_of_gt hlt)
  · obtain hlt' | ⟨-, hle'⟩ := h'
    · exact absurd heq (ne_of_gt hlt')
    · exact hname (Std.Antisymm.antisymm _ _ hle' hle)

/-- Nothing in a list comes before what `MinFunc` finds in it. -/
theorem minFunc_spec (m : Unstructured) (rest : List Unstructured) :
    minFunc (comparePolicies t) m rest ∈ m :: rest ∧
      ∀ q ∈ m :: rest, ¬Earlier t q (minFunc (comparePolicies t) m rest) := by
  induction rest generalizing m with
  | nil =>
    refine ⟨List.mem_cons_self, fun q hq => ?_⟩
    rw [List.mem_singleton.mp hq]
    exact not_earlier_self
  | cons x rest ih =>
    have hstep : minFunc (comparePolicies t) m (x :: rest) =
        minFunc (comparePolicies t) (if comparePolicies t x m < 0 then x else m) rest := rfl
    rw [hstep]
    split_ifs with hless
    · rw [comparePolicies_neg] at hless
      obtain ⟨hmem, hleast⟩ := ih x
      refine ⟨List.mem_cons_of_mem _ hmem, fun q hq => ?_⟩
      obtain rfl | hq := List.mem_cons.mp hq
      · exact not_earlier_trans hless.not_earlier (hleast x List.mem_cons_self)
      · exact hleast q hq
    · rw [comparePolicies_neg] at hless
      obtain ⟨hmem, hleast⟩ := ih m
      refine ⟨?_, fun q hq => ?_⟩
      · obtain hm | hm := List.mem_cons.mp hmem
        · rw [hm]
          exact List.mem_cons_self
        · exact List.mem_cons_of_mem _ (List.mem_cons_of_mem _ hm)
      · obtain rfl | hq := List.mem_cons.mp hq
        · exact hleast q List.mem_cons_self
        · obtain rfl | hq := List.mem_cons.mp hq
          · exact not_earlier_trans hless (hleast m List.mem_cons_self)
          · exact hleast q (List.mem_cons_of_mem _ hq)

end Order

section Scan

variable {t : Tools} {gw p : Unstructured} {listenerName : GoString} {acc l : List Unstructured}

/-- Whether a policy is the operator's or its scope can be read. -/
def Readable (t : Tools) (gw : Unstructured) (listenerName : GoString) (p : Unstructured) : Prop :=
  isListenerHeaderPolicy p = false → ∃ scope, policyScopeForListener t p gw listenerName = .ok scope

/-- Whether a policy is another's and targets the listener. -/
def Takes (t : Tools) (gw : Unstructured) (listenerName : GoString) (p : Unstructured) : Prop :=
  isListenerHeaderPolicy p = false ∧ policyScopeForListener t p gw listenerName = .ok .listener

/-- Whether a policy is another's and applies to the whole Gateway. -/
def Wide (t : Tools) (gw : Unstructured) (listenerName : GoString) (p : Unstructured) : Prop :=
  isListenerHeaderPolicy p = false ∧ policyScopeForListener t p gw listenerName = .ok .gateway

/-- The scan stops at a policy that takes the listener, and collects those of the
whole Gateway where there is none. -/
theorem scanPolicies_spec (hread : ∀ p ∈ l, Readable t gw listenerName p) :
    (∃ p ∈ l, Takes t gw listenerName p ∧ scanPolicies t gw listenerName acc l = .taken p) ∨
      (∀ p ∈ l, ¬Takes t gw listenerName p) ∧ ∃ wide, scanPolicies t gw listenerName acc l = .free
      (acc ++ wide) ∧
        ∀ p, p ∈ wide ↔ p ∈ l ∧ Wide t gw listenerName p := by
  induction l generalizing acc with
  | nil => exact .inr ⟨fun p hp => (by cases hp), [], by rw [scanPolicies, List.append_nil], by simp⟩
  | cons p rest ih =>
    have hrest : ∀ q ∈ rest, Readable t gw listenerName q :=
      fun q hq => hread q (List.mem_cons_of_mem _ hq)
    -- What holds of the rest holds with a policy before it that neither takes the listener nor
    -- is collected.
    have hskip : ¬Takes t gw listenerName p → ¬Wide t gw listenerName p →
        scanPolicies t gw listenerName acc (p :: rest) = scanPolicies t gw listenerName acc rest →
        ((∃ q ∈ p :: rest, Takes t gw listenerName q ∧
          scanPolicies t gw listenerName acc (p :: rest) = .taken q) ∨
          (∀ q ∈ p :: rest, ¬Takes t gw listenerName q) ∧ ∃ wide,
            scanPolicies t gw listenerName acc (p :: rest) = .free (acc ++ wide) ∧
              ∀ q, q ∈ wide ↔ q ∈ p :: rest ∧ Wide t gw listenerName q) := by
      intro htakes hwide hscan
      obtain ⟨q, hq, hqtakes, htaken⟩ | ⟨hnone, wide, hfree, hmem⟩ := @ih acc hrest
      · exact .inl ⟨q, List.mem_cons_of_mem _ hq, hqtakes, hscan.trans htaken⟩
      · refine .inr ⟨List.forall_mem_cons.mpr ⟨htakes, hnone⟩, wide, hscan.trans hfree, fun q => ?_⟩
        rw [hmem, List.mem_cons]
        constructor
        · intro ⟨hq, hqwide⟩
          exact ⟨.inr hq, hqwide⟩
        · intro ⟨hq, hqwide⟩
          obtain rfl | hq := hq
          · exact absurd hqwide hwide
          · exact ⟨hq, hqwide⟩
    cases hown : isListenerHeaderPolicy p with
    | true =>
      apply hskip
      · intro htakes
        rw [htakes.1] at hown
        cases hown
      · intro hwide
        rw [hwide.1] at hown
        cases hown
      · rw [scanPolicies, if_pos hown]
    | false =>
      have hnot : ¬isListenerHeaderPolicy p = true := by
        rw [hown]
        exact Bool.false_ne_true
      obtain ⟨scope, hscope⟩ := hread p List.mem_cons_self hown
      cases scope with
      | listener =>
        left
        refine ⟨p, List.mem_cons_self, ⟨hown, hscope⟩, ?_⟩
        rw [scanPolicies, if_neg hnot, hscope]
      | none =>
        apply hskip
        · intro htakes
          cases htakes.2.symm.trans hscope
        · intro hwide
          cases hwide.2.symm.trans hscope
        · rw [scanPolicies, if_neg hnot, hscope]
      | gateway =>
        have hstep : scanPolicies t gw listenerName acc (p :: rest) =
            scanPolicies t gw listenerName (acc ++ [p]) rest := by
          rw [scanPolicies, if_neg hnot, hscope]
        obtain ⟨q, hq, hqtakes, htaken⟩ | ⟨hnone, wide, hfree, hmem⟩ := @ih (acc ++ [p]) hrest
        · exact .inl ⟨q, List.mem_cons_of_mem _ hq, hqtakes, hstep.trans htaken⟩
        · right
          refine ⟨List.forall_mem_cons.mpr ⟨fun htakes => ?_, hnone⟩, p :: wide, ?_, fun q => ?_⟩
          · cases htakes.2.symm.trans hscope
          · rw [hstep, hfree, List.append_assoc, List.singleton_append]
          · rw [List.mem_cons, List.mem_cons, hmem]
            constructor
            · intro hq
              obtain rfl | ⟨hq, hqwide⟩ := hq
              · exact ⟨.inl rfl, hown, hscope⟩
              · exact ⟨.inr hq, hqwide⟩
            · intro ⟨hq, hqwide⟩
              exact hq.imp_right (fun hq => ⟨hq, hqwide⟩)

/-- A policy whose selectors can be parsed has a scope. -/
theorem readable_of_parsed (h : ∀ sel, Value.map sel ∈ sliceOrNil p.spec "targetSelectors" →
    ∃ matched, t.selectorMatches sel gw.getLabels = .ok matched) :
    Readable t gw listenerName p := by
  intro _
  have hselectors : ∀ sels : List Value, (∀ sel, Value.map sel ∈ sels →
      ∃ matched, t.selectorMatches sel gw.getLabels = .ok matched) →
        ∃ scope, scopeOfSelectors t gw sels = .ok scope := by
    intro sels
    induction sels with
    | nil => exact fun _ => ⟨_, rfl⟩
    | cons v rest ih =>
      intro hsels
      have hrest := ih (fun sel hsel => hsels sel (List.mem_cons_of_mem _ hsel))
      cases v with
      | map sel =>
        rw [scopeOfSelectors]
        split_ifs
        · exact hrest
        · obtain ⟨matched, hmatched⟩ := hsels sel List.mem_cons_self
          rw [hmatched]
          cases matched with
          | true => exact ⟨_, rfl⟩
          | false => exact hrest
      | null | bool | int | float | string | slice =>
        rw [scopeOfSelectors]
        · exact hrest
        · exact fun _ hv => (by cases hv)
  rw [policyScopeForListener]
  cases scopeOfRefs gw listenerName .none (targetsOf p) with
  | listener => exact ⟨_, rfl⟩
  | gateway => exact ⟨_, rfl⟩
  | none => exact hselectors _ h

end Scan

section Scope

variable {t : Tools} {gw p : Unstructured} {listenerName : GoString} {scope : PolicyScope}
  {refs : List Value}

/-- Whether a target is the Gateway, with a section name or, where that is empty, as a whole. -/
def AimsAt (gw : Unstructured) (sectionName : GoString) (target : Value) : Prop :=
  ∃ ref, target = .map ref ∧ isGatewayKind ref = true ∧ holdsString ref "name" gw.getName = true ∧
    stringField ref "sectionName" = sectionName

/-- Whether a policy targets the listener. -/
def TargetsListener (gw : Unstructured) (listenerName : GoString) (p : Unstructured) : Prop :=
  ∃ target ∈ targetsOf p, AimsAt gw listenerName target

/-- Whether a policy targets the whole Gateway, by name or by label. -/
def TargetsGateway (t : Tools) (gw p : Unstructured) : Prop :=
  (∃ target ∈ targetsOf p, AimsAt gw [] target) ∨
    ∃ sel, Value.map sel ∈ sliceOrNil p.spec "targetSelectors" ∧ isGatewayKind sel = true ∧
      t.selectorMatches sel gw.getLabels = .ok true

/-- Whether every selector of a policy can be parsed. -/
def Parsed (t : Tools) (gw p : Unstructured) : Prop :=
  ∀ sel, Value.map sel ∈ sliceOrNil p.spec "targetSelectors" →
    ∃ matched, t.selectorMatches sel gw.getLabels = .ok matched

/-- A target of the listener decides, wherever it stands; then one of the whole Gateway. -/
theorem scopeOfRefs_spec (hname : listenerName ≠ []) (hscope : scope ≠ .listener) :
    (scopeOfRefs gw listenerName scope refs = .listener ↔
      ∃ target ∈ refs, AimsAt gw listenerName target) ∧
      (scopeOfRefs gw listenerName scope refs = .gateway ↔
        (¬∃ target ∈ refs, AimsAt gw listenerName target) ∧
        (scope = .gateway ∨ ∃ target ∈ refs, AimsAt gw [] target)) := by
  induction refs generalizing scope with
  | nil => simp [scopeOfRefs, hscope]
  | cons target rest ih =>
    -- A target that is not the Gateway, or another section of it, does not count.
    have hskip : (∀ sectionName, sectionName = listenerName ∨ sectionName = [] →
      ¬AimsAt gw sectionName target) →
        scopeOfRefs gw listenerName scope (target :: rest) =
          scopeOfRefs gw listenerName scope rest →
        ((scopeOfRefs gw listenerName scope (target :: rest) = .listener ↔
            ∃ aimed ∈ target :: rest, AimsAt gw listenerName aimed) ∧
          (scopeOfRefs gw listenerName scope (target :: rest) = .gateway ↔
            (¬∃ aimed ∈ target :: rest, AimsAt gw listenerName aimed) ∧
              (scope = .gateway ∨ ∃ aimed ∈ target :: rest, AimsAt gw [] aimed))) := by
      intro haims hstep
      have hlistener := haims listenerName (.inl rfl)
      have hgateway := haims [] (.inr rfl)
      simp only [hstep, List.mem_cons, exists_eq_or_imp, hlistener, hgateway, false_or]
      exact ih hscope
    cases target with
    | map ref =>
      by_cases hother : (!isGatewayKind ref || !holdsString ref "name" gw.getName) = true
      · apply hskip
        · rintro sectionName - ⟨ref', href, hkind, hgw, -⟩
          obtain rfl := Value.map.inj href
          simp [hkind, hgw] at hother
        · rw [scopeOfRefs, if_pos hother]
      · obtain ⟨hkind, hgw⟩ : isGatewayKind ref = true ∧
          holdsString ref "name" gw.getName = true := by
          simpa using hother
        have haims : ∀ sectionName, AimsAt gw sectionName (.map ref) ↔
            stringField ref "sectionName" = sectionName := by
          intro sectionName
          constructor
          · intro haims
            obtain ⟨ref', href, -, -, hsection⟩ := haims
            obtain rfl := Value.map.inj href
            exact hsection
          · exact fun hsection => ⟨ref, rfl, hkind, hgw, hsection⟩
        rw [scopeOfRefs, if_neg hother]
        by_cases hlistener : stringField ref "sectionName" = listenerName
        · rw [if_pos hlistener]
          have hexists : ∃ target ∈ Value.map ref :: rest, AimsAt gw listenerName target :=
            ⟨_, List.mem_cons_self, (haims _).mpr hlistener⟩
          exact ⟨⟨fun _ => hexists, fun _ => rfl⟩,
            ⟨fun h => (by cases h), fun h => absurd hexists h.1⟩⟩
        · rw [if_neg hlistener]
          by_cases hwhole : stringField ref "sectionName" = []
          · rw [if_pos hwhole]
            obtain ⟨h, h'⟩ := @ih .gateway (by simp)
            have hempty : ¬[] = listenerName := fun hempty => hname hempty.symm
            simp only [List.mem_cons, exists_eq_or_imp, haims, hwhole, hempty, false_or, true_or,
              or_true, and_true]
            exact ⟨h, by simpa using h'⟩
          · rw [if_neg hwhole]
            simp only [List.mem_cons, exists_eq_or_imp, haims, hlistener, hwhole, false_or]
            exact ih hscope
    | null | bool | int | float | string | slice =>
      apply hskip
      · rintro sectionName - ⟨ref, href, -⟩
        cases href
      · rw [scopeOfRefs]
        exact fun _ hv => (by cases hv)

private theorem scopeOfSelectors_spec {sels : List Value} :
    scopeOfSelectors t gw sels ≠ .ok .listener ∧ ((∀ sel, Value.map sel ∈ sels →
        ∃ matched, t.selectorMatches sel gw.getLabels = .ok matched) →
      (scopeOfSelectors t gw sels = .ok .gateway ↔
        ∃ sel, Value.map sel ∈ sels ∧ isGatewayKind sel = true ∧
        t.selectorMatches sel gw.getLabels = .ok true)) := by
  induction sels with
  | nil => simp [scopeOfSelectors]
  | cons v rest ih =>
    obtain ⟨hne, hiff⟩ := ih
    cases v with
    | map sel =>
      rw [scopeOfSelectors]
      by_cases hkind : isGatewayKind sel = true
      · rw [if_neg (by simp [hkind])]
        cases hmatches : t.selectorMatches sel gw.getLabels with
        | error e =>
          refine ⟨by simp, fun hparsed => ?_⟩
          obtain ⟨matched, hmatched⟩ := hparsed sel List.mem_cons_self
          cases hmatches.symm.trans hmatched
        | ok matched =>
          cases matched with
          | true => exact ⟨by simp, fun _ => ⟨fun _ => ⟨sel, List.mem_cons_self, hkind, hmatches⟩, fun _ => rfl⟩⟩
          | false =>
            refine ⟨hne, fun hparsed => ?_⟩
            rw [hiff (fun sel' hsel' => hparsed sel' (List.mem_cons_of_mem _ hsel'))]
            constructor
            · intro ⟨sel', hsel', h⟩
              exact ⟨sel', List.mem_cons_of_mem _ hsel', h⟩
            · intro ⟨sel', hsel', hkind', hmatches'⟩
              obtain hsel' | hsel' := List.mem_cons.mp hsel'
              · obtain rfl := Value.map.inj hsel'
                cases hmatches.symm.trans hmatches'
              · exact ⟨sel', hsel', hkind', hmatches'⟩
      · rw [if_pos (by simp [hkind])]
        refine ⟨hne, fun hparsed => ?_⟩
        rw [hiff (fun sel' hsel' => hparsed sel' (List.mem_cons_of_mem _ hsel'))]
        constructor
        · intro ⟨sel', hsel', h⟩
          exact ⟨sel', List.mem_cons_of_mem _ hsel', h⟩
        · intro ⟨sel', hsel', hkind', hmatches'⟩
          obtain hsel' | hsel' := List.mem_cons.mp hsel'
          · obtain rfl := Value.map.inj hsel'
            exact absurd hkind' hkind
          · exact ⟨sel', hsel', hkind', hmatches'⟩
    | null | bool | int | float | string | slice =>
      rw [scopeOfSelectors]
      · simp only [List.mem_cons, reduceCtorEq, false_or]
        exact ⟨hne, hiff⟩
      · exact fun _ hv => (by cases hv)

private theorem scope_listener_iff (hname : listenerName ≠ []) :
    policyScopeForListener t p gw listenerName = .ok .listener ↔
    TargetsListener gw listenerName p := by
  have hspec := (@scopeOfRefs_spec gw listenerName .none (targetsOf p) hname (by simp)).1
  rw [TargetsListener, ← hspec, policyScopeForListener]
  cases scopeOfRefs gw listenerName .none (targetsOf p) with
  | listener => simp
  | gateway => simp
  | none =>
    have hne := (@scopeOfSelectors_spec t gw (sliceOrNil p.spec "targetSelectors")).1
    simp [hne]

private theorem scope_gateway_iff (hname : listenerName ≠ []) (hparsed : Parsed t gw p) :
    policyScopeForListener t p gw listenerName = .ok .gateway ↔
      ¬TargetsListener gw listenerName p ∧ TargetsGateway t gw p := by
  obtain ⟨hlistener, hgateway⟩ :=
    @scopeOfRefs_spec gw listenerName .none (targetsOf p) hname (by simp)
  have hselectors := (@scopeOfSelectors_spec t gw (sliceOrNil p.spec "targetSelectors")).2 hparsed
  rw [policyScopeForListener, TargetsListener, TargetsGateway]
  cases hrefs : scopeOfRefs gw listenerName .none (targetsOf p) with
  | listener => simp [hlistener.mp hrefs]
  | gateway =>
    obtain ⟨hnone, hwhole⟩ := hgateway.mp hrefs
    simp only [reduceCtorEq, false_or] at hwhole
    simp [hnone, hwhole]
  | none =>
    have hnone : ¬∃ target ∈ targetsOf p, AimsAt gw listenerName target := by
      rw [← hlistener, hrefs]
      simp
    have hwhole : ¬∃ target ∈ targetsOf p, AimsAt gw [] target := by
      intro hwhole
      have := hgateway.mpr ⟨hnone, .inr hwhole⟩
      rw [hrefs] at this
      cases this
    simp only [hselectors, hnone, hwhole, not_false_eq_true, true_and, false_or]

end Scope

section Own

variable {gatewayName ns listenerName : GoString} {applied : Option Unstructured}
  {u u' : Unstructured} {s s' : State}

private theorem object_listenerPolicy :
    (listenerPolicy gatewayName ns listenerName applied).object = listenerPolicyObject ns
    listenerName (listenerPolicySpec gatewayName listenerName
      (some ((applied.map Unstructured.spec).getD []))) :=
  built_eq ..

/-- The built policy goes under the operator's own name for the listener. -/
theorem keyOf_listenerPolicy :
    keyOf (listenerPolicy gatewayName ns listenerName applied) = ownKey ns listenerName := by
  simp only [keyOf, Unstructured.getAPIVersion, Unstructured.getKind, Unstructured.getNamespace,
    Unstructured.getName, Unstructured.getNestedString, object_listenerPolicy]
  rfl

/-- Its spec is that of the policy applied to the Gateway, aimed at the listener. -/
theorem spec_listenerPolicy : (listenerPolicy gatewayName ns listenerName applied).spec =
    listenerPolicySpec gatewayName listenerName (some ((applied.map Unstructured.spec).getD [])) := by
  rw [Unstructured.spec, object_listenerPolicy]
  rfl

/-- Whose a policy is shows in its name and its labels. -/
theorem isListenerHeaderPolicy_congr (hname : u.getName = u'.getName)
    (hlabels : u.getLabels = u'.getLabels) :
    isListenerHeaderPolicy u = isListenerHeaderPolicy u' := by
  rw [isListenerHeaderPolicy, isListenerHeaderPolicy, hname, hlabels]

private theorem own_listenerPolicy
    (h : listenerName = externalHTTPSListenerName ∨ listenerName = internalHTTPSListenerName) :
    isListenerHeaderPolicy (listenerPolicy gatewayName ns listenerName applied) = true := by
  have hlabels : (listenerPolicy gatewayName ns listenerName applied).getLabels =
      sharedTLSLabels := by
    rw [Unstructured.getLabels, object_listenerPolicy]
    rfl
  have hname : (listenerPolicy gatewayName ns listenerName applied).getName =
      listenerHeaderPolicyName listenerName := by
    rw [Unstructured.getName, Unstructured.getNestedString, object_listenerPolicy]
    rfl
  have hmanaged : (sharedTLSLabels.get managedByLabel).elim [] Value.asString = operatorName := rfl
  rw [isListenerHeaderPolicy, hlabels, hname, hmanaged]
  obtain rfl | rfl := h
  · decide
  · decide

private theorem getName_of_key (h : keyOf u = keyOf u') : u.getName = u'.getName :=
  congrArg Key.name h

private theorem own_stamped (h : Stamped u u') :
    isListenerHeaderPolicy u' = isListenerHeaderPolicy u :=
  isListenerHeaderPolicy_congr (getName_of_key h.key) h.labels

private theorem own_withSpec :
    isListenerHeaderPolicy (withSpec u u') = isListenerHeaderPolicy u := by
  apply isListenerHeaderPolicy_congr (getName_of_key keyOf_withSpec)
  have hmetadata : (withSpec u u').object.get "metadata" = u.object.get "metadata" :=
    Fields.get_set_ne (by decide)
  rw [Unstructured.getLabels, Unstructured.getLabels, nestedMap, nestedMap,
    Unstructured.nestedFieldNoCopy_congr hmetadata]

private theorem spec_withSpec : (withSpec u u').spec = u'.spec :=
  Unstructured.nestedMapOrNil_map Fields.get_set_self

/-- A policy under the operator's key is one of the namespace. -/
theorem policy_of_own (h : s.objects (ownKey ns listenerName) = some u) : Policy s ns u := by
  have hkey := s.filed _ _ h
  refine ⟨by rw [hkey, h], ?_, ?_, ?_⟩
  · exact congrArg Key.apiVersion hkey
  · exact congrArg Key.kind hkey
  · exact congrArg Key.namespace hkey

/-- Policies of a namespace are told apart by their names. -/
theorem Policy.eq_of_name (h : Policy s ns u) (h' : Policy s ns u')
    (hname : qualifiedName u = qualifiedName u') :
    u = u' := by
  rw [qualifiedName, qualifiedName, h.2.2.2, h'.2.2.2] at hname
  have hsame : u.getName = u'.getName := List.append_cancel_left hname
  have hkey : keyOf u = keyOf u' := by
    rw [keyOf, keyOf, h.2.1, h'.2.1, h.2.2.1, h'.2.2.1, h.2.2.2, h'.2.2.2, hsame]
  have hfound := h.1
  rw [hkey] at hfound
  exact Option.some.inj (hfound.symm.trans h'.1)

/-- Where all objects but the operator's own policy are the same, so are the policies
of others. -/
theorem foreign_congr
    (hothers : ∀ key, key ≠ ownKey ns listenerName → s'.objects key = s.objects key)
    (hown : ∀ o, s.objects (ownKey ns listenerName) = some o → isListenerHeaderPolicy o = true)
    (hown' : ∀ o, s'.objects (ownKey ns listenerName) = some o → isListenerHeaderPolicy o = true)
    (p : Unstructured) :
    Foreign s' ns p ↔ Foreign s ns p := by
  by_cases hkey : keyOf p = ownKey ns listenerName
  · constructor
    · intro h
      have howned := hown' p (hkey ▸ h.1.1)
      rw [h.2] at howned
      cases howned
    · intro h
      have howned := hown p (hkey ▸ h.1.1)
      rw [h.2] at howned
      cases howned
  · rw [Foreign, Foreign, Policy, Policy, hothers _ hkey]

end Own

/-- A Gateway whose namespace has finitely many policies, with selectors that can be
parsed, and one of the shared listeners. -/
structure Setting (t : Tools) (s : State) (gw : Unstructured)
    (gatewayName ns listenerName : GoString) : Prop where
  gateway : s.objects ⟨gatewayVersion, gatewayKind, ns, gatewayName⟩ = some gw
  finite : ∃ policies : List Unstructured, policies.Nodup ∧ ∀ p, p ∈ policies ↔ Policy s ns p
  parsed : ∀ p, Foreign s ns p → Parsed t gw p
  listener : listenerName = externalHTTPSListenerName ∨ listenerName = internalHTTPSListenerName

/-- Whether another's policy targets the listener. -/
def Taken (s : State) (gw : Unstructured) (ns listenerName : GoString) : Prop :=
  ∃ p, Foreign s ns p ∧ TargetsListener gw listenerName p

/-- The first of the policies of others for the whole Gateway, or none where there is none. -/
def Applied (t : Tools) (s : State) (gw : Unstructured) (ns : GoString) : Option Unstructured → Prop
  | none => ∀ p, Foreign s ns p → ¬TargetsGateway t gw p
  | some p => Foreign s ns p ∧ TargetsGateway t gw p ∧
      ∀ q, Foreign s ns q → TargetsGateway t gw q → q = p ∨ Earlier t p q

/-- Whether what is under the operator's key, if anything, is the operator's. -/
def Owned (s : State) (ns listenerName : GoString) : Prop :=
  ∀ o, s.objects (ownKey ns listenerName) = some o → isListenerHeaderPolicy o = true

/-- What a run that returns without an error is to leave. -/
structure Ensured (t : Tools) (s s' : State) (gw : Unstructured)
    (gatewayName ns listenerName : GoString) : Prop where
  taken : Taken s gw ns listenerName → s'.objects (ownKey ns listenerName) = none
  free : ¬Taken s gw ns listenerName → ∃ applied stored, Applied t s gw ns applied ∧
    s'.objects (ownKey ns listenerName) = some stored ∧ isListenerHeaderPolicy stored = true ∧
    Value.Same (.map (listenerPolicySpec gatewayName listenerName (applied.map Unstructured.spec)))
      (.map stored.spec)
  others : ∀ key, key ≠ ownKey ns listenerName → s'.objects key = s.objects key
  again : ∀ log result s'',
    Program.RunsOn Exec s' (ensureListenerHeaderPolicy t gatewayName ns listenerName).run log result
      s'' → s'' = s'

/-- Whether every run, whatever order the policies are listed in, leaves the policies
of others as they are, and all of that where it returns without an error. -/
def Ensures (t : Tools) (s : State) (gw : Unstructured) (gatewayName ns listenerName : GoString) :
    Prop :=
  ∀ log result s', Program.RunsOn Exec s
    (ensureListenerHeaderPolicy t gatewayName ns listenerName).run log result s' →
    (∀ p, Foreign s ns p → s'.objects (keyOf p) = some p) ∧
      (result = .ok () → Ensured t s s' gw gatewayName ns listenerName)

section Runs

variable {t : Tools} {s s' : State} {gw : Unstructured} {gatewayName ns listenerName : GoString}
  {log : List (Σ request : Request, Answer request)} {policies : List Unstructured}
    {applied applied' : Option Unstructured}

private theorem Setting.name (h : Setting t s gw gatewayName ns listenerName) :
    listenerName ≠ [] := by
  obtain rfl | rfl := h.listener
  · decide
  · decide

/-- The policy to copy does not depend on the order the policies are listed in. -/
theorem Applied.unique (h : Applied t s gw ns applied) (h' : Applied t s gw ns applied') :
    applied = applied' := by
  cases applied with
  | none =>
    cases applied' with
    | none => rfl
    | some p => exact absurd h'.2.1 (h p h'.1)
  | some p =>
    cases applied' with
    | none => exact absurd h.2.1 (h' p h.1)
    | some q =>
      obtain heq | hearlier := h.2.2 q h'.1 h'.2.1
      · rw [heq]
      · obtain heq | hearlier' := h'.2.2 p h.1 h.2.1
        · rw [heq]
        · exact absurd hearlier' hearlier.not_earlier

/-- What the scan comes to is what the policies are, in whatever order they stand. -/
theorem scan_listed (h : Setting t s gw gatewayName ns listenerName)
    (hpolicies : ∀ p, p ∈ policies ↔ Policy s ns p) :
    (Taken s gw ns listenerName ∧ ∃ p, scanPolicies t gw listenerName [] policies = .taken p) ∨
      ¬Taken s gw ns listenerName ∧
      ∃ wide, scanPolicies t gw listenerName [] policies = .free wide ∧
        Applied t s gw ns (appliedGatewayWidePolicy t wide) := by
  have hread : ∀ p ∈ policies, Readable t gw listenerName p := by
    intro p hp hforeign
    exact readable_of_parsed (h.parsed p ⟨(hpolicies p).mp hp, hforeign⟩) hforeign
  have htakes : ∀ p, p ∈ policies ∧ Takes t gw listenerName p ↔
      Foreign s ns p ∧ TargetsListener gw listenerName p := by
    intro p
    rw [Takes, scope_listener_iff h.name, hpolicies, Foreign, and_assoc]
  obtain ⟨p, hp, hptakes, htaken⟩ | ⟨hnone, wide, hfree, hmem⟩ :=
    @scanPolicies_spec _ _ _ [] _ hread
  · exact .inl ⟨⟨p, (htakes p).mp ⟨hp, hptakes⟩⟩, p, htaken⟩
  · have hnotTaken : ¬Taken s gw ns listenerName := by
      intro htaken
      obtain ⟨p, hp⟩ := htaken
      obtain ⟨hmem, htakes⟩ := (htakes p).mpr hp
      exact hnone p hmem htakes
    have hwide : ∀ p, p ∈ wide ↔ Foreign s ns p ∧ TargetsGateway t gw p := by
      intro p
      rw [hmem, Wide, hpolicies]
      constructor
      · intro hp
        obtain ⟨hpolicy, hforeign, hscope⟩ := hp
        have hboth := (scope_gateway_iff h.name (h.parsed p ⟨hpolicy, hforeign⟩)).mp hscope
        exact ⟨⟨hpolicy, hforeign⟩, hboth.2⟩
      · intro hp
        obtain ⟨hp, hgateway⟩ := hp
        refine ⟨hp.1, hp.2, (scope_gateway_iff h.name (h.parsed p hp)).mpr ⟨?_, hgateway⟩⟩
        intro hlistener
        exact hnotTaken ⟨p, hp, hlistener⟩
    refine .inr ⟨hnotTaken, wide, by rw [hfree, List.nil_append], ?_⟩
    cases wide with
    | nil =>
      intro p hp hgateway
      exact absurd ((hwide p).mpr ⟨hp, hgateway⟩) List.not_mem_nil
    | cons m rest =>
      obtain ⟨hin, hleast⟩ := minFunc_spec (t := t) m rest
      obtain ⟨hforeign, hgateway⟩ := (hwide _).mp hin
      refine ⟨hforeign, hgateway, fun q hq hqgateway => ?_⟩
      have hnot := hleast q ((hwide q).mpr ⟨hq, hqgateway⟩)
      by_cases hname : qualifiedName q = qualifiedName (minFunc (comparePolicies t) m rest)
      · exact .inl (hq.1.eq_of_name hforeign.1 hname)
      · exact .inr ((earlier_or hname).resolve_left hnot)

/-- What `ensureListenerHeaderPolicy` has done when it returns without an error. -/
theorem ensure_cases (h : Setting t s gw gatewayName ns listenerName)
    (hrun : Program.RunsOn Exec s (ensureListenerHeaderPolicy t gatewayName ns listenerName).run log
      (.ok ()) s') :
    (Taken s gw ns listenerName ∧ s'.objects (ownKey ns listenerName) = none ∧
        ∀ key, key ≠ ownKey ns listenerName → s'.objects key = s.objects key) ∨
      ¬Taken s gw ns listenerName ∧ ∃ applied tail, Applied t s gw ns applied ∧
        Program.RunsOn Exec s
          (createOrUpdateUnstructured (listenerPolicy gatewayName ns listenerName applied)).run tail
          (.ok ()) s' := by
  have hensure : (ensureListenerHeaderPolicy t gatewayName ns listenerName).run =
      .call (.get ⟨gatewayVersion, gatewayKind, ns, gatewayName⟩)
        (fun found => (ensureFound t gatewayName ns listenerName found).run) := rfl
  rw [hensure] at hrun
  obtain ⟨answer, s₁, tail, hget, hrest, -⟩ := hrun.call_inv
  cases hget with
  | found hfound =>
    obtain rfl := Option.some.inj (h.gateway.symm.trans hfound)
    have hlist : (ensureFound t gatewayName ns listenerName (.ok gw)).run =
        .call (.list clientTrafficPolicyVersion clientTrafficPolicyKind ns)
          (fun policies => (ensureListed t gw gatewayName ns listenerName policies).run) := rfl
    rw [hlist] at hrest
    obtain ⟨answer, s₁, tail, hlisted, hend, -⟩ := hrest.call_inv
    cases hlisted with
    | listed hmem =>
      rw [ensureListed] at hend
      obtain ⟨htaken, p, hscan⟩ | ⟨hfree, wide, hscan, happlied⟩ := scan_listed h hmem
      · left
        refine ⟨htaken, ?_⟩
        rw [hscan] at hend
        obtain ⟨answer, s₂, tail, hevent, hend, -⟩ := Program.RunsOn.call_inv hend
        cases hevent
        obtain ⟨answer, s₃, tail, hdelete, hend, -⟩ := Program.RunsOn.call_inv hend
        have hgone : Program.RunsOn Exec s₃
          (ignoreGone (listenerPolicy gatewayName ns listenerName none) answer).run tail
            (.ok ()) s' := hend
        cases hdelete with
        | deleted =>
          obtain ⟨-, -, rfl⟩ := Program.RunsOn.pure_inv hgone
          rw [keyOf_listenerPolicy]
          exact ⟨State.objects_remove, fun key hkey => State.objects_remove_ne hkey⟩
        | deleteMissing hmissing he =>
          rw [ignoreGone, if_pos he] at hgone
          obtain ⟨-, -, rfl⟩ := hgone.pure_inv
          rw [keyOf_listenerPolicy] at hmissing
          exact ⟨hmissing, fun _ _ => rfl⟩
        | deleteFails he =>
          rw [ignoreGone, if_neg he] at hgone
          obtain ⟨-, herror, -⟩ := hgone.pure_inv
          cases herror
      · right
        rw [hscan] at hend
        exact ⟨hfree, _, _, happlied, hend⟩
    | listFails he =>
      rw [ensureListed, if_neg he] at hend
      obtain ⟨-, herror, -⟩ := hend.pure_inv
      cases herror
  | missing hmissing =>
    rw [h.gateway] at hmissing
    cases hmissing
  | getFails he =>
    rw [ensureFound, if_neg he] at hrest
    obtain ⟨-, herror, -⟩ := hrest.pure_inv
    cases herror

/-- A create or an update can always come to its end. -/
theorem createOrUpdate_runs (s : State) (desired : Unstructured) : ∃ log s',
    Program.RunsOn Exec s (createOrUpdateUnstructured desired).run log (.ok ()) s' := by
  rw [run_createOrUpdate]
  cases hfound : s.objects (keyOf desired) with
  | none =>
    have htail : Program.RunsOn Exec s (createOrUpdateLookedUp desired (.error ⟨.notFound, []⟩)).run
        [⟨.create desired, .ok ()⟩] (.ok ()) (s.put desired) := by
      rw [createOrUpdateLookedUp, if_pos rfl]
      exact Program.RunsOn.call (Exec.created hfound ⟨rfl, rfl, fun _ _ => rfl⟩) (.pure _ _)
    exact ⟨_, _, Program.RunsOn.call (Exec.missing hfound rfl) htail⟩
  | some current =>
    cases hequal : nestedSpecsEqual desired.spec current.spec with
    | true => exact ⟨_, _, runs_kept hfound ((specsEqual_iff _ _).mp hequal)⟩
    | false =>
      have hkey : keyOf (withSpec current desired) = keyOf desired :=
        keyOf_withSpec.trans (s.filed _ _ hfound)
      have hstored : (s.objects (keyOf (withSpec current desired))).isSome = true := by
        rw [hkey, hfound, Option.isSome_some]
      have htail : Program.RunsOn Exec s (createOrUpdateLookedUp desired (.ok current)).run
          [⟨.update (withSpec current desired), .ok ()⟩] (.ok ())
            (s.put (withSpec current desired)) := by
        rw [createOrUpdateLookedUp, if_neg (by simp [hequal])]
        exact Program.RunsOn.call (Exec.updated hstored) (.pure _ _)
      exact ⟨_, _, Program.RunsOn.call (Exec.found hfound) htail⟩

/-- `ensureListenerHeaderPolicy` can always come to its end. -/
theorem ensure_runs (h : Setting t s gw gatewayName ns listenerName) : ∃ log s',
    Program.RunsOn Exec s (ensureListenerHeaderPolicy t gatewayName ns listenerName).run log
      (.ok ()) s' := by
  obtain ⟨policies, hnodup, hpolicies⟩ := h.finite
  have happly : ∃ log s', Program.RunsOn Exec s (applyScan t gw gatewayName ns listenerName
      (scanPolicies t gw listenerName [] policies)).run log (.ok ()) s' := by
    obtain ⟨-, p, hscan⟩ | ⟨-, wide, hscan, -⟩ := scan_listed h hpolicies
    · rw [hscan]
      have hdelete : ∃ answer s₁,
        Exec s (.delete (listenerPolicy gatewayName ns listenerName none)) answer s₁ ∧
          ignoreGone (listenerPolicy gatewayName ns listenerName none) answer = pure () := by
        cases hfound : s.objects (keyOf (listenerPolicy gatewayName ns listenerName none)) with
        | none => exact ⟨.error ⟨.notFound, []⟩, s, .deleteMissing hfound rfl, by rw [ignoreGone, if_pos rfl]⟩
        | some o => exact ⟨.ok (), _, .deleted (by rw [hfound, Option.isSome_some]), by rw [ignoreGone]⟩
      obtain ⟨answer, s₁, hexec, hgone⟩ := hdelete
      have htail : Program.RunsOn Exec s₁
        (ignoreGone (listenerPolicy gatewayName ns listenerName none) answer).run []
          (.ok ()) s₁ := by
        rw [hgone]
        exact .pure _ _
      exact ⟨_, s₁, Program.RunsOn.call .recorded (Program.RunsOn.call hexec htail)⟩
    · rw [hscan]
      exact createOrUpdate_runs s _
  obtain ⟨log, s', happly⟩ := happly
  exact ⟨_, s', Program.RunsOn.call (.found h.gateway)
    (Program.RunsOn.call (.listed hpolicies hnodup) happly)⟩

/-- A create or an update that returns an error has changed nothing. -/
theorem createOrUpdate_failed {desired : Unstructured} {e : StatusError}
    (hrun : Program.RunsOn Exec s (createOrUpdateUnstructured desired).run log (.error e) s') :
    s' = s := by
  rw [run_createOrUpdate] at hrun
  obtain ⟨answer, s₁, tail, hget, hrest, -⟩ := hrun.call_inv
  cases hget with
  | found hfound =>
    rw [createOrUpdateLookedUp] at hrest
    split_ifs at hrest
    · obtain ⟨-, herror, -⟩ := hrest.pure_inv
      cases herror
    · obtain ⟨answer, s₂, tail, hupdate, hend, -⟩ := hrest.call_inv
      cases hupdate with
      | updated =>
        obtain ⟨-, herror, -⟩ := hend.pure_inv
        cases herror
      | updateFails => exact hend.pure_inv.2.2
  | missing _ he =>
    rw [createOrUpdateLookedUp, if_pos he] at hrest
    obtain ⟨answer, s₂, tail, hcreate, hend, -⟩ := hrest.call_inv
    cases hcreate with
    | created =>
      obtain ⟨-, herror, -⟩ := hend.pure_inv
      cases herror
    | createFails => exact hend.pure_inv.2.2
  | getFails he =>
    rw [createOrUpdateLookedUp, if_neg he] at hrest
    exact hrest.pure_inv.2.2

/-- `ensureListenerHeaderPolicy` has changed nothing when it returns an error. -/
theorem ensure_failed {e : StatusError}
    (hrun : Program.RunsOn Exec s (ensureListenerHeaderPolicy t gatewayName ns listenerName).run log
      (.error e) s') :
    s' = s := by
  have hensure : (ensureListenerHeaderPolicy t gatewayName ns listenerName).run =
      .call (.get ⟨gatewayVersion, gatewayKind, ns, gatewayName⟩)
        (fun found => (ensureFound t gatewayName ns listenerName found).run) := rfl
  rw [hensure] at hrun
  obtain ⟨answer, s₁, tail, hget, hrest, -⟩ := hrun.call_inv
  cases hget with
  | @found _ gw hfound =>
    have hlist : (ensureFound t gatewayName ns listenerName (.ok gw)).run =
        .call (.list clientTrafficPolicyVersion clientTrafficPolicyKind ns)
          (fun policies => (ensureListed t gw gatewayName ns listenerName policies).run) := rfl
    rw [hlist] at hrest
    obtain ⟨answer, s₁, tail, hlisted, hend, -⟩ := hrest.call_inv
    cases hlisted with
    | @listed _ _ _ policies hmem =>
      rw [ensureListed] at hend
      cases hscan : scanPolicies t gw listenerName [] policies with
      | failed p e =>
        rw [hscan] at hend
        exact (Program.RunsOn.pure_inv hend).2.2
      | taken p =>
        rw [hscan] at hend
        obtain ⟨answer, s₂, tail, hevent, hend, -⟩ := Program.RunsOn.call_inv hend
        cases hevent
        obtain ⟨answer, s₃, tail, hdelete, hend, -⟩ := Program.RunsOn.call_inv hend
        have hgone : Program.RunsOn Exec s₃
          (ignoreGone (listenerPolicy gatewayName ns listenerName none) answer).run tail
            (.error e) s' := hend
        cases hdelete with
        | deleted =>
          obtain ⟨-, herror, -⟩ := Program.RunsOn.pure_inv hgone
          cases herror
        | deleteMissing _ he =>
          rw [ignoreGone, if_pos he] at hgone
          exact hgone.pure_inv.2.2
        | deleteFails he =>
          rw [ignoreGone, if_neg he] at hgone
          exact hgone.pure_inv.2.2
      | free wide =>
        rw [hscan] at hend
        exact createOrUpdate_failed hend
    | listFails he =>
      rw [ensureListed, if_neg he] at hend
      exact hend.pure_inv.2.2
  | missing _ he =>
    rw [ensureFound, if_pos he] at hrest
    exact hrest.pure_inv.2.2
  | getFails he =>
    rw [ensureFound, if_neg he] at hrest
    exact hrest.pure_inv.2.2

/-- A create or an update that returns without an error leaves an object whose spec the
code takes for the desired one, labelled as the one sent or the one that was there. -/
theorem createOrUpdate_leaves {desired : Unstructured}
    (hrun : Program.RunsOn Exec s (createOrUpdateUnstructured desired).run log (.ok ()) s') :
    ∃ stored, s'.objects (keyOf desired) = some stored ∧
    nestedSpecsEqual desired.spec stored.spec = true ∧
      (isListenerHeaderPolicy stored = isListenerHeaderPolicy desired ∨
        ∃ current, s.objects (keyOf desired) = some current ∧
          isListenerHeaderPolicy stored = isListenerHeaderPolicy current) ∧
      (∀ key, key ≠ keyOf desired → s'.objects key = s.objects key) ∧
      ((∀ current, s.objects (keyOf desired) = some current →
        Value.Same (.map desired.spec) (.map current.spec) ∨
          ¬SpelledAlike (.map desired.spec) (.map current.spec)) →
        Value.Same (.map desired.spec) (.map stored.spec)) := by
  have hequal : ∀ stored : Unstructured, stored.spec = desired.spec →
      nestedSpecsEqual desired.spec stored.spec = true := by
    intro stored hspec
    rw [hspec]
    exact (specsEqual_iff desired desired).mpr (.refl _)
  have hsame : ∀ stored : Unstructured, stored.spec = desired.spec →
      Value.Same (.map desired.spec) (.map stored.spec) := by
    intro stored hspec
    rw [hspec]
    exact .refl _
  obtain ⟨-, stored, hstamped, rfl⟩ | ⟨current, hcurrent, ⟨hkept, rfl⟩ | ⟨-, rfl⟩⟩ :=
    createOrUpdate_cases hrun
  · have hspec : stored.spec = desired.spec :=
      Unstructured.nestedMapOrNil_congr (hstamped.fields _ (by decide))
    have hkey := hstamped.key
    refine ⟨stored, ?_, hequal _ hspec, .inl (own_stamped hstamped), fun key hne => ?_,
      fun _ => hsame _ hspec⟩
    · rw [← hkey]
      exact State.objects_put
    · rw [← hkey] at hne
      exact State.objects_put_ne hne
  · refine ⟨current, hcurrent, hkept, .inr ⟨current, hcurrent, rfl⟩, fun _ _ => rfl,
      fun hdiffer => ?_⟩
    exact (hdiffer current hcurrent).resolve_right (not_not.mpr ((specsEqual_iff _ _).mp hkept))
  · have hkey : keyOf (withSpec current desired) = keyOf desired :=
      keyOf_withSpec.trans (s.filed _ _ hcurrent)
    refine ⟨withSpec current desired, ?_, hequal _ spec_withSpec,
      .inr ⟨current, hcurrent, own_withSpec⟩,
      fun key hne => ?_, fun _ => hsame _ spec_withSpec⟩
    · rw [← hkey]
      exact State.objects_put
    · rw [← hkey] at hne
      exact State.objects_put_ne hne

/-- Where all objects but the operator's own policy are the same, the Gateway and its
policies are as before. -/
theorem Setting.after (h : Setting t s gw gatewayName ns listenerName)
    (hothers : ∀ key, key ≠ ownKey ns listenerName → s'.objects key = s.objects key)
    (hforeign : ∀ p, Foreign s' ns p ↔ Foreign s ns p) :
    Setting t s' gw gatewayName ns listenerName where
  gateway := by
    rw [hothers]
    · exact h.gateway
    · intro hkey
      have hkind : gatewayKind = clientTrafficPolicyKind := congrArg Key.kind hkey
      exact absurd hkind (by decide)
  finite := by
    obtain ⟨policies, hnodup, hmem⟩ := h.finite
    refine ⟨(s'.objects (ownKey ns listenerName)).toList ++
      policies.filter (fun p => keyOf p ≠ ownKey ns listenerName),
      ?_, fun p => ?_⟩
    · apply List.Nodup.append
      · cases s'.objects (ownKey ns listenerName) with
        | none => exact List.nodup_nil
        | some o => exact List.nodup_singleton o
      · exact hnodup.filter _
      · intro p hown hother
        rw [Option.mem_toList] at hown
        rw [List.mem_filter, decide_eq_true_eq] at hother
        exact hother.2 (s'.filed _ _ hown)
    · rw [List.mem_append, Option.mem_toList, List.mem_filter, decide_eq_true_eq, hmem]
      by_cases hkey : keyOf p = ownKey ns listenerName
      · constructor
        · intro hp
          obtain hown | ⟨-, hne⟩ := hp
          · exact policy_of_own hown
          · exact absurd hkey hne
        · exact fun hp => .inl (hkey ▸ hp.1)
      · rw [Policy, Policy, hothers _ hkey]
        constructor
        · intro hp
          obtain hown | ⟨hp, -⟩ := hp
          · exact absurd (s'.filed _ _ hown) hkey
          · exact hp
        · exact fun hp => .inr ⟨hp, hkey⟩
  parsed := fun p hp => h.parsed p ((hforeign p).mp hp)
  listener := h.listener

/-- What `ensureListenerHeaderPolicy` leaves of the operator's own policy. -/
theorem ensure_leaves (h : Setting t s gw gatewayName ns listenerName)
    (hown : Owned s ns listenerName)
    (hrun : Program.RunsOn Exec s (ensureListenerHeaderPolicy t gatewayName ns listenerName).run log
      (.ok ()) s') :
    Owned s' ns listenerName ∧
    (∀ key, key ≠ ownKey ns listenerName → s'.objects key = s.objects key) ∧
      (Taken s gw ns listenerName ∧ s'.objects (ownKey ns listenerName) = none ∨
        ¬Taken s gw ns listenerName ∧ ∃ applied stored, Applied t s gw ns applied ∧
          s'.objects (ownKey ns listenerName) = some stored ∧
          nestedSpecsEqual (listenerPolicySpec gatewayName listenerName
            (some ((applied.map Unstructured.spec).getD [])))
            stored.spec = true) := by
  obtain ⟨htaken, hgone, hothers⟩ | ⟨hfree, applied, tail, happlied, hwrite⟩ := ensure_cases h hrun
  · refine ⟨fun o ho => ?_, hothers, .inl ⟨htaken, hgone⟩⟩
    rw [hgone] at ho
    cases ho
  · obtain ⟨stored, hstored, hequal, hlabelled, hothers, -⟩ := createOrUpdate_leaves hwrite
    rw [keyOf_listenerPolicy] at hstored hlabelled hothers
    rw [spec_listenerPolicy] at hequal
    refine ⟨fun o ho => ?_, hothers, .inr ⟨hfree, applied, stored, happlied, hstored, hequal⟩⟩
    obtain rfl := Option.some.inj (hstored.symm.trans ho)
    obtain hsent | ⟨current, hcurrent, hkept⟩ := hlabelled
    · rw [hsent]
      exact own_listenerPolicy h.listener
    · rw [hkept]
      exact hown current hcurrent

/-- Where the operator's own policy is its own, a second run changes nothing. -/
theorem ensure_again (h : Setting t s gw gatewayName ns listenerName)
    (hown : Owned s ns listenerName)
    (hrun : Program.RunsOn Exec s (ensureListenerHeaderPolicy t gatewayName ns listenerName).run log
      (.ok ()) s')
    {log' : List (Σ request : Request, Answer request)} {s'' : State}
    (hrun' : Program.RunsOn Exec s'
      (ensureListenerHeaderPolicy t gatewayName ns listenerName).run log' (.ok ()) s'') :
    s'' = s' := by
  obtain ⟨hown', hothers, hleft⟩ := ensure_leaves h hown hrun
  have hforeign := foreign_congr hothers hown hown'
  have htaken : Taken s' gw ns listenerName ↔ Taken s gw ns listenerName := by
    simp only [Taken, hforeign]
  have happlied : ∀ applied, Applied t s' gw ns applied ↔ Applied t s gw ns applied := by
    intro applied
    cases applied with
    | none => simp only [Applied, hforeign]
    | some p => simp only [Applied, hforeign]
  obtain ⟨htaken', hgone', hothers'⟩ | ⟨hfree', applied', tail, happlied', hwrite⟩ :=
    ensure_cases (h.after hothers hforeign) hrun'
  · obtain ⟨-, hgone⟩ | ⟨hfree, -⟩ := hleft
    · apply State.ext
      funext key
      by_cases hkey : key = ownKey ns listenerName
      · rw [hkey, hgone, hgone']
      · exact hothers' key hkey
    · exact absurd (htaken.mp htaken') hfree
  · obtain ⟨htakenBefore, -⟩ | ⟨-, applied, stored, happly, hstored, hequal⟩ := hleft
    · exact absurd (htaken.mpr htakenBefore) hfree'
    · obtain rfl := happly.unique ((happlied _).mp happlied')
      obtain ⟨hmissing, -⟩ | ⟨current, hcurrent, ⟨-, hsame⟩ | ⟨hdiffers, -⟩⟩ :=
        createOrUpdate_cases hwrite
      · rw [keyOf_listenerPolicy, hstored] at hmissing
        cases hmissing
      · exact hsame
      · rw [keyOf_listenerPolicy, hstored] at hcurrent
        obtain rfl := Option.some.inj hcurrent
        rw [spec_listenerPolicy, hequal] at hdiffers
        cases hdiffers

/-- Where the operator leaves the policies of others as they are, what is under its
policy's name is its own. -/
theorem owned_of_ensures (h : Setting t s gw gatewayName ns listenerName)
    (hensures : Ensures t s gw gatewayName ns listenerName) : Owned s ns listenerName := by
  intro o ho
  obtain ⟨log, s', hrun⟩ := ensure_runs h
  obtain ⟨hforeign, hdone⟩ := hensures _ _ _ hrun
  have hensured := hdone rfl
  by_contra hunlabelled
  have hkept := hforeign o ⟨policy_of_own ho, Bool.eq_false_iff.mpr hunlabelled⟩
  rw [s.filed _ _ ho] at hkept
  by_cases htaken : Taken s gw ns listenerName
  · rw [hensured.taken htaken] at hkept
    cases hkept
  · obtain ⟨applied, stored, -, hstored, hlabelled, -⟩ := hensured.free htaken
    obtain rfl := Option.some.inj (hstored.symm.trans hkept)
    exact hunlabelled hlabelled

/-- `ensureListenerHeaderPolicy` leaves what it is to leave where what is under the
operator's name, if anything, carries the operator's label, and where its spec does not
differ from the one built in nothing but strings that spell what the other has. -/
theorem ensures_iff (h : Setting t s gw gatewayName ns listenerName) :
    Ensures t s gw gatewayName ns listenerName ↔
      Owned s ns listenerName ∧
      (¬Taken s gw ns listenerName → ∀ o applied, s.objects (ownKey ns listenerName) = some o →
        Applied t s gw ns applied →
        Value.Same (.map (listenerPolicySpec gatewayName listenerName
          (applied.map Unstructured.spec))) (.map o.spec) ∨
          ¬SpelledAlike (.map (listenerPolicySpec gatewayName listenerName
            (applied.map Unstructured.spec)))
            (.map o.spec)) := by
  have hspec : ∀ applied : Option Unstructured,
      listenerPolicySpec gatewayName listenerName (some ((applied.map Unstructured.spec).getD [])) =
        listenerPolicySpec gatewayName listenerName (applied.map Unstructured.spec) := by
    intro applied
    cases applied with
    | none => rfl
    | some p => rfl
  constructor
  · intro hensures
    obtain ⟨log, s', hrun⟩ := ensure_runs h
    obtain ⟨hforeign, hdone⟩ := hensures _ _ _ hrun
    have hensured := hdone rfl
    refine ⟨owned_of_ensures h hensures, fun hfree o applied ho happlied => ?_⟩
    obtain ⟨applied', stored, happlied', hstored, -, hsame⟩ := hensured.free hfree
    obtain rfl := happlied.unique happlied'
    obtain ⟨htaken, -⟩ | ⟨-, applied'', tail, happlied'', hwrite⟩ := ensure_cases h hrun
    · exact absurd htaken hfree
    · obtain rfl := happlied.unique happlied''
      obtain ⟨hmissing, -⟩ | ⟨current, hcurrent, ⟨-, rfl⟩ | ⟨hdiffers, -⟩⟩ :=
        createOrUpdate_cases hwrite
      · rw [keyOf_listenerPolicy, ho] at hmissing
        cases hmissing
      · obtain rfl := Option.some.inj (ho.symm.trans hstored)
        exact .inl hsame
      · rw [keyOf_listenerPolicy, ho] at hcurrent
        obtain rfl := Option.some.inj hcurrent
        right
        rw [← hspec, ← @spec_listenerPolicy _ ns, ← specsEqual_iff, hdiffers]
        exact Bool.false_ne_true
  · intro hcondition log result s' hrun
    obtain ⟨hown, hdiffer⟩ := hcondition
    cases result with
    | error e =>
      obtain rfl := ensure_failed hrun
      exact ⟨fun p hp => hp.1.1, fun herror => (by cases herror)⟩
    | ok value =>
      obtain ⟨hown', hothers, -⟩ := ensure_leaves h hown hrun
      refine ⟨fun p hp => ?_,
        fun _ => ⟨fun htaken => ?_, fun hfree => ?_, hothers, fun log' result s'' hrun' => ?_⟩⟩
      · rw [hothers]
        · exact hp.1.1
        · intro hkey
          have howned := hown p (hkey ▸ hp.1.1)
          rw [hp.2] at howned
          cases howned
      · obtain ⟨-, hgone, -⟩ | ⟨hfree, -⟩ := ensure_cases h hrun
        · exact hgone
        · exact absurd htaken hfree
      · obtain ⟨htaken, -⟩ | ⟨-, applied, tail, happlied, hwrite⟩ := ensure_cases h hrun
        · exact absurd htaken hfree
        · obtain ⟨stored, hstored, -, -, -, hsame⟩ := createOrUpdate_leaves hwrite
          rw [keyOf_listenerPolicy] at hstored
          rw [keyOf_listenerPolicy, spec_listenerPolicy, hspec] at hsame
          exact ⟨applied, stored, happlied, hstored, hown' _ hstored,
            hsame (fun current hcurrent => hdiffer hfree current applied hcurrent happlied)⟩
      · cases result with
        | error e => exact ensure_failed hrun'
        | ok value => exact ensure_again h hown hrun hrun'

end Runs

section Concrete

/-- Selectors do not stand in the policies below, and no times. -/
def tools : Tools := ⟨fun _ => 0, fun _ _ => .ok true⟩

def gatewayFields : Fields Value :=
  [("apiVersion", .string "gateway.networking.k8s.io/v1"), ("kind", .string "Gateway"),
    ("metadata", .map [("name", .string "nebari-gateway"),
      ("namespace", .string "envoy-gateway-system")])]

def gateway : Unstructured := ⟨gatewayFields, by decide⟩

/-- A ClientTrafficPolicy with one target, without labels. -/
def policyFields (name : GoString) (target : Fields Value) : Fields Value :=
  [("apiVersion", .string "gateway.envoyproxy.io/v1alpha1"),
    ("kind", .string "ClientTrafficPolicy"),
    ("metadata", .map [("name", .string name), ("namespace", .string "envoy-gateway-system")]),
    ("spec", .map [("targetRefs", .slice [.map target])])]

/-- A platform's policy for the whole Gateway. -/
def platformPolicy : Unstructured :=
  ⟨policyFields "platform-buffer-limit" [("kind", .string "Gateway"),
    ("name", .string "nebari-gateway")], by decide⟩

/-- An administrator's policy for the listener, under the name the operator's has. -/
def adminPolicy : Unstructured :=
  ⟨policyFields "llm-https-client-headers" [("kind", .string "Gateway"),
    ("name", .string "nebari-gateway"),
    ("sectionName", .string "llm-https")], by decide⟩

/-- A Gateway and one policy in its namespace. -/
def withPolicy (p : Unstructured) : State := (State.empty.put gateway).put p

private theorem objects_withPolicy {p o : Unstructured} {key : Key}
    (h : (withPolicy p).objects key = some o) :
    key = keyOf p ∧ o = p ∨ key = keyOf gateway ∧ o = gateway := by
  by_cases hp : key = keyOf p
  · left
    rw [hp, withPolicy, State.objects_put] at h
    exact ⟨hp, (Option.some.inj h).symm⟩
  · rw [withPolicy, State.objects_put_ne hp] at h
    by_cases hgw : key = keyOf gateway
    · right
      rw [hgw, State.objects_put] at h
      exact ⟨hgw, (Option.some.inj h).symm⟩
    · rw [State.objects_put_ne hgw] at h
      cases h

/-- The one policy is the one of its namespace. -/
theorem policy_withPolicy {p q : Unstructured} (hkind : p.getKind = clientTrafficPolicyKind)
    (hversion : p.getAPIVersion = clientTrafficPolicyVersion)
    (hns : p.getNamespace = "envoy-gateway-system") :
    Policy (withPolicy p) "envoy-gateway-system" q ↔ q = p := by
  constructor
  · intro hq
    obtain ⟨hstored, -, hqkind, -⟩ := hq
    obtain ⟨-, rfl⟩ | ⟨-, rfl⟩ := objects_withPolicy hstored
    · rfl
    · exact absurd hqkind (by decide)
  · intro hq
    rw [hq]
    exact ⟨State.objects_put, hversion, hkind, hns⟩

private theorem setting_withPolicy {p : Unstructured} (hkind : p.getKind = clientTrafficPolicyKind)
    (hversion : p.getAPIVersion = clientTrafficPolicyVersion)
    (hns : p.getNamespace = "envoy-gateway-system") :
    Setting tools (withPolicy p) gateway "nebari-gateway" "envoy-gateway-system" "llm-https" where
  gateway := by
    rw [withPolicy, State.objects_put_ne]
    · exact @State.objects_put _ gateway
    · intro hkey
      have hgateway : gatewayKind = p.getKind := congrArg Key.kind hkey
      rw [hkind] at hgateway
      exact absurd hgateway (by decide)
  finite := ⟨[p], List.nodup_singleton p,
    fun q => by rw [List.mem_singleton, policy_withPolicy hkind hversion hns]⟩
  parsed := fun _ _ _ _ => ⟨true, rfl⟩
  listener := .inl rfl

/-- The settings of a platform's policy come to the listener's own. -/
theorem platform_policy_ensured :
    Ensures tools (withPolicy platformPolicy) gateway "nebari-gateway" "envoy-gateway-system"
      "llm-https" := by
  apply (ensures_iff (setting_withPolicy rfl rfl rfl)).mpr
  have hnone : ∀ o, (withPolicy platformPolicy).objects
      (ownKey "envoy-gateway-system" "llm-https") ≠ some o := by
    intro o ho
    obtain ⟨hkey, -⟩ | ⟨hkey, -⟩ := objects_withPolicy ho
    · exact absurd hkey (by decide)
    · exact absurd hkey (by decide)
  exact ⟨fun o ho => absurd ho (hnone o), fun _ o _ ho => absurd ho (hnone o)⟩

/-- An administrator's policy of that name is deleted, although it carries no label of
the operator's. -/
theorem admin_policy_deleted :
    Setting tools (withPolicy adminPolicy) gateway "nebari-gateway" "envoy-gateway-system"
      "llm-https" ∧
      ¬Ensures tools (withPolicy adminPolicy) gateway "nebari-gateway" "envoy-gateway-system"
        "llm-https" := by
  have hsetting : Setting tools
      (withPolicy adminPolicy) gateway "nebari-gateway" "envoy-gateway-system" "llm-https" :=
    setting_withPolicy rfl rfl rfl
  refine ⟨hsetting, fun hensures => ?_⟩
  have howned := owned_of_ensures hsetting hensures adminPolicy State.objects_put
  exact absurd howned (by decide)

end Concrete

end listenerpolicies
