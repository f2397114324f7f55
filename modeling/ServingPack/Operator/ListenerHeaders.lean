import ServingPack.Operator.Reconcilers.ListenerHeaders

open golang unstructured reconcilers

namespace listenerheaders

/-- What a map variable that may be nil shows. -/
def shown (mem : Memory) (inherited : Option Ref) : Fields Value :=
  (inherited.map (fun r => mem.getD r [])).getD []

/-- A policy's spec whose header settings have the types of the API. -/
structure WellTyped (spec : Fields Value) : Prop where
  wellFormed : (Value.map spec).wellFormed = true
  headers : ∀ v, spec.get "headers" = some v → ∃ headers, v = .map headers
  early : ∀ headers v, spec.get "headers" = some (.map headers) →
    Fields.get headers "earlyRequestHeaders" = some v →
    ∃ early, v = .map early
  remove : ∀ headers early v, spec.get "headers" = some (.map headers) →
    Fields.get headers "earlyRequestHeaders" = some (.map early) →
      Fields.get early "remove" = some v →
    ∃ names : List GoString, v = .slice (names.map .string)

/-- The headers a spec removes from requests. -/
def removed (spec : Fields Value) : List GoString :=
  match nestedStringSlice spec ["headers", "earlyRequestHeaders", "remove"] with
  | .ok (some names) => names
  | _ => []

/-- Two paths of which neither leads through the other. -/
def Apart (path own : List GoString) : Prop := ¬path <+: own ∧ ¬own <+: path

/-- The settings a listener's policy does not take from the inherited one. -/
def ownSettings : List (List GoString) :=
  [["targetRef"], ["targetRefs"], ["targetSelectors"], ["headers", "requestID"],
    ["headers", "earlyRequestHeaders", "remove"]]

/-- What the spec of a listener's policy is to be. -/
structure Protects (gatewayName listenerName : GoString) (inherited spec : Fields Value) :
    Prop where
  target : spec.get "targetRefs" = some (listenerTarget gatewayName listenerName)
  only : spec.get "targetRef" = none ∧ spec.get "targetSelectors" = none
  removes : nestedStringSlice spec ["headers", "earlyRequestHeaders", "remove"] =
    .ok (some (removed spec)) ∧
    ∀ h, h ∈ removed spec ↔ h ∈ callerIdentityHeaders ∨ h ∈ removed inherited
  requestID : nestedString spec ["headers", "requestID"] = .ok (some (lit "Generate"))
  rest : ∀ path, (∀ own ∈ ownSettings, Apart path own) →
    nestedFieldNoCopy (.map spec) path = nestedFieldNoCopy (.map inherited) path

section Maps

variable {m spec early headers : Fields Value} {k field : GoString}
  {gatewayName listenerName : GoString} {names : List GoString}

private theorem mem_addIdentityHeaders {h : GoString} :
    h ∈ addIdentityHeaders names ↔ h ∈ names ∨ h ∈ callerIdentityHeaders := by
  have hfold : ∀ l names : List GoString,
      (h ∈ l.foldl (fun remove h => if h ∈ remove then remove else remove ++ [h]) names ↔
        h ∈ names ∨ h ∈ l) := by
    intro l
    induction l with
    | nil => simp
    | cons x l ih =>
      intro names
      rw [List.foldl_cons, ih, List.mem_cons]
      split_ifs with hx
      · constructor
        · intro hmem
          exact hmem.imp_right .inr
        · intro hmem
          obtain hmem | rfl | hmem := hmem
          · exact .inl hmem
          · exact .inl hx
          · exact .inr hmem
      · rw [List.mem_append, List.mem_singleton, or_assoc]
  exact hfold _ _

/-- Headers that are there are not added again. -/
theorem addIdentityHeaders_eq (h : ∀ x ∈ callerIdentityHeaders, x ∈ names) :
    addIdentityHeaders names = names := by
  have hfold : ∀ l : List GoString, (∀ x ∈ l, x ∈ names) →
      l.foldl (fun remove h => if h ∈ remove then remove else remove ++ [h]) names = names := by
    intro l
    induction l with
    | nil => exact fun _ => rfl
    | cons x l ih =>
      intro hl
      rw [List.foldl_cons, if_pos (hl x List.mem_cons_self)]
      exact ih (fun y hy => hl y (List.mem_cons_of_mem _ hy))
  exact hfold _ h

private theorem asString_map (names : List GoString) :
    (names.map Value.string).map Value.asString = names := by
  rw [List.map_map]
  exact List.map_id names

private theorem stringsOrNil_slice (h : m.get field = some (.slice (names.map .string))) :
    stringsOrNil m field = names := by
  have hall : (names.map Value.string).all Value.isString = true := by
    rw [List.all_map]
    exact List.all_eq_true.mpr (fun _ _ => rfl)
  simp only [stringsOrNil, nestedStringSlice, h, nestedFieldNoCopy, Except.mapError, hall, if_true,
    asString_map]

private theorem stringsOrNil_none (h : m.get field = none) : stringsOrNil m field = [] := by
  simp only [stringsOrNil, nestedStringSlice, Unstructured.nestedFieldNoCopy_cons, h]

private theorem nestedMapOrNil_none (h : m.get field = none) :
    Unstructured.nestedMapOrNil m field = [] := by
  simp only [Unstructured.nestedMapOrNil, nestedMap, Unstructured.nestedFieldNoCopy_cons, h]

private theorem nestedMapOrNil_congr {m' : Fields Value} (h : m.get field = m'.get field) :
    Unstructured.nestedMapOrNil m field = Unstructured.nestedMapOrNil m' field := by
  rw [Unstructured.nestedMapOrNil, Unstructured.nestedMapOrNil, nestedMap, nestedMap,
    Unstructured.nestedFieldNoCopy_congr h]

private theorem get_earlyOf : (earlyOf early).get k =
    if k = lit "remove" then some
      (.slice ((addIdentityHeaders (stringsOrNil early "remove")).map .string))
    else early.get k := Fields.get_set

private theorem get_headersOf : (headersOf headers).get k =
    if k = lit "earlyRequestHeaders" then
      some (.map (earlyOf (Unstructured.nestedMapOrNil headers "earlyRequestHeaders")))
    else if k = lit "requestID" then some (.string "Generate") else headers.get k := by
  have hearly : Unstructured.nestedMapOrNil
    (headers.set "requestID" (.string "Generate")) "earlyRequestHeaders" =
      Unstructured.nestedMapOrNil headers "earlyRequestHeaders" :=
        nestedMapOrNil_congr (Fields.get_set_ne (by decide))
  rw [headersOf, hearly, Fields.get_set, Fields.get_set]

private theorem get_targeting : (targeting gatewayName listenerName spec).get k =
    if k = lit "targetRefs" then some (listenerTarget gatewayName listenerName)
    else if k = lit "targetRef" ∨ k = lit "targetSelectors" then none else spec.get k := by
  rw [targeting, Fields.get_set]
  by_cases hrefs : k = lit "targetRefs"
  · rw [if_pos hrefs, if_pos hrefs]
  · rw [if_neg hrefs, if_neg hrefs, Fields.get_delete, Fields.get_delete, Fields.get_delete]
    by_cases hselectors : k = lit "targetSelectors"
    · rw [if_pos hselectors, if_pos (.inr hselectors)]
    · rw [if_neg hselectors, if_neg hrefs]
      by_cases href : k = lit "targetRef"
      · rw [if_pos href, if_pos (.inl href)]
      · rw [if_neg href, if_neg (not_or.mpr ⟨href, hselectors⟩)]

private theorem get_listenerPolicySpec :
    (listenerPolicySpec gatewayName listenerName (some spec)).get k =
    if k = lit "headers" then some (.map (headersOf (Unstructured.nestedMapOrNil spec "headers")))
    else if k = lit "targetRefs" then some (listenerTarget gatewayName listenerName)
    else if k = lit "targetRef" ∨ k = lit "targetSelectors" then none else spec.get k := by
  have hheaders : Unstructured.nestedMapOrNil (targeting gatewayName listenerName spec) "headers" =
      Unstructured.nestedMapOrNil spec "headers" := by
    apply nestedMapOrNil_congr
    rw [get_targeting, if_neg (by decide), if_neg (by decide)]
  rw [listenerPolicySpec, Option.getD_some, hheaders, Fields.get_set, get_targeting]

/-- What the inherited spec removes is what the code reads of it. -/
theorem removed_eq (h : WellTyped spec) : removed spec = stringsOrNil
    (Unstructured.nestedMapOrNil (Unstructured.nestedMapOrNil spec "headers") "earlyRequestHeaders")
    "remove" := by
  rw [removed, nestedStringSlice, Unstructured.nestedFieldNoCopy_cons]
  cases hheaders : spec.get "headers" with
  | none =>
    rw [nestedMapOrNil_none hheaders]
    rfl
  | some v =>
    obtain ⟨headers, rfl⟩ := h.headers v hheaders
    rw [Unstructured.nestedMapOrNil_map hheaders]
    simp only [Unstructured.nestedFieldNoCopy_cons]
    cases hearly : Fields.get headers "earlyRequestHeaders" with
    | none =>
      rw [nestedMapOrNil_none hearly]
      rfl
    | some v =>
      obtain ⟨early, rfl⟩ := h.early headers v hheaders hearly
      rw [Unstructured.nestedMapOrNil_map hearly]
      simp only [Unstructured.nestedFieldNoCopy_cons]
      cases hremove : Fields.get early "remove" with
      | none =>
        rw [stringsOrNil_none hremove]
        rfl
      | some v =>
        obtain ⟨names, rfl⟩ := h.remove headers early v hheaders hearly hremove
        rw [stringsOrNil_slice hremove]
        have hall : (names.map Value.string).all Value.isString = true := by
          rw [List.all_map]
          exact List.all_eq_true.mpr (fun _ _ => rfl)
        simp only [nestedFieldNoCopy, Except.mapError, hall, if_true, asString_map]

end Maps

section Rest

variable {early headers spec : Fields Value} {path : List GoString}
  {gatewayName listenerName : GoString}

private theorem Apart.cons {field : GoString} {own : List GoString}
    (h : Apart (field :: path) (field :: own)) :
    Apart path own :=
  ⟨fun hpre => h.1 (List.prefix_cons_inj field |>.mpr hpre),
    fun hpre => h.2 (List.prefix_cons_inj field |>.mpr hpre)⟩

private theorem Apart.field {field : GoString} {own : List GoString}
    (h : Apart path (field :: own)) :
    ∃ first rest, path = first :: rest := by
  cases path with
  | nil => exact absurd List.nil_prefix h.1
  | cons first rest => exact ⟨first, rest, rfl⟩

private theorem Apart.ne {field first : GoString} {rest : List GoString}
    (h : Apart (first :: rest) [field]) :
    first ≠ field := by
  intro hfield
  subst hfield
  exact h.2 ⟨rest, rfl⟩

private theorem earlyOf_rest (h : Apart path ["remove"]) :
    nestedFieldNoCopy (.map (earlyOf early)) path = nestedFieldNoCopy (.map early) path := by
  obtain ⟨first, rest, rfl⟩ := h.field
  apply Unstructured.nestedFieldNoCopy_congr
  rw [get_earlyOf, if_neg h.ne]

/-- A map under a field that is a map or missing, with `f` applied to it: a path that
`f` leaves alone reads the same. -/
theorem nested_under {m m' : Fields Value} {field : GoString} {f : Fields Value → Fields Value}
    (htyped : ∀ v, m.get field = some v → ∃ inner, v = .map inner)
    (hget : m'.get field = some (.map (f (Unstructured.nestedMapOrNil m field))))
    (hpath : path ≠ []) (hrest : ∀ inner, nestedFieldNoCopy (.map (f inner)) path =
      nestedFieldNoCopy (.map inner) path) :
    nestedFieldNoCopy (.map m') (field :: path) = nestedFieldNoCopy (.map m) (field :: path) := by
  rw [Unstructured.nestedFieldNoCopy_cons, Unstructured.nestedFieldNoCopy_cons, hget]
  simp only [hrest]
  cases hm : m.get field with
  | none =>
    obtain ⟨first, rest, rfl⟩ := List.exists_cons_of_ne_nil hpath
    rw [nestedMapOrNil_none hm]
    rfl
  | some v =>
    obtain ⟨inner, rfl⟩ := htyped v hm
    rw [Unstructured.nestedMapOrNil_map hm]

private theorem headersOf_rest
    (htyped : ∀ v, headers.get "earlyRequestHeaders" = some v → ∃ early, v = .map early)
    (hid : Apart path ["requestID"]) (hremove : Apart path ["earlyRequestHeaders", "remove"]) :
    nestedFieldNoCopy (.map (headersOf headers)) path = nestedFieldNoCopy (.map headers) path := by
  obtain ⟨first, rest, rfl⟩ := hid.field
  by_cases hearly : first = lit "earlyRequestHeaders"
  · subst hearly
    have hrest := hremove.cons
    obtain ⟨second, rest', rfl⟩ := hrest.field
    apply nested_under htyped (f := earlyOf)
    · rw [get_headersOf, if_pos rfl]
    · exact List.cons_ne_nil _ _
    · exact fun inner => earlyOf_rest hrest
  · apply Unstructured.nestedFieldNoCopy_congr
    rw [get_headersOf, if_neg hearly, if_neg hid.ne]

/-- Every setting but the listener's own is the inherited one. -/
theorem listenerPolicySpec_rest (h : WellTyped spec) (hpath : ∀ own ∈ ownSettings, Apart path own) :
    nestedFieldNoCopy (.map (listenerPolicySpec gatewayName listenerName (some spec))) path =
      nestedFieldNoCopy (.map spec) path := by
  have href : Apart path ["targetRef"] := hpath _ (by simp [ownSettings])
  have hrefs : Apart path ["targetRefs"] := hpath _ (by simp [ownSettings])
  have hselectors : Apart path ["targetSelectors"] := hpath _ (by simp [ownSettings])
  have hid : Apart path ["headers", "requestID"] := hpath _ (by simp [ownSettings])
  have hremove : Apart path ["headers", "earlyRequestHeaders", "remove"] :=
    hpath _ (by simp [ownSettings])
  obtain ⟨first, rest, rfl⟩ := href.field
  by_cases hheaders : first = lit "headers"
  · subst hheaders
    obtain ⟨second, rest', rfl⟩ := hid.cons.field
    rw [Unstructured.nestedFieldNoCopy_cons, Unstructured.nestedFieldNoCopy_cons,
      get_listenerPolicySpec, if_pos rfl]
    cases hget : spec.get "headers" with
    | none =>
      have hrest := @headersOf_rest [] _ (fun v hv => (by cases hv)) hid.cons hremove.cons
      rw [nestedMapOrNil_none hget]
      simp only [hrest]
      rfl
    | some v =>
      obtain ⟨headers, rfl⟩ := h.headers v hget
      have hrest := headersOf_rest (h.early headers · hget) hid.cons hremove.cons
      rw [Unstructured.nestedMapOrNil_map hget]
      simp only [hrest]
  · apply Unstructured.nestedFieldNoCopy_congr
    rw [get_listenerPolicySpec, if_neg hheaders, if_neg hrefs.ne, if_neg]
    intro htarget
    obtain htarget | htarget := htarget
    · exact href.ne htarget
    · exact hselectors.ne htarget

end Rest

section Spec

variable {spec : Fields Value} {gatewayName gatewayNamespace listenerName : GoString} {mem : Memory}
  {inherited : Option Ref}

/-- The headers a listener's policy removes. -/
theorem listenerPolicySpec_removes (gatewayName listenerName : GoString) (spec : Fields Value) :
    nestedStringSlice (listenerPolicySpec gatewayName listenerName (some spec))
      ["headers", "earlyRequestHeaders", "remove"] = .ok (some (addIdentityHeaders (stringsOrNil
        (Unstructured.nestedMapOrNil
          (Unstructured.nestedMapOrNil spec "headers") "earlyRequestHeaders") "remove"))) := by
  have hall : ∀ names : List GoString, (names.map Value.string).all Value.isString = true := by
    intro names
    rw [List.all_map]
    exact List.all_eq_true.mpr (fun _ _ => rfl)
  rw [nestedStringSlice, Unstructured.nestedFieldNoCopy_cons, get_listenerPolicySpec, if_pos rfl]
  simp only [get_headersOf, if_true, get_earlyOf, nestedFieldNoCopy, Except.mapError, hall,
    asString_map]

private theorem removed_listenerPolicySpec (gatewayName listenerName : GoString)
    (spec : Fields Value) :
    removed (listenerPolicySpec gatewayName listenerName (some spec)) =
      addIdentityHeaders (stringsOrNil
      (Unstructured.nestedMapOrNil
        (Unstructured.nestedMapOrNil spec "headers") "earlyRequestHeaders") "remove") := by
  rw [removed, listenerPolicySpec_removes]

private theorem listenerPolicySpec_protects (h : WellTyped spec) :
    Protects gatewayName listenerName spec
      (listenerPolicySpec gatewayName listenerName (some spec)) where
  target := by rw [get_listenerPolicySpec, if_neg (by decide), if_pos rfl]
  only := by
    rw [get_listenerPolicySpec, get_listenerPolicySpec, if_neg (by decide), if_neg (by decide),
      if_pos (.inl rfl), if_neg (by decide), if_neg (by decide), if_pos (.inr rfl)]
    exact ⟨rfl, rfl⟩
  removes := by
    refine ⟨?_, fun x => ?_⟩
    · rw [removed_listenerPolicySpec, listenerPolicySpec_removes]
    · rw [removed_listenerPolicySpec, mem_addIdentityHeaders, removed_eq h, or_comm]
  requestID := by
    rw [nestedString, Unstructured.nestedFieldNoCopy_cons, get_listenerPolicySpec, if_pos rfl]
    simp only [Unstructured.nestedFieldNoCopy_cons]
    rw [get_headersOf, if_neg (by decide), if_pos rfl]
    rfl
  rest := fun path hpath => listenerPolicySpec_rest h hpath

private theorem wellFormed_earlyOf {early : Fields Value}
    (h : (Value.map early).wellFormed = true) :
    (Value.map (earlyOf early)).wellFormed = true := by
  apply Value.wellFormed_set h
  apply Value.wellFormed_slice.mpr
  intro v hv
  obtain ⟨s, -, rfl⟩ := List.mem_map.mp hv
  rfl

private theorem wellFormed_headersOf {headers : Fields Value}
    (h : (Value.map headers).wellFormed = true) :
    (Value.map (headersOf headers)).wellFormed = true := by
  have hid : (Value.map (headers.set "requestID" (.string "Generate"))).wellFormed = true :=
    Value.wellFormed_set h rfl
  exact Value.wellFormed_set hid (wellFormed_earlyOf (Unstructured.wellFormed_nestedMapOrNil hid _))

/-- A listener's policy is well formed where the policy it copies is. -/
theorem wellFormed_listenerPolicySpec (h : (Value.map spec).wellFormed = true) :
    (Value.map (listenerPolicySpec gatewayName listenerName (some spec))).wellFormed = true := by
  have htargeting : (Value.map (targeting gatewayName listenerName spec)).wellFormed = true := by
    apply Value.wellFormed_set
    · exact Value.wellFormed_delete (Value.wellFormed_delete (Value.wellFormed_delete h))
    · rfl
  exact Value.wellFormed_set htargeting
    (wellFormed_headersOf (Unstructured.wellFormed_nestedMapOrNil htargeting _))

private theorem earlyOf_fixed {early : Fields Value} (h : (Value.map early).wellFormed = true) :
    earlyOf (earlyOf early) = earlyOf early := by
  have hremove : (earlyOf early).get "remove" =
      some (.slice ((addIdentityHeaders (stringsOrNil early "remove")).map .string)) := by
        rw [get_earlyOf, if_pos rfl]
  rw [earlyOf, stringsOrNil_slice hremove,
    addIdentityHeaders_eq (fun x hx => mem_addIdentityHeaders.mpr (.inr hx))]
  exact (Value.wellFormed_map.mp (wellFormed_earlyOf h)).1.set_get hremove

private theorem headersOf_fixed {headers : Fields Value}
    (h : (Value.map headers).wellFormed = true) :
    headersOf (headersOf headers) = headersOf headers := by
  have hsorted := (Value.wellFormed_map.mp (wellFormed_headersOf h)).1
  have hearly : (headersOf headers).get "earlyRequestHeaders" =
      some (.map (earlyOf (Unstructured.nestedMapOrNil headers "earlyRequestHeaders"))) := by
    rw [get_headersOf, if_pos rfl]
  have hid : (headersOf headers).set "requestID" (.string "Generate") = headersOf headers := by
    apply hsorted.set_get
    rw [get_headersOf, if_neg (by decide), if_pos rfl]
  rw [headersOf, hid, Unstructured.nestedMapOrNil_map hearly,
    earlyOf_fixed (Unstructured.wellFormed_nestedMapOrNil h _)]
  exact hsorted.set_get hearly

/-- A listener's policy built on its own spec is the same policy. -/
theorem listenerPolicySpec_fixed (h : (Value.map spec).wellFormed = true) :
    listenerPolicySpec gatewayName listenerName
      (some (listenerPolicySpec gatewayName listenerName (some spec))) =
      listenerPolicySpec gatewayName listenerName (some spec) := by
  have hwell := @wellFormed_listenerPolicySpec _ gatewayName listenerName h
  apply Fields.Sorted.ext (Value.wellFormed_map.mp (wellFormed_listenerPolicySpec hwell)).1
    (Value.wellFormed_map.mp hwell).1
  intro k
  have hheaders : (listenerPolicySpec gatewayName listenerName (some spec)).get "headers" =
      some (.map (headersOf (Unstructured.nestedMapOrNil spec "headers"))) := by
        rw [get_listenerPolicySpec, if_pos rfl]
  rw [get_listenerPolicySpec, Unstructured.nestedMapOrNil_map hheaders,
    headersOf_fixed (Unstructured.wellFormed_nestedMapOrNil h _), get_listenerPolicySpec]
  split_ifs
  · rfl
  · rfl
  · rfl
  · rfl

private theorem spec_listenerPolicyObject (gatewayNamespace listenerName : GoString)
    (spec : Fields Value) :
    Unstructured.nestedMapOrNil (listenerPolicyObject gatewayNamespace listenerName spec) "spec" =
      spec := rfl

/-- The listener's policy stands for the inherited one at the listener, with identity
headers removed and request IDs of Envoy's; the inherited spec is not touched, and a
policy built on the policy's own spec is the policy. -/
theorem policy_protects (h : WellTyped (shown mem inherited)) :
    ∃ policy mem', buildListenerHeaderPolicy gatewayName gatewayNamespace listenerName inherited
      mem = (policy, mem') ∧
      mem <+: mem' ∧
      policy.get "metadata" =
        some (.map (Fields.of [("name", .string (listenerHeaderPolicyName listenerName)),
        ("namespace", .string gatewayNamespace), ("labels", .map sharedTLSLabels)])) ∧
      Protects gatewayName listenerName (shown mem inherited)
        (Unstructured.nestedMapOrNil policy "spec") ∧
      ∀ mem' r, mem'.getD r [] = Unstructured.nestedMapOrNil policy "spec" →
        (buildListenerHeaderPolicy gatewayName gatewayNamespace listenerName (some r) mem').1 =
        policy := by
  obtain ⟨own, hbuild⟩ :=
    buildListenerHeaderPolicy_eq gatewayName gatewayNamespace listenerName mem inherited
  have hinherited : listenerPolicySpec gatewayName listenerName
    (inherited.map (fun r => mem.getD r [])) =
      listenerPolicySpec gatewayName listenerName (some (shown mem inherited)) := by
    cases inherited with
    | none => rfl
    | some r => rfl
  rw [hinherited] at hbuild
  refine ⟨_, _, hbuild, List.prefix_append _ _, rfl, ?_, ?_⟩
  · rw [spec_listenerPolicyObject]
    exact listenerPolicySpec_protects h
  · intro mem' r hr
    rw [spec_listenerPolicyObject] at hr
    obtain ⟨own', hagain⟩ :=
      buildListenerHeaderPolicy_eq gatewayName gatewayNamespace listenerName mem' (some r)
    rw [hagain, Option.map_some, hr, listenerPolicySpec_fixed h.wellFormed]

end Spec

section Concrete

/-- A platform's policy for a whole Gateway. -/
def platformSpec : Fields Value :=
  [("connection", .map [("bufferLimit", .string "50Mi")]),
    ("headers", .map [("earlyRequestHeaders", .map [("remove", .slice [.string "x-debug"])]),
      ("requestID", .string "PreserveOrGenerate")]),
    ("targetRefs", .slice
      [.map [("group", .string "gateway.networking.k8s.io"), ("kind", .string "Gateway"),
      ("name", .string "nebari-gateway")]])]

private theorem platform_wellTyped : WellTyped platformSpec := by
  refine ⟨by decide, fun v hv => ?_, fun headers v hheaders hv => ?_, fun headers early v hheaders hearly hv => ?_⟩
  · obtain rfl := Option.some.inj hv
    exact ⟨_, rfl⟩
  · obtain rfl := Value.map.inj (Option.some.inj hheaders)
    obtain rfl := Option.some.inj hv
    exact ⟨_, rfl⟩
  · obtain rfl := Value.map.inj (Option.some.inj hheaders)
    obtain rfl := Value.map.inj (Option.some.inj hearly)
    obtain rfl := Option.some.inj hv
    exact ⟨["x-debug"], rfl⟩

/-- The platform's buffer limit holds on the listener as well. -/
theorem platform_policy_protects : ∃ policy mem',
    buildListenerHeaderPolicy "nebari-gateway" "envoy-gateway-system" "llm-https" (some 0)
      [platformSpec] =
      (policy, mem') ∧ [platformSpec] <+: mem' ∧
    nestedFieldNoCopy (.map (Unstructured.nestedMapOrNil policy "spec")) ["connection",
      "bufferLimit"] =
      .ok (some (.string "50Mi")) := by
  obtain ⟨policy, mem', hbuild, hmem, -, hprotects, -⟩ :=
    @policy_protects "nebari-gateway" "envoy-gateway-system"
    "llm-https" [platformSpec] (some 0) platform_wellTyped
  refine ⟨policy, mem', hbuild, hmem, hprotects.rest _ ?_⟩
  intro own hown
  have hall : ownSettings.all (fun own => !decide ([lit "connection", lit "bufferLimit"] <+: own) &&
      !decide (own <+: [lit "connection", lit "bufferLimit"])) = true := by decide
  have hboth := List.all_eq_true.mp hall own hown
  rw [Bool.and_eq_true, Bool.not_eq_true', Bool.not_eq_true', decide_eq_false_iff_not,
    decide_eq_false_iff_not] at hboth
  exact hboth

end Concrete

end listenerheaders
