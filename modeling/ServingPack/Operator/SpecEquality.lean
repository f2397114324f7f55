import ServingPack.Operator.Controller.ClusterTLS

open golang apiserver concurrency unstructured unstructured.Value controller
  controller.ClusterTLSSingleton

namespace specequality

/-- The one value is the other, but that a string of the one can stand where the
other has what the string spells. -/
inductive SpelledAlike : Value → Value → Prop where
  | leaf {a b : Value} (hleaf : a.isLeaf = true) (ha : a.isString = false) (hb : b.isString = false)
      (hsame : Same a b) (hprinted : a.printed = b.printed) : SpelledAlike a b
  | string (s : GoString) : SpelledAlike (.string s) (.string s)
  | spells {b : Value} (hb : b.isString = false) : SpelledAlike (.string b.printed) b
  | spelled {a : Value} (hleaf : a.isLeaf = true) (ha : a.isString = false) :
    SpelledAlike a (.string a.printed)
  | slice {as bs : List Value} (hlength : as.length = bs.length)
      (h : ∀ (i : Nat) a b, as[i]? = some a → bs[i]? = some b → SpelledAlike a b) :
      SpelledAlike (.slice as) (.slice bs)
  | map {as bs : Fields Value} (hkeys : ∀ k, (as.get k).isSome = (bs.get k).isSome)
      (h : ∀ (k : GoString) a b, as.get k = some a → bs.get k = some b → SpelledAlike a b) :
      SpelledAlike (.map as) (.map bs)

section Compare

variable {a b : Value} {as bs : List Value} {m m' : Fields Value}

private theorem valueEqual_leaf (h : a.isLeaf = true) (b : Value) :
    valueEqual a b = (a.printed == b.printed) := by
  cases a with
  | slice | map => cases h
  | null | bool | int | float | string => rw [valueEqual]

private theorem elementsEqual_iff (hlength : as.length = bs.length) :
    elementsEqual as bs = true ↔ ∀ (i : Nat) a b, as[i]? = some a → bs[i]? = some b →
    valueEqual a b = true := by
  induction as generalizing bs with
  | nil => simp [elementsEqual]
  | cons a rest ih =>
    cases bs with
    | nil => cases hlength
    | cons b rest' =>
      rw [elementsEqual, Bool.and_eq_true, ih (Nat.succ.inj hlength)]
      constructor
      · intro ⟨hhead, htail⟩ i x y hx hy
        cases i with
        | zero =>
          obtain rfl := Option.some.inj hx
          obtain rfl := Option.some.inj hy
          exact hhead
        | succ i => exact htail i x y hx hy
      · intro h
        exact ⟨h 0 a b rfl rfl, fun i x y hx hy => h (i + 1) x y hx hy⟩

private theorem entriesEqual_iff :
    entriesEqual m m' = true ↔ ∀ e ∈ m, ∃ w, m'.get e.1 = some w ∧ valueEqual e.2 w = true := by
  induction m with
  | nil => simp [entriesEqual]
  | cons e rest ih =>
    obtain ⟨k, v⟩ := e
    rw [entriesEqual, Bool.and_eq_true, ih, List.forall_mem_cons]
    cases m'.get k with
    | none => simp
    | some w => simp

/-- Specs are equal for the code where they have the same keys with values equal for it. -/
theorem nestedSpecsEqual_iff (hm : Fields.Sorted m) (hm' : Fields.Sorted m') :
    nestedSpecsEqual m m' = true ↔ (∀ k, (m.get k).isSome = (m'.get k).isSome) ∧
      ∀ (k : GoString) a b, m.get k = some a → m'.get k = some b → valueEqual a b = true := by
  rw [nestedSpecsEqual, Bool.and_eq_true, beq_iff_eq, entriesEqual_iff]
  constructor
  · intro ⟨hlength, hentries⟩
    have hfound : ∀ k, (m.get k).isSome = true → (m'.get k).isSome = true := by
      intro k hk
      obtain ⟨v, hv⟩ := Option.isSome_iff_exists.mp hk
      obtain ⟨w, hw, _⟩ := hentries _ (Fields.mem_of_get hv)
      exact Option.isSome_iff_exists.mpr ⟨w, hw⟩
    refine ⟨hm.keys_eq hlength hfound, fun k a b ha hb => ?_⟩
    obtain ⟨w, hw, hequal⟩ := hentries _ (Fields.mem_of_get ha)
    obtain rfl := Option.some.inj (hw.symm.trans hb)
    exact hequal
  · intro ⟨hkeys, hvalues⟩
    refine ⟨hm.length_eq hm' hkeys, fun e he => ?_⟩
    have hget := hm.get_of_mem he
    have hsome : (m'.get e.1).isSome = true := by rw [← hkeys, hget, Option.isSome_some]
    obtain ⟨w, hw⟩ := Option.isSome_iff_exists.mp hsome
    exact ⟨w, hw, hvalues _ _ _ hget hw⟩

private theorem valueEqual_slice : valueEqual (.slice as) b = true ↔
    ∃ bs : List Value, b = .slice bs ∧ as.length = bs.length ∧
    ∀ (i : Nat) x y, as[i]? = some x → bs[i]? = some y → valueEqual x y = true := by
  cases b with
  | slice bs =>
    rw [valueEqual, Bool.and_eq_true, beq_iff_eq]
    constructor
    · intro ⟨hlength, helems⟩
      exact ⟨bs, rfl, hlength, (elementsEqual_iff hlength).mp helems⟩
    · intro ⟨bs', hbs, hlength, helems⟩
      obtain rfl := Value.slice.inj hbs
      exact ⟨hlength, (elementsEqual_iff hlength).mpr helems⟩
  | null | bool | int | float | string | map => simp [valueEqual]

private theorem valueEqual_map (hm : Fields.Sorted m) (hb : b.wellFormed = true) :
    valueEqual (.map m) b = true ↔
    ∃ m' : Fields Value, b = .map m' ∧ (∀ k, (m.get k).isSome = (m'.get k).isSome) ∧
      ∀ (k : GoString) x y, m.get k = some x → m'.get k = some y → valueEqual x y = true := by
  cases b with
  | map m' =>
    have hm' := (wellFormed_map.mp hb).1
    rw [valueEqual, ← nestedSpecsEqual, nestedSpecsEqual_iff hm hm']
    constructor
    · intro h
      exact ⟨m', rfl, h⟩
    · intro ⟨m'', hmap, h⟩
      obtain rfl := Value.map.inj hmap
      exact h
  | null | bool | int | float | string | slice => simp [valueEqual]

private theorem spelledAlike_slice : SpelledAlike (.slice as) b ↔
    ∃ bs : List Value, b = .slice bs ∧ as.length = bs.length ∧
    ∀ (i : Nat) x y, as[i]? = some x → bs[i]? = some y → SpelledAlike x y := by
  constructor
  · intro h
    cases h with
    | slice hlength h => exact ⟨_, rfl, hlength, h⟩
    | leaf hleaf | spelled hleaf => cases hleaf
  · intro ⟨bs, hb, hlength, h⟩
    rw [hb]
    exact .slice hlength h

private theorem spelledAlike_map : SpelledAlike (.map m) b ↔
    ∃ m' : Fields Value, b = .map m' ∧ (∀ k, (m.get k).isSome = (m'.get k).isSome) ∧
    ∀ (k : GoString) x y, m.get k = some x → m'.get k = some y → SpelledAlike x y := by
  constructor
  · intro h
    cases h with
    | map hkeys h => exact ⟨_, rfl, hkeys, h⟩
    | leaf hleaf | spelled hleaf => cases hleaf
  · intro ⟨m', hb, hkeys, h⟩
    rw [hb]
    exact .map hkeys h

/-- At a leaf only a string can be taken for what it is not. -/
theorem spelledAlike_leaf (hleaf : a.isLeaf = true) : SpelledAlike a b ↔ a.printed = b.printed := by
  constructor
  · intro h
    cases h with
    | leaf _ _ _ _ hprinted => exact hprinted
    | string | spells | spelled => simp only [printed]
    | slice | map => cases hleaf
  · intro hprinted
    cases hsa : a.isString with
    | true =>
      obtain ⟨s, rfl⟩ := isString_iff.mp hsa
      rw [printed] at hprinted
      cases hsb : b.isString with
      | true =>
        obtain ⟨t, rfl⟩ := isString_iff.mp hsb
        rw [printed] at hprinted
        rw [hprinted]
        exact .string t
      | false =>
        rw [hprinted]
        exact .spells hsb
    | false =>
      cases hsb : b.isString with
      | true =>
        obtain ⟨t, rfl⟩ := isString_iff.mp hsb
        rw [printed] at hprinted
        rw [← hprinted]
        exact .spelled hleaf hsa
      | false => exact .leaf hleaf hsa hsb (same_of_printed hleaf hsa hsb hprinted) hprinted

/-- The code takes two values for equal where they are the same, or a string of the
one spells what the other has. -/
theorem valueEqual_iff (ha : a.wellFormed = true) (hb : b.wellFormed = true) :
    valueEqual a b = true ↔ SpelledAlike a b := by
  induction a using Value.induction generalizing b with
  | leaf a hleaf => rw [valueEqual_leaf hleaf, beq_iff_eq, spelledAlike_leaf hleaf]
  | slice as ih =>
    rw [valueEqual_slice, spelledAlike_slice]
    apply exists_congr
    intro bs
    apply and_congr_right
    intro hslice
    subst hslice
    apply and_congr_right
    intro _
    have hiff : ∀ (i : Nat) x y, as[i]? = some x → bs[i]? = some y →
        (valueEqual x y = true ↔ SpelledAlike x y) := by
      intro i x y hx hy
      have hmem := List.mem_of_getElem? hx
      exact ih x hmem (wellFormed_slice.mp ha x hmem)
        (wellFormed_slice.mp hb y (List.mem_of_getElem? hy))
    constructor
    · intro h i x y hx hy
      exact (hiff i x y hx hy).mp (h i x y hx hy)
    · intro h i x y hx hy
      exact (hiff i x y hx hy).mpr (h i x y hx hy)
  | map m ih =>
    rw [valueEqual_map (wellFormed_map.mp ha).1 hb, spelledAlike_map]
    apply exists_congr
    intro m'
    apply and_congr_right
    intro hmap
    subst hmap
    apply and_congr_right
    intro _
    have hiff : ∀ (k : GoString) x y, Fields.get m k = some x → Fields.get m' k = some y →
        (valueEqual x y = true ↔ SpelledAlike x y) := by
      intro k x y hx hy
      exact ih _ (Fields.mem_of_get hx) (wellFormed_get ha hx) (wellFormed_get hb hy)
    constructor
    · intro h k x y hx hy
      exact (hiff k x y hx hy).mp (h k x y hx hy)
    · intro h k x y hx hy
      exact (hiff k x y hx hy).mpr (h k x y hx hy)

/-- A value is spelled like itself. -/
theorem SpelledAlike.refl (v : Value) : SpelledAlike v v := by
  induction v using Value.induction with
  | leaf v hleaf => exact (spelledAlike_leaf hleaf).mpr rfl
  | slice elems ih =>
    apply SpelledAlike.slice rfl
    intro i x y hx hy
    obtain rfl := Option.some.inj (hx.symm.trans hy)
    exact ih x (List.mem_of_getElem? hx)
  | map fields ih =>
    apply SpelledAlike.map (fun _ => rfl)
    intro k x y hx hy
    obtain rfl := Option.some.inj (hx.symm.trans hy)
    exact ih _ (Fields.mem_of_get hx)

end Compare

/-- What a create or an update that returns without an error is to leave: an object
with the desired spec, the rest of an object that was there, and every other object. -/
structure Written (desired : Unstructured) (s s' : State) : Prop where
  spec : ∃ stored spec, s'.objects (keyOf desired) = some stored ∧
    stored.object.get "spec" = some (.map spec) ∧
    Same (.map desired.spec) (.map spec)
  rest : ∀ current, s.objects (keyOf desired) = some current → ∃ stored,
    s'.objects (keyOf desired) = some stored ∧
      ∀ field, field ≠ lit "spec" → stored.object.get field = current.object.get field
  others : ∀ key, key ≠ keyOf desired → s'.objects key = s.objects key

/-- Whether every call that returns without an error leaves that. -/
def Writes (desired : Unstructured) (s : State) : Prop :=
  ∀ log s', Program.RunsOn Exec s (createOrUpdateUnstructured desired).run log (.ok ()) s' →
    Written desired s s'

section Writes

variable {desired current stored : Unstructured} {s : State} {d c : Fields Value}

private theorem spec_wellFormed (u : Unstructured) : (Value.map u.spec).wellFormed = true :=
  Unstructured.wellFormed_nestedMapOrNil u.wellFormed _

/-- A created object is as it was sent. -/
theorem written_created (hd : desired.object.get "spec" = some (.map d))
    (hs : s.objects (keyOf desired) = none)
    (hstored : Stamped desired stored) : Written desired s (s.put stored) := by
  have hkey := hstored.key
  refine ⟨⟨stored, d, ?_, ?_, ?_⟩, fun current hcurrent => ?_, fun key hne => ?_⟩
  · rw [← hkey]
    exact State.objects_put
  · rw [hstored.fields _ (by decide)]
    exact hd
  · have hspec : desired.spec = d := Unstructured.nestedMapOrNil_map hd
    rw [hspec]
    exact Same.refl _
  · rw [hs] at hcurrent
    cases hcurrent
  · rw [← hkey] at hne
    exact State.objects_put_ne hne

/-- An updated object has the desired spec, and the rest as it was read. -/
theorem written_updated (hs : s.objects (keyOf desired) = some current) :
    Written desired s (s.put (withSpec current desired)) := by
  have hkey : keyOf (withSpec current desired) = keyOf desired :=
    keyOf_withSpec.trans (s.filed _ _ hs)
  have hput : (s.put (withSpec current desired)).objects (keyOf desired) =
      some (withSpec current desired) := by
    rw [← hkey]
    exact State.objects_put
  refine ⟨⟨_, desired.spec, hput, Fields.get_set_self, Same.refl _⟩, fun current' hcurrent => ?_,
    fun key hne => ?_⟩
  · obtain rfl := Option.some.inj (hs.symm.trans hcurrent)
    exact ⟨_, hput, fun field hfield => Fields.get_set_ne hfield⟩
  · rw [← hkey] at hne
    exact State.objects_put_ne hne

private theorem written_kept (hs : s.objects (keyOf desired) = some current)
    (hc : current.object.get "spec" = some (.map c)) :
    Written desired s s ↔ Same (.map desired.spec) (.map current.spec) := by
  have hspec : current.spec = c := Unstructured.nestedMapOrNil_map hc
  constructor
  · intro h
    obtain ⟨stored, spec, hstored, hget, hsame⟩ := h.spec
    obtain rfl := Option.some.inj (hs.symm.trans hstored)
    have hspec' : current.spec = spec := Unstructured.nestedMapOrNil_map hget
    rw [hspec']
    exact hsame
  · intro hsame
    rw [hspec] at hsame
    refine ⟨⟨current, c, hs, hc, hsame⟩, fun current' hcurrent => ?_, fun _ _ => rfl⟩
    exact ⟨current', hcurrent, fun _ _ => rfl⟩

/-- Two objects' specs are equal for the code where the one is spelled like the other, since
specs are well formed. -/
theorem specsEqual_iff (u u' : Unstructured) :
    nestedSpecsEqual u.spec u'.spec = true ↔ SpelledAlike (.map u.spec) (.map u'.spec) := by
  rw [← valueEqual_iff (spec_wellFormed u) (spec_wellFormed u'), valueEqual, nestedSpecsEqual]

/-- What the code takes for the desired spec is left as it is. -/
theorem runs_kept (hs : s.objects (keyOf desired) = some current)
    (h : SpelledAlike (.map desired.spec) (.map current.spec)) :
    Program.RunsOn Exec s (createOrUpdateUnstructured desired).run
      [⟨.get (keyOf desired), .ok current⟩] (.ok ()) s := by
  rw [run_createOrUpdate]
  apply Program.RunsOn.call (.found hs)
  rw [createOrUpdateLookedUp, if_pos ((specsEqual_iff _ _).mpr h)]
  exact Program.RunsOn.pure s (Except.ok ())

/-- `createOrUpdateUnstructured` leaves the desired spec unless the object there has
a spec that differs from it in nothing but strings that spell what the other has, and
the comparison of two specs goes wrong on the same specs. -/
theorem createOrUpdate_writes_iff (hd : desired.object.get "spec" = some (.map d))
    (hc : ∀ current, s.objects (keyOf desired) = some current →
      ∃ c, current.object.get "spec" = some (.map c)) :
    (Writes desired s ↔ ∀ current, s.objects (keyOf desired) = some current →
      Same (.map desired.spec) (.map current.spec) ∨
      ¬SpelledAlike (.map desired.spec) (.map current.spec)) ∧
    ∀ current : Unstructured, (nestedSpecsEqual desired.spec current.spec = true →
        Same (.map desired.spec) (.map current.spec)) ↔
      Same (.map desired.spec) (.map current.spec) ∨
      ¬SpelledAlike (.map desired.spec) (.map current.spec) := by
  refine ⟨⟨fun hwrites current hcurrent => ?_, fun hkept log s' hrun => ?_⟩, fun current => ?_⟩
  · obtain ⟨c, hget⟩ := hc current hcurrent
    by_cases halike : SpelledAlike (.map desired.spec) (.map current.spec)
    · left
      apply (written_kept hcurrent hget).mp
      exact hwrites _ _ (runs_kept hcurrent halike)
    · exact .inr halike
  · obtain ⟨hnone, stored, hstored, rfl⟩ | ⟨current, hcurrent, ⟨hsame, rfl⟩ | ⟨-, rfl⟩⟩ :=
      createOrUpdate_cases hrun
    · exact written_created hd hnone hstored
    · obtain ⟨c, hget⟩ := hc current hcurrent
      apply (written_kept hcurrent hget).mpr
      exact (hkept current hcurrent).resolve_right (not_not.mpr ((specsEqual_iff _ _).mp hsame))
    · exact written_updated hcurrent
  · rw [specsEqual_iff]
    constructor
    · intro h
      by_cases halike : SpelledAlike (.map desired.spec) (.map current.spec)
      · exact .inl (h halike)
      · exact .inr halike
    · intro h halike
      exact h.resolve_right (not_not.mpr halike)

end Writes

section Concrete

/-- A listener's policy with a connection buffer limit, which can be given as a number
or as a string. -/
def policyFields (bufferLimit : Value) : Fields Value :=
  [("apiVersion", .string "gateway.envoyproxy.io/v1alpha1"),
    ("kind", .string "ClientTrafficPolicy"),
    ("metadata", .map [("name", .string "llm-https-client-headers"),
      ("namespace", .string "envoy-gateway-system")]),
    ("spec", .map [("connection", .map [("bufferLimit", bufferLimit)])])]

def numberPolicy : Unstructured := ⟨policyFields (.int 32768), by decide⟩

def textPolicy : Unstructured := ⟨policyFields (.string "32768"), by decide⟩

def otherPolicy : Unstructured := ⟨policyFields (.string "64Ki"), by decide⟩

private theorem number_text_alike : SpelledAlike (.map numberPolicy.spec) (.map textPolicy.spec) :=
  (specsEqual_iff _ _).mp (by decide)

/-- The limit as a number is not written over the limit as a string. -/
theorem text_limit_kept : ¬Writes numberPolicy (State.empty.put textPolicy) := by
  intro hwrites
  have hstored : (State.empty.put textPolicy).objects (keyOf numberPolicy) = some textPolicy :=
    State.objects_put
  have hwritten := hwrites _ _ (runs_kept hstored number_text_alike)
  have hsame := (written_kept hstored
    (c := [("connection", .map [("bufferLimit", .string "32768")])]) rfl).mp hwritten
  cases hsame with
  | number ha => cases ha
  | map _ h =>
    have hconnection := h "connection" _ _ rfl rfl
    cases hconnection with
    | number ha => cases ha
    | map _ h =>
      have hlimit := h "bufferLimit" _ _ rfl rfl
      cases hlimit with
      | number _ hb => cases hb

/-- Another limit is written over. -/
theorem other_limit_written : Writes numberPolicy (State.empty.put otherPolicy) := by
  have hstored : (State.empty.put otherPolicy).objects (keyOf numberPolicy) = some otherPolicy :=
    State.objects_put
  apply (createOrUpdate_writes_iff
    (d := [("connection", .map [("bufferLimit", .int 32768)])]) rfl ?_).1.mpr
  · intro current hcurrent
    obtain rfl := Option.some.inj (hstored.symm.trans hcurrent)
    right
    rw [← specsEqual_iff]
    decide
  · intro current hcurrent
    obtain rfl := Option.some.inj (hstored.symm.trans hcurrent)
    exact ⟨_, rfl⟩

end Concrete

end specequality
