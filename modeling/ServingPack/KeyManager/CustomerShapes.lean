import ServingPack.KeyManager.Customers

open golang

namespace golang

private theorem GoMap.sortedKeys_congr {V V' : Type} {m : GoMap V} {m' : GoMap V'}
    (h : ∀ k, k ∈ m ↔ k ∈ m') :
    m.sortedKeys = m'.sortedKeys := by
  have hkeys : m.keys = m'.keys := Finset.ext fun k => by rw [Finmap.mem_keys, Finmap.mem_keys, h]
  rw [sortedKeys, sortedKeys, hkeys]

/-- Texts all pass through JSON unchanged when each one does. -/
theorem map_jsonText_eq_self {l : List GoString} :
    l.map jsonText = l ↔ ∀ s ∈ l, jsonText s = s := by
  conv_lhs => rhs; rw [← List.map_id l]
  exact List.map_inj_left

end golang

namespace customers

/-- The members with `subjectKeys` set to a value. -/
def withMember (ua : GoMap Json) (value : Json) : GoMap Json := ua.insert (lit "subjectKeys") value

private theorem lookup_withMember (ua : GoMap Json) (value : Json) (name : GoString) :
    (withMember ua value).lookup name = if name = "subjectKeys" then some value
    else ua.lookup name :=
  GoMap.lookup_insert_eq ua _ _ _

/-- The spelling of `subjectKeys` that comes last among the members of a
`usageAttribution` in the order `json.Marshal` writes them in. -/
def lastSpelling (ua : GoMap Json) : GoString :=
  ((withMember ua .null).sortedKeys.filter (setsField "subjectKeys")).getLast?.getD "subjectKeys"

/-- Setting the subject keys under the last spelling of the name keeps that spelling the last.
-/
@[simp] theorem lastSpelling_withMember (ua : GoMap Json) (value : Json) :
    lastSpelling (withMember ua value) = lastSpelling ua := by
  have hsame : (withMember (withMember ua value) .null).sortedKeys =
      (withMember ua .null).sortedKeys :=
    GoMap.sortedKeys_congr fun k => by simp [withMember]
  rw [lastSpelling, lastSpelling, hsame]

/-- Whether written subject keys are what is read back: no other spelling of their name
comes last and they are texts in UTF-8, or the last one lists the same keys. -/
def ReadsBack (ua : GoMap Json) (keys : List GoString) : Prop :=
  if lastSpelling ua = "subjectKeys" then ∀ k ∈ keys, jsonText k = k
  else (ua.lookup (lastSpelling ua)).bind unmarshalStrings = some keys

namespace StoredCustomer

/-- The members of `usageAttribution` where it is an object, none where it is missing. -/
def attribution (c : StoredCustomer) : Option (GoMap Json) :=
  match c.lookup (lit "usageAttribution") with
  | none => some ∅
  | some (.object members) => some (GoMap.ofList members)
  | some _ => none

/-- The customer `c'` has these subject keys and is otherwise what `c` is. -/
structure Rekeyed (c c' : StoredCustomer) (keys : List GoString) : Prop where
  subjectKeys : c'.subjectKeys = .ok keys
  fields : ∀ field, field ≠ lit "usageAttribution" → c'.lookup field = c.lookup field
  members : ∃ ua ua', c.attribution = some ua ∧ c'.attribution = some ua' ∧
    ∀ name, name ≠ lit "subjectKeys" → ua'.lookup name = ua.lookup name

/-- The customer with other subject keys written over its `usageAttribution`. -/
def withAttribution (c : StoredCustomer) (ua : GoMap Json) (keys : List GoString) :
    StoredCustomer :=
  c.insert (lit "usageAttribution") (marshalMap (withMember ua (marshalStrings keys)))

section SetSubjectKeys

variable {c : StoredCustomer} {ua : GoMap Json} {keys held : List GoString}

/-- Where the attribution is an object, the keys are set in it and nothing else moves. -/
theorem setSubjectKeys_eq (h : c.attribution = some ua) (keys : List GoString) :
    c.setSubjectKeys keys = .ok (c.withAttribution ua keys) := by
  rw [attribution] at h
  rw [setSubjectKeys, withAttribution]
  split at h
  · next hlookup => simp [hlookup, withMember, ← Option.some.inj h]
  · next members hlookup => simp [hlookup, unmarshalMap, withMember, ← Option.some.inj h]
  · cases h

/-- The attribution that was written is read back with the new keys. -/
@[simp] theorem attribution_withAttribution (c : StoredCustomer) (ua : GoMap Json)
    (keys : List GoString) :
    (c.withAttribution ua keys).attribution = some (withMember ua (marshalStrings keys)) := by
  rw [attribution, withAttribution, Finmap.lookup_insert, marshalMap]
  simp only [GoMap.ofList_members]

/-- Where the subject keys can be read, so can every spelling of them. -/
theorem readable_of_attribution (hheld : c.subjectKeys = .ok held) (h : c.attribution = some ua)
    {name : GoString} {value : Json} (hname : setsField "subjectKeys" name = true)
    (hvalue : ua.lookup name = some value) :
    (unmarshalStrings value).isSome = true := by
  rw [attribution] at h
  split at h
  · rw [← Option.some.inj h] at hvalue
    simp at hvalue
  · next members hlookup =>
    rw [← Option.some.inj h] at hvalue
    have hmem := GoMap.mem_of_lookup_ofList hvalue
    have hsome : (unmarshalAttribution (.object members)).isSome = true := by
      simp only [subjectKeys, hlookup] at hheld
      split at hheld
      · next hread => rw [hread]; rfl
      · cases hheld
    exact unmarshalField_isSome.mp hsome _ hmem hname
  · cases h

/-- `subjectKeys` is one of its own spellings, so there is a last one. -/
theorem exists_lastSpelling (ua : GoMap Json) (value : Json) : ∃ last,
    ((withMember ua value).sortedKeys.filter (setsField "subjectKeys")).getLast? = some last ∧
      lastSpelling ua = last := by
  have hsame : (withMember ua value).sortedKeys = (withMember ua .null).sortedKeys :=
    GoMap.sortedKeys_congr fun k => by
      rw [withMember, withMember, Finmap.mem_insert, Finmap.mem_insert]
  have hmem : lit "subjectKeys" ∈
      (withMember ua .null).sortedKeys.filter (setsField "subjectKeys") := by
    refine List.mem_filter.mpr ⟨?_, by decide⟩
    rw [GoMap.mem_sortedKeys, withMember, Finmap.mem_insert]
    exact .inl rfl
  rw [lastSpelling, hsame]
  cases hlast : (List.filter _ _).getLast? with
  | none =>
    rw [List.getLast?_eq_none_iff.mp hlast] at hmem
    cases hmem
  | some last => exact ⟨last, rfl, rfl⟩

/-- The subject keys that are read after they were written. -/
theorem subjectKeys_withAttribution (hheld : c.subjectKeys = .ok held) (h : c.attribution = some ua)
    (keys : List GoString) : (c.withAttribution ua keys).subjectKeys = .ok keys ↔
    ReadsBack ua keys := by
  have hreadable : ∀ m ∈ (withMember ua (marshalStrings keys)).members,
      setsField "subjectKeys" m.1 = true → (unmarshalStrings m.2).isSome = true := by
    intro m hm hname
    have hlookup := GoMap.mem_members.mp hm
    rw [lookup_withMember] at hlookup
    split_ifs at hlookup with hsame
    · rw [← Option.some.inj hlookup, unmarshalStrings_marshalStrings]
      rfl
    · exact readable_of_attribution hheld h hname hlookup
  obtain ⟨read, hread⟩ :=
    Option.isSome_iff_exists.mp (unmarshalField_isSome (v := []) |>.mpr hreadable)
  have hkeys : (c.withAttribution ua keys).subjectKeys = .ok read := by
    simp only [subjectKeys, withAttribution, Finmap.lookup_insert, marshalMap, unmarshalAttribution,
      hread]
  have hlast := unmarshalField_eq hread
  obtain ⟨last, hspelling, heq⟩ := exists_lastSpelling ua (marshalStrings keys)
  have hfilter : ((withMember ua (marshalStrings keys)).members.filter
      (fun m => setsField "subjectKeys" m.1)).getLast?.map Prod.fst = some last := by
    rw [← hspelling, ← GoMap.members_names, List.filter_map, List.getLast?_map]
    rfl
  obtain ⟨m, hm, rfl⟩ := Option.map_eq_some_iff.mp hfilter
  rw [hm, Option.elim_some] at hlast
  have hmem := GoMap.mem_members.mp (List.mem_of_mem_filter (List.mem_of_getLast? hm))
  rw [hkeys, ReadsBack, heq]
  rw [lookup_withMember] at hmem
  split_ifs at hmem ⊢ with hname
  · rw [← Option.some.inj hmem, unmarshalStrings_marshalStrings] at hlast
    rw [Option.some.inj hlast, Except.ok.injEq, map_jsonText_eq_self]
  · rw [hmem, Option.bind_some, ← hlast, Except.ok.injEq, Option.some.injEq]

/-- Writing the subject keys of a customer whose subject keys can be read neither
panics nor changes anything else, and they are read back, exactly where
`usageAttribution` is not `null` and no other spelling of `subjectKeys` stands behind
the written one with other keys. -/
theorem setSubjectKeys_rekeys_iff (c : StoredCustomer) (keys : List GoString)
    (hreads : ∃ held, c.subjectKeys = .ok held) :
    (c.setSubjectKeys keys ≠ .error .panicked ∧ ∀ c', c.setSubjectKeys keys = .ok c' →
      Rekeyed c c' keys) ↔
      c.lookup (lit "usageAttribution") ≠ some .null ∧ ∀ ua, c.attribution = some ua →
      ReadsBack ua keys := by
  obtain ⟨held, hheld⟩ := hreads
  cases hua : c.attribution with
  | some ua =>
    have hnull : c.lookup (lit "usageAttribution") ≠ some .null := by
      intro hnull
      simp [attribution, hnull] at hua
    rw [setSubjectKeys_eq hua]
    constructor
    · rintro ⟨_, hrekeyed⟩
      refine ⟨hnull, fun ua' hua' => ?_⟩
      rw [← Option.some.inj hua']
      exact (subjectKeys_withAttribution hheld hua keys).mp (hrekeyed _ rfl).subjectKeys
    · rintro ⟨_, hreads⟩
      refine ⟨fun h => (by cases h), fun c' hc' => ?_⟩
      obtain rfl := Except.ok.inj hc'
      refine ⟨(subjectKeys_withAttribution hheld hua keys).mpr (hreads ua rfl),
        fun field hfield => ?_, ?_⟩
      · exact Finmap.lookup_insert_of_ne c hfield
      · refine ⟨ua, _, hua, attribution_withAttribution c ua keys, fun name hname => ?_⟩
        exact Finmap.lookup_insert_of_ne ua hname
  | none =>
    rw [attribution] at hua
    split at hua
    · cases hua
    · cases hua
    · next raw hobject hlookup =>
      -- of the values that are no object only `null` can be read
      cases raw with
      | object members => exact absurd rfl (hobject members)
      | null => simp [setSubjectKeys, hlookup, unmarshalMap]
      | _ => simp [subjectKeys, hlookup, unmarshalAttribution] at hheld

/-- A customer as OpenMeter returns it with subject keys. -/
def aliceCustomer : StoredCustomer :=
  GoMap.ofList [("key", .string "sub-alice"),
    ("usageAttribution", .object [("subjectKeys", .array [.string "sub-alice"])])]

/-- A customer whose attribution is set to nothing. -/
def unattributed : StoredCustomer :=
  GoMap.ofList [("key", .string "sub-alice"), ("usageAttribution", .null)]

/-- A customer with an attribution object takes a second key and keeps its other members. -/
theorem aliceCustomer_rekeyed :
    aliceCustomer.setSubjectKeys [lit "sub-alice", lit "user-alice-a-1"] ≠ .error .panicked ∧
      ∀ c', aliceCustomer.setSubjectKeys [lit "sub-alice", lit "user-alice-a-1"] = .ok c' →
        Rekeyed aliceCustomer c' [lit "sub-alice", lit "user-alice-a-1"] := by
  refine (setSubjectKeys_rekeys_iff aliceCustomer _ ⟨[lit "sub-alice"], by rfl⟩).mpr
    ⟨by simp [aliceCustomer, GoMap.ofList], ?_⟩
  intro ua hua
  obtain rfl := Option.some.inj hua
  rw [ReadsBack, if_pos (by decide +kernel)]
  decide

/-- The subject keys of a customer with a `null` attribution can be read, and setting
them panics. -/
theorem unattributed_panics :
    ¬∀ (c : StoredCustomer) (keys : List GoString), (∃ held, c.subjectKeys = .ok held) →
    c.setSubjectKeys keys ≠ .error .panicked ∧ ∀ c', c.setSubjectKeys keys = .ok c' →
    Rekeyed c c' keys := by
  intro h
  exact (h unattributed [lit "user-alice-a-1"] ⟨[], rfl⟩).1 rfl

end SetSubjectKeys

end StoredCustomer

end customers
