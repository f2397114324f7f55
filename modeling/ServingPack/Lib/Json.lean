import ServingPack.Lib.GoMap

namespace golang

/-- A JSON value. The members of an object stand in the order of its text, and a
name can occur more than once. -/
inductive Json where
  | null
  | bool (b : Bool)
  | number (text : GoString)
  | string (s : GoString)
  | array (elems : List Json)
  | object (members : List (GoString × Json))

section Text

/-- Whether a byte continues a character in UTF-8. -/
def isContinuation (c : UInt8) : Bool := 0x80 ≤ c && c ≤ 0xBF

/-- The size in bytes of the character a text begins with, if it begins with one. -/
def runeSize : GoString → Option Nat
  | [] => none
  | a :: rest =>
    if a ≤ 0x7F then some 1
    else if 0xC2 ≤ a && a ≤ 0xDF
      then if (rest.take 1).length = 1 && (rest.take 1).all isContinuation then some 2 else none
    else if 0xE0 ≤ a && a ≤ 0xEF then
      if (rest.take 2).length = 2 && (rest.take 2).all isContinuation &&
        (a != 0xE0 || 0xA0 ≤ rest.headD 0) &&
        (a != 0xED || rest.headD 0 ≤ 0x9F) then some 3 else none
    else if 0xF0 ≤ a && a ≤ 0xF4 then
      if (rest.take 3).length = 3 && (rest.take 3).all isContinuation &&
        (a != 0xF0 || 0x90 ≤ rest.headD 0) &&
        (a != 0xF4 || rest.headD 0 ≤ 0x8F) then some 4 else none
    else none

/-- A text with the replacement character for every byte that is not UTF-8. `kept`
counts the bytes of the current character still to come. -/
def coerce (kept : Nat) : GoString → GoString
  | [] => []
  | c :: rest =>
    match kept with
    | n + 1 => c :: coerce n rest
    | 0 =>
      match runeSize (c :: rest) with
      | some n => c :: coerce (n - 1) rest
      | none => 0xEF :: 0xBF :: 0xBD :: coerce 0 rest

/-- What a text reads as once `encoding/json` has written it. -/
def jsonText (s : GoString) : GoString := coerce 0 s

/-- A member's name with the case of its letters folded, for the comparison with a
name in ASCII. Two characters outside ASCII fold to a letter in it. -/
def foldName : GoString → GoString
  | [] => []
  | 0xC5 :: 0xBF :: rest => 83 :: foldName rest
  | 0xE2 :: 0x84 :: 0xAA :: rest => 75 :: foldName rest
  | c :: rest => (if 97 ≤ c && c ≤ 122 then c - 32 else c) :: foldName rest

end Text

section Decoding

/-- `json.Unmarshal` into a slice of strings: a `null` for an element leaves the
empty string. -/
def unmarshalStrings : Json → Option (List GoString)
  | .null => some []
  | .array elems => elems.mapM (fun elem => match elem with
    | .string s => some s
    | .null => some []
    | _ => none)
  | _ => none

/-- Whether a member sets the field of a struct: the case of its letters does not matter. -/
def setsField (field name : GoString) : Bool := foldName name = foldName field

/-- The value of a struct's field after the members of an object: each one for the
field sets it again. -/
def unmarshalField {V : Type} (field : GoString) (decode : Json → Option V) :
    V → List (GoString × Json) → Option V
  | v, [] => some v
  | v, (name, value) :: rest =>
    if setsField field name then (decode value).bind (fun v' => unmarshalField field decode v' rest)
    else unmarshalField field decode v rest

/-- `json.Unmarshal` into a map. What is `null` leaves a nil map. -/
def unmarshalMap : Json → Option (Option (GoMap Json))
  | .null => some none
  | .object members => some (some (GoMap.ofList members))
  | _ => none

/-- `json.Marshal` of a slice of strings. -/
def marshalStrings (l : List GoString) : Json := .array (l.map (fun s => .string (jsonText s)))

/-- The members `json.Marshal` writes for a map, sorted by name. -/
def GoMap.members (m : GoMap Json) : List (GoString × Json) :=
  m.sortedKeys.filterMap (fun name => (m.lookup name).map (fun value => (name, value)))

/-- `json.Marshal` of a map. -/
def marshalMap (m : GoMap Json) : Json := .object m.members

end Decoding

section Lemmas

variable {V : Type} {field : GoString} {decode : Json → Option V} {v v' : V}
  {members : List (GoString × Json)}

@[simp] theorem unmarshalStrings_marshalStrings (l : List GoString) :
    unmarshalStrings (marshalStrings l) = some (l.map jsonText) := by
  simp only [unmarshalStrings, marshalStrings]
  induction l with
  | nil => rfl
  | cons s rest ih => simp only [List.map_cons, List.mapM_cons, ih]; rfl

/-- The member that sets a field last decides its value. -/
theorem unmarshalField_eq (h : unmarshalField field decode v members = some v') :
    some v' = ((members.filter (fun m => setsField field m.1)).getLast?).elim (some v)
      (fun m => decode m.2) := by
  induction members generalizing v with
  | nil => exact h.symm
  | cons m rest ih =>
    obtain ⟨name, value⟩ := m
    rw [unmarshalField] at h
    split_ifs at h with hsets
    · obtain ⟨w, hw, hrest⟩ := Option.bind_eq_some_iff.mp h
      rw [List.filter_cons, if_pos hsets, ih hrest, List.getLast?_cons]
      cases (rest.filter (fun m => setsField field m.1)).getLast? with
      | none => exact hw.symm
      | some last => rfl
    · rw [List.filter_cons, if_neg hsets]
      exact ih h

/-- A field is read where every member that sets it can be. -/
theorem unmarshalField_isSome :
    (unmarshalField field decode v members).isSome = true ↔
      ∀ m ∈ members, setsField field m.1 = true → (decode m.2).isSome = true := by
  induction members generalizing v with
  | nil => simp [unmarshalField]
  | cons m rest ih =>
    obtain ⟨name, value⟩ := m
    rw [unmarshalField, List.forall_mem_cons]
    split_ifs with hsets
    · cases hvalue : decode value with
      | none => simp [hsets]
      | some w => simp [ih]
    · simp [hsets, ih]

end Lemmas

namespace GoMap

variable {V : Type}

theorem nodup_sortedKeys (m : GoMap V) : m.sortedKeys.Nodup := by
  have hkeys := m.keys.nodup
  show (Quot.liftOn m.keys.val sortStrings _).Nodup
  induction hval : m.keys.val using Quot.inductionOn with
  | h l =>
    rw [hval] at hkeys
    exact (List.perm_insertionSort le l).nodup_iff.mpr (Multiset.coe_nodup.mp hkeys)

theorem mem_members {m : GoMap Json} {name : GoString} {value : Json} :
    (name, value) ∈ m.members ↔ m.lookup name = some value := by
  simp only [members, List.mem_filterMap, Option.map_eq_some_iff, Prod.mk.injEq]
  constructor
  · rintro ⟨_, _, _, hlookup, rfl, rfl⟩
    exact hlookup
  · intro h
    exact ⟨name, mem_sortedKeys.mpr (Finmap.mem_of_lookup_eq_some h), value, h, rfl, rfl⟩

/-- The members have the map's keys, in order. -/
theorem members_names (m : GoMap Json) : m.members.map Prod.fst = m.sortedKeys := by
  rw [members, List.map_filterMap]
  conv_rhs => rw [← List.filterMap_some (l := m.sortedKeys)]
  refine List.filterMap_congr fun name hname => ?_
  obtain ⟨value, hvalue⟩ := Finmap.mem_iff.mp (mem_sortedKeys.mp hname)
  rw [hvalue]
  rfl

/-- A map is read back as it was written. -/
theorem ofList_members (m : GoMap Json) : ofList m.members = m := by
  refine Finmap.ext_lookup fun name => ?_
  have hnodup : (m.members.map Prod.fst).Nodup := by
    rw [members_names]
    exact nodup_sortedKeys m
  ext value
  rw [lookup_ofList hnodup, mem_members]

end GoMap

end golang
