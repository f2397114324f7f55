import ServingPack.Lib.Fields
import ServingPack.Lib.Numbers

namespace unstructured

open golang

/-- What an unstructured object is made of: JSON, with its numbers as `int64` or
`float64` and the entries of its maps in the order of their keys. -/
inductive Value where
  | null
  | bool (b : Bool)
  | int (n : Int)
  | float (f : Float64)
  | string (s : GoString)
  | slice (elems : List Value)
  | map (fields : List (GoString × Value))

namespace Value

/-- Neither a list nor a map. -/
def isLeaf : Value → Bool
  | .slice _ => false
  | .map _ => false
  | _ => true

def isString : Value → Bool
  | .string _ => true
  | _ => false

def isMap : Value → Bool
  | .map _ => true
  | _ => false

theorem isString_iff {v : Value} : v.isString = true ↔ ∃ s, v = .string s := by
  cases v with
  | string s => exact ⟨fun _ => ⟨s, rfl⟩, fun _ => rfl⟩
  | null | bool | int | float | slice | map => simp [isString]

/-- Induction over a value: what holds of the elements and of the fields' values holds
of the list and of the map. -/
@[elab_as_elim]
theorem induction {P : Value → Prop} (leaf : ∀ v, v.isLeaf = true → P v)
    (slice : ∀ elems, (∀ v ∈ elems, P v) → P (.slice elems))
    (map : ∀ fields, (∀ e ∈ fields, P e.2) → P (.map fields)) (v : Value) : P v := by
  apply Value.rec (motive_1 := P) (motive_2 := fun elems => ∀ v ∈ elems, P v)
    (motive_3 := fun fields => ∀ e ∈ fields, P e.2) (motive_4 := fun e => P e.2)
  case null => exact leaf _ rfl
  case bool => exact fun _ => leaf _ rfl
  case int => exact fun _ => leaf _ rfl
  case float => exact fun _ => leaf _ rfl
  case string => exact fun _ => leaf _ rfl
  case slice => exact slice
  case map => exact map
  case nil => exact fun v hv => absurd hv List.not_mem_nil
  case cons => exact fun _ _ hhead htail => List.forall_mem_cons.mpr ⟨hhead, htail⟩
  case nil => exact fun e he => absurd he List.not_mem_nil
  case cons => exact fun _ _ hhead htail => List.forall_mem_cons.mpr ⟨hhead, htail⟩
  case mk => exact fun _ _ hv => hv

/-- The number a value is. -/
def number : Value → Option ℚ
  | .int n => some n
  | .float f => some f.value
  | _ => none

section Print

mutual

/-- `fmt.Sprintf("%v", v)`. -/
def printed : Value → GoString
  | .null => "<nil>"
  | .bool b => if b then "true" else "false"
  | .int n => formatInt n
  | .float f => formatFloat f
  | .string s => s
  | .slice elems => 91 :: (printedElems elems).drop 1 ++ [93]
  | .map fields => lit "map[" ++ (printedFields fields).drop 1 ++ [93]

/-- The elements of a list, each behind a space. -/
def printedElems : List Value → GoString
  | [] => []
  | v :: rest => 32 :: v.printed ++ printedElems rest

/-- The entries of a map, each behind a space. -/
def printedFields : List (GoString × Value) → GoString
  | [] => []
  | (k, v) :: rest => 32 :: k ++ 58 :: v.printed ++ printedFields rest

end

end Print

section WellFormed

mutual

/-- Whether every map within a value has each key once, and the keys in order. -/
def wellFormed : Value → Bool
  | .slice elems => wellFormedElems elems
  | .map fields => decide (Fields.Sorted fields) && wellFormedFields fields
  | _ => true

def wellFormedElems : List Value → Bool
  | [] => true
  | v :: rest => v.wellFormed && wellFormedElems rest

def wellFormedFields : List (GoString × Value) → Bool
  | [] => true
  | (_, v) :: rest => v.wellFormed && wellFormedFields rest

end

variable {elems : List Value} {fields : Fields Value} {k : GoString} {v : Value}

private theorem wellFormedElems_iff :
    wellFormedElems elems = true ↔ ∀ v ∈ elems, v.wellFormed = true := by
  induction elems with
  | nil => simp [wellFormedElems]
  | cons v rest ih => simp [wellFormedElems, ih]

private theorem wellFormedFields_iff :
    wellFormedFields fields = true ↔ ∀ e ∈ fields, e.2.wellFormed = true := by
  induction fields with
  | nil => simp [wellFormedFields]
  | cons e rest ih => simp [wellFormedFields, ih]

theorem wellFormed_slice : (slice elems).wellFormed = true ↔ ∀ v ∈ elems, v.wellFormed = true := by
  rw [wellFormed, wellFormedElems_iff]

theorem wellFormed_map :
    (map fields).wellFormed = true ↔
    Fields.Sorted fields ∧ ∀ e ∈ fields, e.2.wellFormed = true := by
  rw [wellFormed, Bool.and_eq_true, decide_eq_true_eq, wellFormedFields_iff]

theorem wellFormed_get (h : (map fields).wellFormed = true) (hget : fields.get k = some v) :
    v.wellFormed = true :=
  (wellFormed_map.mp h).2 _ (Fields.mem_of_get hget)

theorem wellFormed_set (h : (map fields).wellFormed = true) (hv : v.wellFormed = true) :
    (map (fields.set k v)).wellFormed = true := by
  obtain ⟨hsorted, hfields⟩ := wellFormed_map.mp h
  apply wellFormed_map.mpr
  refine ⟨Fields.sorted_set hsorted, fun e he => ?_⟩
  obtain rfl | he := Fields.mem_set he
  · exact hv
  · exact hfields e he

theorem wellFormed_delete (h : (map fields).wellFormed = true) :
    (map (fields.delete k)).wellFormed = true := by
  obtain ⟨hsorted, hfields⟩ := wellFormed_map.mp h
  apply wellFormed_map.mpr
  exact ⟨Fields.sorted_delete hsorted, fun e he => hfields e (List.mem_of_mem_filter he)⟩

end WellFormed

/-- The same JSON value: numbers are compared by value, maps key by key. -/
inductive Same : Value → Value → Prop where
  | null : Same .null .null
  | bool (b : Bool) : Same (.bool b) (.bool b)
  | number {a b : Value} {q : ℚ} (ha : a.number = some q) (hb : b.number = some q) : Same a b
  | string (s : GoString) : Same (.string s) (.string s)
  | slice {as bs : List Value} (hlength : as.length = bs.length)
      (h : ∀ (i : Nat) a b, as[i]? = some a → bs[i]? = some b → Same a b) :
        Same (.slice as) (.slice bs)
  | map {as bs : Fields Value} (hkeys : ∀ k, (as.get k).isSome = (bs.get k).isSome)
      (h : ∀ (k : GoString) a b, as.get k = some a → bs.get k = some b → Same a b) :
        Same (.map as) (.map bs)

theorem Same.refl (v : Value) : Same v v := by
  induction v using induction with
  | leaf v hleaf =>
    cases v with
    | null => exact .null
    | bool b => exact .bool b
    | int n => exact .number rfl rfl
    | float f => exact .number rfl rfl
    | string s => exact .string s
    | slice | map => cases hleaf
  | slice elems ih =>
    apply Same.slice rfl
    intro i a b ha hb
    obtain rfl := Option.some.inj (ha.symm.trans hb)
    exact ih a (List.mem_of_getElem? ha)
  | map fields ih =>
    apply Same.map (fun _ => rfl)
    intro k a b ha hb
    obtain rfl := Option.some.inj (ha.symm.trans hb)
    exact ih _ (Fields.mem_of_get ha)

section Printed

variable {a b v : Value}

private theorem startsNumber_printed (h : v.isString = false) :
    StartsNumber v.printed ↔ v.number.isSome = true := by
  have hnot : ∀ (c : UInt8) (rest : GoString), ¬(c = 45 ∨ IsDigit c) →
      ¬StartsNumber (c :: rest) := by
    rintro c rest hc ⟨c', hhead, hc'⟩
    obtain rfl := Option.some.inj hhead
    exact hc hc'
  cases v with
  | null => exact ⟨fun h => absurd h (hnot 60 _ (by decide)), fun h => by cases h⟩
  | bool b =>
    cases b with
    | true => exact ⟨fun h => absurd h (hnot 116 _ (by decide)), fun h => by cases h⟩
    | false => exact ⟨fun h => absurd h (hnot 102 _ (by decide)), fun h => by cases h⟩
  | int n => exact ⟨fun _ => rfl, fun _ => startsNumber_formatInt n⟩
  | float f => exact ⟨fun _ => rfl, fun _ => startsNumber_formatFloat f⟩
  | string s => cases h
  | slice elems => exact ⟨fun h => absurd h (hnot 91 _ (by decide)), fun h => by cases h⟩
  | map fields => exact ⟨fun h => absurd h (hnot 109 _ (by decide)), fun h => by cases h⟩

private theorem number_eq_read (h : v.number.isSome = true) :
    v.number = some (readNumber v.printed) := by
  cases v with
  | int n => exact congrArg some (readNumber_formatInt n).symm
  | float f => exact congrArg some (readNumber_formatFloat f).symm
  | null | bool | string | slice | map => cases h

/-- A leaf that is no string is printed as no other value is, strings apart. -/
theorem same_of_printed (ha : a.isLeaf = true) (has : a.isString = false) (hbs : b.isString = false)
    (h : a.printed = b.printed) : Same a b := by
  by_cases hnumber : a.number.isSome = true
  · have hstarts := (startsNumber_printed has).mpr hnumber
    rw [h] at hstarts
    have hb := number_eq_read ((startsNumber_printed hbs).mp hstarts)
    rw [← h] at hb
    exact .number (number_eq_read hnumber) hb
  · have hb : b.number.isSome ≠ true := by
      intro hb
      have hstarts := (startsNumber_printed hbs).mpr hb
      rw [← h] at hstarts
      exact hnumber ((startsNumber_printed has).mp hstarts)
    have hhead := congrArg List.head? h
    cases a with
    | null =>
      cases b with
      | null => exact .null
      | bool b => cases b <;> cases hhead
      | int | float => exact absurd rfl hb
      | string => cases hbs
      | slice | map => cases hhead
    | bool x =>
      cases b with
      | null => cases x <;> cases hhead
      | bool y =>
        cases x with
        | true =>
          cases y with
          | true => exact .bool true
          | false => cases hhead
        | false =>
          cases y with
          | true => cases hhead
          | false => exact .bool false
      | int | float => exact absurd rfl hb
      | string => cases hbs
      | slice | map => cases x <;> cases hhead
    | int | float => exact absurd rfl hnumber
    | string => cases has
    | slice | map => cases ha

end Printed

end Value

/-- An unstructured object: the fields of a JSON object. -/
structure Unstructured where
  object : Fields Value
  wellFormed : (Value.map object).wellFormed = true

section Nested

/-- Why a nested field could not be read or set: a value on the way, or the field
itself, has another type. -/
structure NestedError where
  path : List GoString

/-- `unstructured.NestedFieldNoCopy`. -/
def nestedFieldNoCopy (v : Value) (fields : List GoString) : Except NestedError (Option Value) :=
  match fields with
  | [] => .ok (some v)
  | field :: rest =>
    match v with
    | .null => .ok none
    | .map m =>
      match Fields.get m field with
      | none => .ok none
      | some v' => (nestedFieldNoCopy v' rest).mapError (fun e => ⟨field :: e.path⟩)
    | _ => .error ⟨[field]⟩

/-- `unstructured.NestedMap`. -/
def nestedMap (obj : Fields Value) (fields : List GoString) :
    Except NestedError (Option (Fields Value)) :=
  match nestedFieldNoCopy (.map obj) fields with
  | .error e => .error e
  | .ok none => .ok none
  | .ok (some (.map m)) => .ok (some m)
  | .ok (some _) => .error ⟨fields⟩

/-- `unstructured.NestedSlice`. -/
def nestedSlice (obj : Fields Value) (fields : List GoString) :
    Except NestedError (Option (List Value)) :=
  match nestedFieldNoCopy (.map obj) fields with
  | .error e => .error e
  | .ok none => .ok none
  | .ok (some (.slice elems)) => .ok (some elems)
  | .ok (some _) => .error ⟨fields⟩

/-- `unstructured.NestedString`. -/
def nestedString (obj : Fields Value) (fields : List GoString) :
    Except NestedError (Option GoString) :=
  match nestedFieldNoCopy (.map obj) fields with
  | .error e => .error e
  | .ok none => .ok none
  | .ok (some (.string s)) => .ok (some s)
  | .ok (some _) => .error ⟨fields⟩

/-- The value as a string, as a type assertion without its flag gives it. -/
def Value.asString : Value → GoString
  | .string s => s
  | _ => []

/-- `unstructured.NestedStringSlice`. -/
def nestedStringSlice (obj : Fields Value) (fields : List GoString) :
    Except NestedError (Option (List GoString)) :=
  match nestedFieldNoCopy (.map obj) fields with
  | .error e => .error e
  | .ok none => .ok none
  | .ok (some (.slice elems)) =>
      if elems.all Value.isString then .ok (some (elems.map Value.asString)) else .error ⟨fields⟩
  | .ok (some _) => .error ⟨fields⟩

/-- `unstructured.SetNestedField`, for at least one field. -/
def setNestedField (obj : Fields Value) (value : Value) (fields : List GoString) :
    Except NestedError (Fields Value) :=
  match fields with
  | [] => .ok obj
  | [field] => .ok (obj.set field value)
  | field :: rest =>
    match obj.get field with
    | none => (setNestedField [] value rest).map (fun m => obj.set field (.map m))
    | some (.map m) =>
      match setNestedField m value rest with
      | .ok m' => .ok (obj.set field (.map m'))
      | .error e => .error ⟨field :: e.path⟩
    | some _ => .error ⟨[field]⟩

end Nested

section Assertions

/-- The value as a map, as a type assertion without its flag gives it. -/
def asMap : Option Value → Fields Value
  | some (.map m) => m
  | _ => []

/-- The value as a list, as a type assertion without its flag gives it. -/
def asSlice : Option Value → List Value
  | some (.slice elems) => elems
  | _ => []

/-- What `fmt.Sprintf("%v", m[k])` gives, with `<nil>` for a key the map lacks. -/
def textOf (m : Fields Value) (k : GoString) : GoString := ((m.get k).getD .null).printed

end Assertions

namespace Unstructured

variable (u : Unstructured)

/-- A string field, empty where there is none. -/
def getNestedString (fields : List GoString) : GoString :=
  match nestedString u.object fields with
  | .ok (some s) => s
  | _ => []

def getAPIVersion : GoString := u.getNestedString ["apiVersion"]
def getKind : GoString := u.getNestedString ["kind"]
def getName : GoString := u.getNestedString ["metadata", "name"]
def getNamespace : GoString := u.getNestedString ["metadata", "namespace"]

/-- `unstructured.NestedMap` of one field, with no map where there is none. -/
def nestedMapOrNil (obj : Fields Value) (field : GoString) : Fields Value :=
  match nestedMap obj [field] with
  | .ok (some m) => m
  | _ => []

def spec : Fields Value := nestedMapOrNil u.object "spec"

/-- The labels, none where one of them is no string. -/
def getLabels : Fields Value :=
  match nestedMap u.object ["metadata", "labels"] with
  | .ok (some labels) => if labels.all (fun e => e.2.isString) then labels else []
  | _ => []

/-- The object with a field set. -/
def setField (field : GoString) (v : Value) (hv : v.wellFormed = true) : Unstructured where
  object := u.object.set field v
  wellFormed := Value.wellFormed_set u.wellFormed hv

variable {u} {m m' : Fields Value} {field : GoString} {v : Value}

theorem nestedMapOrNil_map (h : m.get field = some (.map m')) : nestedMapOrNil m field = m' := by
  simp only [nestedMapOrNil, nestedMap, nestedFieldNoCopy, h, Except.mapError]

theorem nestedFieldNoCopy_cons (m : Fields Value) (field : GoString) (rest : List GoString) :
    nestedFieldNoCopy (.map m) (field :: rest) = (match m.get field with
      | none => .ok none
      | some v => (nestedFieldNoCopy v rest).mapError (fun e => ⟨field :: e.path⟩)) := by
  cases h : m.get field with
  | none => simp only [nestedFieldNoCopy, h]
  | some v => simp only [nestedFieldNoCopy, h]

/-- A nested field depends on the first of its fields alone. -/
theorem nestedFieldNoCopy_congr {rest : List GoString} (h : m.get field = m'.get field) :
    nestedFieldNoCopy (.map m) (field :: rest) = nestedFieldNoCopy (.map m') (field :: rest) := by
  rw [nestedFieldNoCopy_cons, nestedFieldNoCopy_cons, h]

theorem getNestedString_congr {u' : Unstructured} {rest : List GoString}
    (h : u.object.get field = u'.object.get field) :
    u.getNestedString (field :: rest) = u'.getNestedString (field :: rest) := by
  rw [getNestedString, getNestedString, nestedString, nestedString, nestedFieldNoCopy_congr h]

theorem nestedMapOrNil_congr (h : m.get field = m'.get field) :
    nestedMapOrNil m field = nestedMapOrNil m' field := by
  rw [nestedMapOrNil, nestedMapOrNil, nestedMap, nestedMap, nestedFieldNoCopy_congr h]

theorem wellFormed_nestedMapOrNil (h : (Value.map m).wellFormed = true) (field : GoString) :
    (Value.map (nestedMapOrNil m field)).wellFormed = true := by
  simp only [nestedMapOrNil, nestedMap, nestedFieldNoCopy]
  cases hget : m.get field with
  | none => rfl
  | some v =>
    cases v with
    | map m' => exact Value.wellFormed_get h hget
    | null | bool | int | float | string | slice => rfl

private theorem wellFormed_nestedFieldNoCopy {fields : List GoString} {v v' : Value}
    (h : v.wellFormed = true)
    (hread : nestedFieldNoCopy v fields = .ok (some v')) : v'.wellFormed = true := by
  induction fields generalizing v with
  | nil =>
    rw [nestedFieldNoCopy] at hread
    obtain rfl := Option.some.inj (Except.ok.inj hread)
    exact h
  | cons field rest ih =>
    cases v with
    | map m =>
      rw [nestedFieldNoCopy_cons] at hread
      cases hget : Fields.get m field with
      | none => simp [hget] at hread
      | some w =>
        simp only [hget] at hread
        cases hrest : nestedFieldNoCopy w rest with
        | error e => simp [hrest, Except.mapError] at hread
        | ok found =>
          simp only [hrest, Except.mapError, Except.ok.injEq] at hread
          rw [hread] at hrest
          exact ih (Value.wellFormed_get h hget) hrest
    | null | bool | int | float | string | slice => simp [nestedFieldNoCopy] at hread

theorem wellFormed_nestedSlice {fields : List GoString} {elems : List Value}
    (h : (Value.map m).wellFormed = true)
    (hread : nestedSlice m fields = .ok (some elems)) : (Value.slice elems).wellFormed = true := by
  rw [nestedSlice] at hread
  split at hread
  · simp at hread
  · simp at hread
  · next elems' hfound =>
    simp only [Except.ok.injEq, Option.some.injEq] at hread
    rw [← hread]
    exact wellFormed_nestedFieldNoCopy h hfound
  · simp at hread

theorem wellFormed_setNestedField {fields : List GoString} (h : (Value.map m).wellFormed = true)
    (hv : v.wellFormed = true) (hset : setNestedField m v fields = .ok m') :
    (Value.map m').wellFormed = true := by
  induction fields generalizing m m' with
  | nil =>
    rw [setNestedField] at hset
    obtain rfl := Except.ok.inj hset
    exact h
  | cons field rest ih =>
    cases rest with
    | nil =>
      rw [setNestedField] at hset
      obtain rfl := Except.ok.inj hset
      exact Value.wellFormed_set h hv
    | cons next rest =>
      simp only [setNestedField] at hset
      cases hget : Fields.get m field with
      | none =>
        simp only [hget] at hset
        cases hrest : setNestedField [] v (next :: rest) with
        | error e => simp [hrest, Except.map] at hset
        | ok inner =>
          simp only [hrest, Except.map, Except.ok.injEq] at hset
          rw [← hset]
          exact Value.wellFormed_set h (ih rfl hrest)
      | some w =>
        cases w with
        | map inner =>
          simp only [hget] at hset
          cases hrest : setNestedField inner v (next :: rest) with
          | error e => simp [hrest] at hset
          | ok inner' =>
            simp only [hrest, Except.ok.injEq] at hset
            rw [← hset]
            exact Value.wellFormed_set h (ih (Value.wellFormed_get h hget) hrest)
        | null | bool | int | float | string | slice => simp [hget] at hset

end Unstructured

end unstructured
