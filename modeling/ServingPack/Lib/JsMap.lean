import Mathlib.Data.List.Nodup

/-- A JavaScript `Map`: one entry for each key, in the order in which the keys were
first set. -/
structure JsMap (κ V : Type) where
  entries : List (κ × V)
  nodup : (entries.map Prod.fst).Nodup

namespace JsMap

variable {κ V : Type} [DecidableEq κ]

def empty : JsMap κ V := ⟨[], List.nodup_nil⟩

/-- Entries with a key set: in its place, or at the end. -/
def setEntries (k : κ) (v : V) : List (κ × V) → List (κ × V)
  | [] => [(k, v)]
  | e :: rest => if e.1 = k then (k, v) :: rest else e :: setEntries k v rest

private theorem keys_setEntries (k : κ) (v : V) (l : List (κ × V)) :
    (setEntries k v l).map Prod.fst = if k ∈ l.map Prod.fst then l.map Prod.fst
    else l.map Prod.fst ++ [k] := by
  induction l with
  | nil => rfl
  | cons e rest ih =>
    rw [setEntries]
    by_cases hkey : e.1 = k
    · simp [hkey]
    · rw [if_neg hkey, List.map_cons, ih]
      simp only [List.map_cons, List.mem_cons, Ne.symm hkey, false_or]
      split_ifs <;> simp

def set (m : JsMap κ V) (k : κ) (v : V) : JsMap κ V where
  entries := setEntries k v m.entries
  nodup := by
    rw [keys_setEntries]
    split_ifs with hmem
    · exact m.nodup
    · apply List.nodup_append.mpr
      refine ⟨m.nodup, List.nodup_singleton k, fun a ha b hb hab => hmem ?_⟩
      rw [← List.mem_singleton.mp hb, ← hab]
      exact ha

def delete (m : JsMap κ V) (k : κ) : JsMap κ V where
  entries := m.entries.filter (fun e => e.1 ≠ k)
  nodup := (m.nodup).sublist (List.filter_sublist.map Prod.fst)

def get (m : JsMap κ V) (k : κ) : Option V := (m.entries.find? (fun e => e.1 = k)).map Prod.snd

def has (m : JsMap κ V) (k : κ) : Bool := (m.get k).isSome

def size (m : JsMap κ V) : Nat := m.entries.length

def values (m : JsMap κ V) : List V := m.entries.map Prod.snd

/-- The key that was first set of those the map has. -/
def oldest (m : JsMap κ V) : Option κ := m.entries.head?.map Prod.fst

variable {m : JsMap κ V} {k j : κ} {v : V}

@[simp] theorem get_empty : (empty : JsMap κ V).get k = none := rfl

private theorem mem_entries : (k, v) ∈ m.entries ↔ m.get k = some v := by
  obtain ⟨l, hnodup⟩ := m
  show (k, v) ∈ l ↔ (l.find? (fun e => e.1 = k)).map Prod.snd = some v
  induction l with
  | nil => simp
  | cons e rest ih =>
    obtain ⟨hnot, hrest⟩ := List.nodup_cons.mp hnodup
    rw [List.find?_cons]
    by_cases hkey : e.1 = k
    · have hmem : (k, v) ∉ rest := by
        intro h
        apply hnot
        rw [hkey]
        exact List.mem_map.mpr ⟨_, h, rfl⟩
      rw [List.mem_cons, or_iff_left hmem, decide_eq_true hkey]
      simp [Prod.ext_iff, hkey, eq_comm]
    · have hne : (k, v) ≠ e := by
        intro h
        exact hkey (h ▸ rfl)
      rw [List.mem_cons, or_iff_right hne, decide_eq_false hkey]
      exact ih hrest

theorem mem_values : v ∈ m.values ↔ ∃ k, m.get k = some v := by
  simp only [values, List.mem_map, ← mem_entries]
  constructor
  · intro ⟨⟨k, _⟩, hmem, h⟩
    exact ⟨k, h ▸ hmem⟩
  · intro ⟨k, hmem⟩
    exact ⟨(k, v), hmem, rfl⟩

theorem get_set : (m.set k v).get j = if j = k then some v else m.get j := by
  obtain ⟨l, hnodup⟩ := m
  show ((setEntries k v l).find? (fun e => e.1 = j)).map Prod.snd =
    if j = k then some v else (l.find? (fun e => e.1 = j)).map Prod.snd
  clear hnodup
  induction l with
  | nil =>
    rw [setEntries, List.find?_cons]
    by_cases hj : j = k
    · simp [hj]
    · simp [hj, Ne.symm hj]
  | cons e rest ih =>
    rw [setEntries]
    by_cases hkey : e.1 = k
    · rw [if_pos hkey, List.find?_cons, List.find?_cons, hkey]
      by_cases hj : j = k
      · simp [hj]
      · simp [hj, Ne.symm hj]
    · rw [if_neg hkey, List.find?_cons, List.find?_cons]
      by_cases hj : e.1 = j
      · simp [hj, hj ▸ hkey]
      · simpa [hj] using ih

theorem get_delete : (m.delete k).get j = if j = k then none else m.get j := by
  ext v
  rw [← mem_entries]
  show (j, v) ∈ m.entries.filter _ ↔ _
  rw [List.mem_filter, mem_entries]
  by_cases hj : j = k
  · simp [hj]
  · simp [hj]

/-- The keys of a map whose values carry them. -/
theorem nodup_values {key : V → κ} (h : ∀ k v, m.get k = some v → key v = k) :
    (m.values.map key).Nodup := by
  have hkeys : m.values.map key = m.entries.map Prod.fst := by
    rw [values, List.map_map]
    exact List.map_congr_left fun e he => h e.1 e.2 (mem_entries.mp he)
  rw [hkeys]
  exact m.nodup

theorem size_eq_zero : m.size = 0 ↔ ∀ k, m.get k = none := by
  rw [size, List.length_eq_zero_iff]
  constructor
  · intro h k
    rw [get, h]
    rfl
  · intro h
    apply List.eq_nil_iff_forall_not_mem.mpr
    intro e he
    have hget := mem_entries.mp (show (e.1, e.2) ∈ m.entries from he)
    rw [h] at hget
    cases hget

end JsMap
