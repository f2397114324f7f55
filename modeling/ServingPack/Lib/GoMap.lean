import Mathlib.Data.Finmap
import Mathlib.Data.List.Lex
import Mathlib.Data.List.Sort
import ServingPack.Lib.GoString

namespace golang

/-- The byte-wise order `sort.Strings` sorts by. -/
def le (s t : GoString) : Prop := s.map UInt8.toNat ≤ t.map UInt8.toNat

instance : DecidableRel le :=
  fun s t => inferInstanceAs (Decidable (s.map UInt8.toNat ≤ t.map UInt8.toNat))

private theorem toNat_injective : Function.Injective UInt8.toNat :=
  fun _ _ h => UInt8.toNat_inj.mp h

instance : Std.Total le := ⟨fun s t => le_total (s.map UInt8.toNat) (t.map UInt8.toNat)⟩

instance : IsTrans GoString le := ⟨fun _ _ _ => le_trans⟩

instance : Std.Antisymm le :=
  ⟨fun _ _ h h' => List.map_injective_iff.mpr toNat_injective (le_antisymm h h')⟩

/-- `sort.Strings`. -/
def sortStrings (l : List GoString) : List GoString := l.insertionSort le

@[simp] theorem mem_sortStrings {s : GoString} {l : List GoString} : s ∈ sortStrings l ↔ s ∈ l :=
  List.mem_insertionSort le

/-- The sorted list does not depend on the order in which the strings were collected. -/
theorem sortStrings_perm {l l' : List GoString} (h : l.Perm l') :
    sortStrings l = sortStrings l' := by
  have hperm : (sortStrings l).Perm (sortStrings l') :=
    (List.perm_insertionSort le l).trans (h.trans (List.perm_insertionSort le l').symm)
  exact hperm.eq_of_pairwise (fun _ _ _ _ hle hle' => Std.Antisymm.antisymm _ _ hle hle')
    (List.pairwise_insertionSort le l) (List.pairwise_insertionSort le l')

/-- A Go map with string keys. -/
abbrev GoMap (V : Type) := Finmap (fun _ : GoString => V)

namespace GoMap

variable {V : Type}

/-- A map literal. -/
def ofList (entries : List (GoString × V)) : GoMap V :=
  entries.foldl (fun m e => m.insert e.1 e.2) ∅

/-- The keys a `range` collects, sorted: Go leaves the order of the iteration open. -/
def sortedKeys (m : GoMap V) : List GoString :=
  Quot.liftOn m.keys.val sortStrings (fun _ _ h => sortStrings_perm h)

theorem mem_sortedKeys {m : GoMap V} {k : GoString} : k ∈ m.sortedKeys ↔ k ∈ m := by
  rw [← Finmap.mem_keys]
  show k ∈ Quot.liftOn m.keys.val sortStrings _ ↔ k ∈ m.keys.val
  induction m.keys.val using Quot.inductionOn with
  | h l => exact mem_sortStrings

/-- `delete(m, k)` for every listed key. -/
def eraseAll (m : GoMap V) (ks : List GoString) : GoMap V := ks.foldl (fun m k => m.erase k) m

theorem lookup_eraseAll (m : GoMap V) (ks : List GoString) (k : GoString) :
    (m.eraseAll ks).lookup k = if k ∈ ks then none else m.lookup k := by
  induction ks generalizing m with
  | nil => simp [eraseAll]
  | cons j ks ih =>
    have hstep : m.eraseAll (j :: ks) = eraseAll (m.erase j) ks := rfl
    rw [hstep, ih]
    by_cases hk : k ∈ ks
    · simp [hk]
    · by_cases hj : k = j
      · subst hj
        simp
      · simp [hk, hj, Finmap.lookup_erase_ne hj]

theorem lookup_insert_eq (m : GoMap V) (k k' : GoString) (v : V) :
    (m.insert k v).lookup k' = if k' = k then some v else m.lookup k' := by
  split_ifs with h
  · rw [h, Finmap.lookup_insert]
  · exact Finmap.lookup_insert_of_ne m h

theorem lookup_erase_eq (m : GoMap V) (k k' : GoString) :
    (m.erase k).lookup k' = if k' = k then none else m.lookup k' := by
  split_ifs with h
  · rw [h, Finmap.lookup_erase]
  · exact Finmap.lookup_erase_ne h

theorem lookup_foldl_insert {entries : List (GoString × V)} (hnodup : (entries.map Prod.fst).Nodup)
    (m : GoMap V)
    (k : GoString) (v : V) : (entries.foldl (fun m e => m.insert e.1 e.2) m).lookup k = some v ↔
      (k, v) ∈ entries ∨ k ∉ entries.map Prod.fst ∧ m.lookup k = some v := by
  induction entries generalizing m with
  | nil => simp
  | cons entry rest ih =>
    obtain ⟨j, w⟩ := entry
    rw [List.map_cons, List.nodup_cons] at hnodup
    rw [List.foldl_cons, ih hnodup.2, lookup_insert_eq]
    by_cases hk : k = j
    · subst hk
      have hnot : (k, v) ∉ rest := fun hmem => hnodup.1 (List.mem_map.mpr ⟨_, hmem, rfl⟩)
      simp [hnot, hnodup.1, eq_comm]
    · simp [hk]

/-- A literal with distinct keys holds its entries. -/
theorem lookup_ofList {entries : List (GoString × V)} (hnodup : (entries.map Prod.fst).Nodup)
    {k : GoString} {v : V} :
    (ofList entries).lookup k = some v ↔ (k, v) ∈ entries := by
  rw [ofList, lookup_foldl_insert hnodup]
  simp

private theorem lookup_foldl_insert_mem {entries : List (GoString × V)} {m : GoMap V} {k : GoString}
    {v : V} (h : (entries.foldl (fun m e => m.insert e.1 e.2) m).lookup k = some v) :
    (k, v) ∈ entries ∨ m.lookup k = some v := by
  induction entries generalizing m with
  | nil => exact .inr h
  | cons entry rest ih =>
    rcases ih h with hrest | hfirst
    · exact .inl (List.mem_cons_of_mem _ hrest)
    · rw [lookup_insert_eq] at hfirst
      split_ifs at hfirst with hkey
      · obtain ⟨rfl, rfl⟩ := And.intro hkey (Option.some.inj hfirst)
        exact .inl List.mem_cons_self
      · exact .inr hfirst

/-- A value of a map literal is that of one of its entries. -/
theorem mem_of_lookup_ofList {entries : List (GoString × V)} {k : GoString} {v : V}
    (h : (ofList entries).lookup k = some v) : (k, v) ∈ entries :=
  (lookup_foldl_insert_mem h).resolve_right (by simp)

private theorem isSome_lookup_foldl_insert {entries : List (GoString × V)} {m : GoMap V}
    {k : GoString} (h : (m.lookup k).isSome = true ∨ k ∈ entries.map Prod.fst) :
    ((entries.foldl (fun m e => m.insert e.1 e.2) m).lookup k).isSome = true := by
  induction entries generalizing m with
  | nil => exact h.resolve_right List.not_mem_nil
  | cons entry rest ih =>
    rw [List.map_cons, List.mem_cons] at h
    rw [List.foldl_cons]
    apply ih
    rw [lookup_insert_eq]
    split_ifs with hkey
    · exact .inl rfl
    · exact h.imp_right fun hmem => hmem.resolve_left hkey

/-- A map literal has a value for each of its keys. -/
theorem isSome_lookup_ofList {entries : List (GoString × V)} {k : GoString}
    (h : k ∈ entries.map Prod.fst) :
    ((ofList entries).lookup k).isSome = true := isSome_lookup_foldl_insert (.inr h)

end GoMap

end golang
