import ServingPack.Lib.GoMap

namespace golang

/-- Whether a key stands before another among a map's entries. -/
def before (s t : GoString) : Prop := s ≠ t ∧ le s t

instance : DecidableRel before := fun s t => inferInstanceAs (Decidable (s ≠ t ∧ le s t))

theorem before_irrefl (s : GoString) : ¬before s s := fun h => h.1 rfl

private theorem before_trans {s t u : GoString} (h : before s t) (h' : before t u) :
    before s u := by
  refine ⟨?_, IsTrans.trans _ _ _ h.2 h'.2⟩
  intro hsu
  subst hsu
  exact h.1 (Std.Antisymm.antisymm _ _ h.2 h'.2)

private theorem before_of_not {s t : GoString} (hne : s ≠ t) (h : ¬before s t) : before t s := by
  refine ⟨hne.symm, (Std.Total.total (r := le) s t).resolve_left ?_⟩
  intro hle
  exact h ⟨hne, hle⟩

theorem not_before {s t : GoString} : ¬before s t ↔ le t s := by
  constructor
  · intro h
    by_cases heq : s = t
    · rw [heq]
      exact (Std.Total.total (r := le) t t).elim id id
    · exact (before_of_not heq h).2
  · intro hle hbefore
    exact hbefore.1 (Std.Antisymm.antisymm _ _ hbefore.2 hle)

/-- A Go map with string keys as a tree holds it: its entries in the order of their
keys, which is the order `fmt` prints them in. -/
abbrev Fields (V : Type) := List (GoString × V)

namespace Fields

variable {V : Type}

/-- Every key once, and in order: two maps with the same values are the same entries. -/
def Sorted (m : Fields V) : Prop := m.Pairwise (fun e e' => before e.1 e'.1)

instance (m : Fields V) : Decidable (Sorted m) := inferInstanceAs (Decidable (m.Pairwise _))

/-- `m[k]`. -/
def get (m : Fields V) (k : GoString) : Option V :=
  match m with
  | [] => none
  | e :: rest => if e.1 = k then some e.2 else get rest k

/-- `m[k] = v`. -/
def set (m : Fields V) (k : GoString) (v : V) : Fields V :=
  match m with
  | [] => [(k, v)]
  | e :: rest =>
    if e.1 = k then (k, v) :: rest
    else if before k e.1 then (k, v) :: e :: rest
    else e :: set rest k v

/-- `delete(m, k)`. -/
def delete (m : Fields V) (k : GoString) : Fields V := m.filter (fun e => e.1 ≠ k)

/-- A map literal. -/
def of (entries : Fields V) : Fields V := entries.foldl (fun m e => set m e.1 e.2) []

variable {m m' : Fields V} {k k' : GoString} {v : V} {e : GoString × V}

@[simp] theorem get_nil : get ([] : Fields V) k = none := rfl

private theorem get_cons : get (e :: m) k = if e.1 = k then some e.2 else get m k := rfl

theorem mem_of_get (h : get m k = some v) : (k, v) ∈ m := by
  induction m with
  | nil => cases h
  | cons e rest ih =>
    rw [get_cons] at h
    split_ifs at h with hk
    · obtain rfl := Option.some.inj h
      subst hk
      exact List.mem_cons_self
    · exact List.mem_cons_of_mem _ (ih h)

theorem Sorted.get_of_mem (hm : Sorted m) (h : (k, v) ∈ m) : get m k = some v := by
  induction m with
  | nil => cases h
  | cons e rest ih =>
    rw [get_cons]
    cases h with
    | head => rw [if_pos rfl]
    | tail _ h =>
      have hbefore := List.rel_of_pairwise_cons hm h
      rw [if_neg hbefore.1]
      exact ih hm.of_cons h

theorem get_set : get (set m k v) k' = if k' = k then some v else get m k' := by
  induction m with
  | nil =>
    simp only [set, get_cons, get_nil]
    simp only [eq_comm]
  | cons e rest ih =>
    rw [set]
    by_cases he : e.1 = k
    · rw [if_pos he, get_cons, get_cons, he]
      by_cases hk : k' = k
      · rw [if_pos hk, if_pos hk.symm]
      · rw [if_neg hk, if_neg (Ne.symm hk), if_neg (Ne.symm hk)]
    · rw [if_neg he]
      split_ifs with hbefore hk hk
      · rw [get_cons, if_pos hk.symm]
      · rw [get_cons, if_neg (Ne.symm hk)]
      · rw [get_cons, ih, if_pos hk, if_neg]
        rw [hk]
        exact he
      · rw [get_cons, ih, if_neg hk, ← get_cons]

@[simp] theorem get_set_self : get (set m k v) k = some v := by rw [get_set, if_pos rfl]

theorem get_set_ne (h : k' ≠ k) : get (set m k v) k' = get m k' := by rw [get_set, if_neg h]

theorem get_delete : get (delete m k) k' = if k' = k then none else get m k' := by
  induction m with
  | nil => simp [delete]
  | cons e rest ih =>
    rw [delete, List.filter_cons]
    rw [delete] at ih
    split_ifs with he hk hk
    · rw [get_cons, ih, if_pos hk, if_neg]
      subst hk
      simpa using he
    · rw [get_cons, get_cons, ih, if_neg hk]
    · rw [ih, if_pos hk]
    · have hek : e.1 = k := by simpa using he
      rw [ih, if_neg hk, get_cons, if_neg]
      intro h
      exact hk (h.symm.trans hek)

theorem mem_set (h : e ∈ set m k v) : e = (k, v) ∨ e ∈ m := by
  induction m with
  | nil => exact .inl (List.mem_singleton.mp h)
  | cons e' rest ih =>
    rw [set] at h
    split_ifs at h
    · exact (List.mem_cons.mp h).imp_right (List.mem_cons_of_mem _)
    · exact List.mem_cons.mp h
    · cases h with
      | head => exact .inr List.mem_cons_self
      | tail _ h => exact (ih h).imp_right (List.mem_cons_of_mem _)

theorem sorted_set (hm : Sorted m) : Sorted (set m k v) := by
  induction m with
  | nil => exact List.pairwise_singleton _ _
  | cons e rest ih =>
    have hrest := (List.pairwise_cons.mp hm).1
    rw [set]
    split_ifs with he hbefore
    · subst he
      exact List.pairwise_cons.mpr ⟨hrest, hm.of_cons⟩
    · apply List.pairwise_cons.mpr
      refine ⟨fun e' he' => ?_, hm⟩
      cases he' with
      | head => exact hbefore
      | tail _ he' => exact before_trans hbefore (hrest e' he')
    · apply List.pairwise_cons.mpr
      refine ⟨fun e' he' => ?_, ih hm.of_cons⟩
      obtain rfl | he' := mem_set he'
      · exact before_of_not (Ne.symm he) hbefore
      · exact hrest e' he'

theorem sorted_delete (hm : Sorted m) : Sorted (delete m k) := List.Pairwise.filter _ hm

private theorem Sorted.nodup (hm : Sorted m) : m.Nodup := by
  refine hm.imp ?_
  intro e e' hbefore heq
  exact hbefore.1 (congrArg Prod.fst heq)

/-- A map is what can be read from it. -/
theorem Sorted.ext (hm : Sorted m) (hm' : Sorted m') (h : ∀ k, get m k = get m' k) : m = m' := by
  have hsame : ∀ e, e ∈ m ↔ e ∈ m' := by
    intro e
    constructor
    · intro he
      exact mem_of_get ((h e.1).symm.trans (hm.get_of_mem he))
    · intro he
      exact mem_of_get ((h e.1).trans (hm'.get_of_mem he))
  have hperm : m.Perm m' := (List.perm_ext_iff_of_nodup hm.nodup hm'.nodup).mpr hsame
  apply hperm.eq_of_pairwise _ hm hm'
  intro e e' _ _ hbefore hbefore'
  exact absurd (before_trans hbefore hbefore') (before_irrefl _)

/-- The keys of a map. -/
def keys (m : Fields V) : List GoString := m.map Prod.fst

private theorem mem_keys : k ∈ keys m ↔ (get m k).isSome = true := by
  induction m with
  | nil => simp [keys]
  | cons e rest ih =>
    rw [keys, List.map_cons, List.mem_cons, get_cons]
    split_ifs with he
    · simp [he]
    · rw [← ih]
      simp [keys, Ne.symm he]

private theorem Sorted.nodup_keys (hm : Sorted m) : (keys m).Nodup :=
  List.pairwise_map.mpr (hm.imp (fun h => h.1))

/-- Two maps of one size, the one's keys among the other's, have the same keys. -/
theorem Sorted.keys_eq (hm : Sorted m) (hlength : m.length = m'.length)
    (h : ∀ k, (get m k).isSome = true → (get m' k).isSome = true) (k : GoString) :
    (get m k).isSome = (get m' k).isSome := by
  have hsub : keys m ⊆ keys m' := fun k hk => mem_keys.mpr (h k (mem_keys.mp hk))
  have hle : (keys m').length ≤ (keys m).length := by
    rw [keys, keys, List.length_map, List.length_map, hlength]
  have hperm := (hm.nodup_keys.subperm hsub).perm_of_length_le hle
  rw [Bool.eq_iff_iff, ← mem_keys, ← mem_keys]
  exact hperm.mem_iff

theorem Sorted.length_eq (hm : Sorted m) (hm' : Sorted m')
    (h : ∀ k, (get m k).isSome = (get m' k).isSome) :
    m.length = m'.length := by
  have hperm : (keys m).Perm (keys m') := by
    apply (List.perm_ext_iff_of_nodup hm.nodup_keys hm'.nodup_keys).mpr
    intro k
    rw [mem_keys, mem_keys, h]
  simpa [keys] using hperm.length_eq

/-- Setting a key to what it holds changes nothing. -/
theorem Sorted.set_get (hm : Sorted m) (h : get m k = some v) : set m k v = m := by
  apply Sorted.ext (sorted_set hm) hm
  intro k'
  rw [get_set]
  split_ifs with hk
  · rw [hk, h]
  · rfl

end Fields

end golang
