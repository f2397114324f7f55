import Mathlib.Algebra.BigOperators.Group.List.Basic
import Mathlib.Data.List.Dedup

/-- The weight of some items. -/
def sumOf {α M : Type*} [AddCommMonoid M] (weight : α → M) (items : List α) : M :=
  (items.map weight).sum

section SumOf

variable {α κ M : Type*} [AddCommMonoid M] {weight : α → M}

@[simp] theorem sumOf_nil : sumOf weight ([] : List α) = 0 := rfl

@[simp] theorem sumOf_cons (a : α) (rest : List α) :
    sumOf weight (a :: rest) = weight a + sumOf weight rest := List.sum_cons

theorem sumOf_append (first second : List α) :
    sumOf weight (first ++ second) = sumOf weight first + sumOf weight second := by
  rw [sumOf, List.map_append, List.sum_append]
  rfl

theorem sumOf_perm {l l' : List α} (h : l.Perm l') : sumOf weight l = sumOf weight l' :=
  (h.map weight).sum_eq

theorem sumOf_one (items : List α) : sumOf (fun _ => 1) items = items.length := by
  induction items with
  | nil => rfl
  | cons a rest ih => rw [sumOf_cons, ih, List.length_cons, Nat.add_comm]

theorem sumOf_zero (items : List α) : sumOf (fun _ => (0 : M)) items = 0 := by
  induction items with
  | nil => rfl
  | cons a rest ih => rw [sumOf_cons, ih, add_zero]

/-- Items that pass one of two tests, where none passes both. -/
theorem sumOf_filter_or {p q : α → Bool} {items : List α}
    (h : ∀ a ∈ items, p a = true → q a = false) :
    sumOf weight (items.filter (fun a => p a || q a)) = sumOf weight (items.filter p) + sumOf weight
      (items.filter q) := by
  induction items with
  | nil => rw [List.filter_nil, List.filter_nil, List.filter_nil, sumOf_nil, add_zero]
  | cons a rest ih =>
    obtain ⟨ha, hrest⟩ := List.forall_mem_cons.mp h
    cases hp : p a with
    | true => simp [hp, ha hp, ih hrest, add_assoc]
    | false => cases hq : q a <;> simp [hp, hq, ih hrest, add_left_comm]

theorem sumOf_filter_keys [DecidableEq κ] {key : α → κ} (items : List α) {ks : List κ}
    (hks : ks.Nodup) :
    sumOf (fun k => sumOf weight (items.filter (fun a => decide (key a = k)))) ks =
      sumOf weight (items.filter (fun a => decide (key a ∈ ks))) := by
  induction ks with
  | nil => simp
  | cons k rest ih =>
    obtain ⟨hk, hrest⟩ := List.nodup_cons.mp hks
    have hsplit : items.filter (fun a => decide (key a ∈ k :: rest)) =
        items.filter (fun a => decide (key a = k) || decide (key a ∈ rest)) := by
      simp only [List.mem_cons, Bool.decide_or]
    rw [sumOf_cons, ih hrest, hsplit, sumOf_filter_or]
    intro a _ ha
    rw [of_decide_eq_true ha]
    exact decide_eq_false hk

end SumOf

/-- Rows that sum up items by a key: one row for each key of an item, with the weight of its
items. -/
structure Groups {α κ ρ M : Type*} [DecidableEq κ] [AddCommMonoid M] (items : List α) (key : α → κ)
    (weight : α → M) (rows : List ρ) (rowKey : ρ → κ) (value : ρ → M) : Prop where
  nodup : (rows.map rowKey).Nodup
  value : ∀ r ∈ rows, value r = sumOf weight (items.filter (fun a => decide (key a = rowKey r)))
  cover : ∀ a ∈ items, key a ∈ rows.map rowKey
  used : ∀ r ∈ rows, rowKey r ∈ items.map key

/-- The rows whose key passes a test sum up the items whose key does. -/
theorem Groups.sumOf_filter {α κ ρ M : Type*} [DecidableEq κ] [AddCommMonoid M] {items : List α}
    {key : α → κ} {weight : α → M}
    {rows : List ρ} {rowKey : ρ → κ} {value : ρ → M} (h : Groups items key weight rows rowKey value)
    (p : κ → Bool) :
    sumOf value (rows.filter (fun r => p (rowKey r))) =
      sumOf weight (items.filter (fun a => p (key a))) := by
  have hrows : sumOf value (rows.filter (fun r => p (rowKey r))) =
      sumOf (fun k => sumOf weight (items.filter (fun a => decide (key a = k))))
        ((rows.map rowKey).filter p) := by
    rw [sumOf, sumOf, List.filter_map, List.map_map]
    exact congrArg List.sum (List.map_congr_left fun r hr => h.value r (List.mem_of_mem_filter hr))
  rw [hrows, sumOf_filter_keys items (h.nodup.filter p)]
  refine congrArg (sumOf weight) (List.filter_congr fun a ha => ?_)
  rw [Bool.eq_iff_iff, decide_eq_true_eq, List.mem_filter]
  exact and_iff_right (h.cover a ha)

/-- One row for each key, with the number of its items. -/
theorem groups_dedup {α κ ρ : Type*} [DecidableEq κ] (items : List α) (key : α → κ) {rowKey : ρ → κ}
    {value : ρ → Nat} {row : κ → ρ} (hrow : ∀ k ∈ (items.map key).dedup, rowKey (row k) = k ∧
      value (row k) = items.countP (fun a => key a = k)) :
    Groups items key (fun _ => 1) ((items.map key).dedup.map row) rowKey value := by
  have hkeys : ((items.map key).dedup.map row).map rowKey = (items.map key).dedup := by
    rw [List.map_map]
    exact (List.map_congr_left fun k hk => (hrow k hk).1).trans (List.map_id _)
  refine ⟨?_, fun r hr => ?_, fun a ha => ?_, fun r hr => ?_⟩
  · rw [hkeys]
    exact List.nodup_dedup _
  · obtain ⟨k, hk, rfl⟩ := List.mem_map.mp hr
    rw [(hrow k hk).1, (hrow k hk).2, sumOf_one, List.countP_eq_length_filter]
  · rw [hkeys, List.mem_dedup]
    exact List.mem_map_of_mem ha
  · rw [← List.mem_dedup, ← hkeys]
    exact List.mem_map_of_mem hr

/-- Updates the item with the key of `x`, or adds `x` with the update where there is none. -/
def upsert {α κ : Type*} [DecidableEq κ] (key : α → κ) (x : α) (update : α → α) : List α → List α
  | [] => [update x]
  | a :: rest => if key a = key x then update a :: rest else a :: upsert key x update rest

section Upsert

variable {α κ M : Type*} [DecidableEq κ] [AddCommMonoid M] {key : α → κ} {x : α} {update : α → α}
  {l : List α}

theorem mem_upsert {b : α} (h : b ∈ upsert key x update l) :
    b ∈ l ∨ b = update x ∨ ∃ a ∈ l, b = update a := by
  induction l with
  | nil => exact Or.inr (Or.inl (List.mem_singleton.mp h))
  | cons a rest ih =>
    rw [upsert] at h
    split_ifs at h
    · rcases List.mem_cons.mp h with rfl | h
      · exact Or.inr (Or.inr ⟨a, List.mem_cons_self, rfl⟩)
      · exact Or.inl (List.mem_cons_of_mem a h)
    · rcases List.mem_cons.mp h with rfl | h
      · exact Or.inl List.mem_cons_self
      · rcases ih h with h | h | ⟨c, hc, h⟩
        · exact Or.inl (List.mem_cons_of_mem a h)
        · exact Or.inr (Or.inl h)
        · exact Or.inr (Or.inr ⟨c, List.mem_cons_of_mem a hc, h⟩)

/-- What an update adds counts where the item passes a test, if items of one key agree on it. -/
theorem sumOf_upsert {weight : α → M} {p : α → Bool} {add : M} (hnew : weight (update x) = add)
    (hsame : ∀ a ∈ l, key a = key x → p a = p x)
    (hupdate : ∀ a, p (update a) = p a) (hadd : ∀ a ∈ l, weight (update a) = weight a + add) :
    sumOf weight ((upsert key x update l).filter p) = sumOf weight (l.filter p) + if p x then add
      else 0 := by
  induction l with
  | nil =>
    rw [upsert, List.filter_cons, hupdate]
    split_ifs <;> simp [hnew]
  | cons a rest ih =>
    obtain ⟨hsame, hsameRest⟩ := List.forall_mem_cons.mp hsame
    obtain ⟨hadd, haddRest⟩ := List.forall_mem_cons.mp hadd
    rw [upsert]
    by_cases hkey : key a = key x
    · rw [if_pos hkey, List.filter_cons, List.filter_cons, hupdate, hsame hkey]
      split_ifs
      · rw [sumOf_cons, sumOf_cons, hadd, add_right_comm]
      · rw [add_zero]
    · rw [if_neg hkey, List.filter_cons, List.filter_cons, apply_ite (sumOf weight),
        apply_ite (sumOf weight), sumOf_cons, sumOf_cons, ih hsameRest haddRest]
      split_ifs <;> simp [add_assoc]

/-- What updates add one after the other is added up, whichever items they meet. -/
theorem sumOf_foldl_upsert {β : Type*} {x : β → α} {update : β → α → α} {weight : α → M}
    {amount : β → M} (hnew : ∀ b, weight (update b (x b)) = amount b)
    (hadd : ∀ b a, weight (update b a) = weight a + amount b) (items : List β) (l : List α) :
    sumOf weight (items.foldl (fun l b => upsert key (x b) (update b) l) l) =
      sumOf weight l + sumOf amount items := by
  induction items generalizing l with
  | nil => rw [List.foldl_nil, sumOf_nil, add_zero]
  | cons b rest ih =>
    have hone := @sumOf_upsert _ _ _ _ _ key (x b) (update b) l weight (fun _ => true) (amount b)
      (hnew b)
      (fun _ _ _ => rfl) (fun _ => rfl) (fun a _ => hadd b a)
    rw [List.filter_true, List.filter_true, if_pos rfl] at hone
    rw [List.foldl_cons, ih, hone, sumOf_cons, add_assoc]

private theorem map_upsert (hkey : ∀ a, key (update a) = key a) :
    (upsert key x update l).map key = if key x ∈ l.map key then l.map key else l.map key ++
    [key x] := by
  induction l with
  | nil => rw [upsert, List.map_singleton, hkey, List.map_nil, if_neg List.not_mem_nil, List.nil_append]
  | cons a rest ih =>
    rw [upsert, List.map_cons]
    by_cases h : key a = key x
    · rw [if_pos h, List.map_cons, hkey, if_pos (h ▸ List.mem_cons_self)]
    · rw [if_neg h, List.map_cons, ih]
      simp only [List.mem_cons, Ne.symm h, false_or]
      split_ifs <;> rfl

theorem nodup_upsert (hkey : ∀ a, key (update a) = key a) (h : (l.map key).Nodup) :
    ((upsert key x update l).map key).Nodup := by
  rw [map_upsert hkey]
  split_ifs with hmem
  · exact h
  · exact List.nodup_append.mpr ⟨h, List.nodup_singleton _,
      fun a ha b hb hab => hmem (List.mem_singleton.mp hb ▸ hab ▸ ha)⟩

theorem nodup_foldl_upsert {β : Type*} {x : β → α} {update : β → α → α}
    (hkey : ∀ b a, key (update b a) = key a)
    (items : List β) (h : (l.map key).Nodup) :
    ((items.foldl (fun l b => upsert key (x b) (update b) l) l).map key).Nodup := by
  induction items generalizing l with
  | nil => exact h
  | cons b rest ih => exact ih (nodup_upsert (hkey b) h)

theorem filter_key_eq (h : (l.map key).Nodup) {a : α} (ha : a ∈ l) :
    l.filter (fun b => decide (key b = key a)) = [a] := by
  induction l with
  | nil => cases ha
  | cons b rest ih =>
    obtain ⟨hb, hrest⟩ := List.nodup_cons.mp h
    rcases List.mem_cons.mp ha with rfl | ha
    · have hnone : rest.filter (fun b => decide (key b = key a)) = [] :=
        List.filter_eq_nil_iff.mpr fun c hc hkey =>
          hb (of_decide_eq_true hkey ▸ List.mem_map_of_mem hc)
      rw [List.filter_cons, hnone, if_pos (decide_eq_true rfl)]
    · have hne : ¬ key b = key a := fun hkey => hb (hkey ▸ List.mem_map_of_mem ha)
      rw [List.filter_cons, ih hrest ha, if_neg (by rwa [decide_eq_true_eq])]

/-- One update leaves a property to the item it meets, to the others, and to a new item
where it meets none. -/
theorem forall_mem_upsert {P Q : α → Prop} (hnodup : (l.map key).Nodup) (hP : ∀ a ∈ l, P a)
    (hsame : ∀ a, key a = key x → P a → Q (update a)) (hother : ∀ a, key a ≠ key x → P a → Q a)
    (hnew : (∀ a ∈ l, key a ≠ key x) → Q (update x)) : ∀ a ∈ upsert key x update l, Q a := by
  induction l with
  | nil =>
    intro a ha
    rw [upsert, List.mem_singleton] at ha
    rw [ha]
    exact hnew (fun a ha => absurd ha List.not_mem_nil)
  | cons b rest ih =>
    obtain ⟨hb, hrest⟩ := List.nodup_cons.mp hnodup
    obtain ⟨hPb, hPrest⟩ := List.forall_mem_cons.mp hP
    intro a ha
    rw [upsert] at ha
    split_ifs at ha with heq
    · obtain rfl | ha := List.mem_cons.mp ha
      · exact hsame b heq hPb
      · apply hother a _ (hPrest a ha)
        intro hka
        exact hb (heq ▸ hka ▸ List.mem_map_of_mem ha)
    · obtain rfl | ha := List.mem_cons.mp ha
      · exact hother a heq hPb
      · exact ih hrest hPrest (fun h => hnew (List.forall_mem_cons.mpr ⟨heq, h⟩)) a ha

/-- What holds of a new item, is kept by updates and is kept by items of other keys holds
of every item in the end, and every key that was met has its item. -/
theorem foldl_upsert_rule {β : Type*} {x : β → α} {update : β → α → α} {P : List β → α → Prop}
    (hkey : ∀ b a, key (update b a) = key a)
    (hnew : ∀ seen b, (∀ c ∈ seen, key (x c) ≠ key (x b)) → P (seen ++ [b]) (update b (x b)))
    (hsame : ∀ seen b a, key a = key (x b) → P seen a → P (seen ++ [b]) (update b a))
    (hother : ∀ seen b a, key a ≠ key (x b) → P seen a → P (seen ++ [b]) a) (items : List β)
    {seen : List β}
    (hl : (l.map key).Nodup) (hP : ∀ a ∈ l, P seen a) (hcover : ∀ b ∈ seen, key (x b) ∈ l.map key) :
    ((items.foldl (fun l b => upsert key (x b) (update b) l) l).map key).Nodup ∧
      (∀ a ∈ items.foldl (fun l b => upsert key (x b) (update b) l) l, P (seen ++ items) a) ∧
      ∀ b ∈ seen ++ items, key
        (x b) ∈ (items.foldl (fun l b => upsert key (x b) (update b) l) l).map key := by
  induction items generalizing l seen with
  | nil =>
    rw [List.append_nil]
    exact ⟨hl, hP, hcover⟩
  | cons b rest ih =>
    have hkeys : ∀ k, k ∈ (upsert key (x b) (update b) l).map key ↔
        k ∈ l.map key ∨ k = key (x b) := by
      intro k
      rw [map_upsert (hkey b)]
      split_ifs with hmem
      · exact ⟨Or.inl, fun h => h.elim id (fun heq => heq ▸ hmem)⟩
      · rw [List.mem_append, List.mem_singleton]
    have hstep : ∀ a ∈ upsert key (x b) (update b) l, P (seen ++ [b]) a := by
      apply forall_mem_upsert hl hP (hsame seen b) (hother seen b)
      intro hfresh
      apply hnew
      intro c hc heq
      obtain ⟨a, ha, hka⟩ := List.mem_map.mp (hcover c hc)
      exact hfresh a ha (hka.trans heq)
    have hlist : seen ++ b :: rest = seen ++ [b] ++ rest := by
      rw [List.append_assoc, List.singleton_append]
    rw [hlist, List.foldl_cons]
    apply ih (nodup_upsert (hkey b) hl) hstep
    intro c hc
    rw [hkeys]
    obtain hc | hc := List.mem_append.mp hc
    · exact .inl (hcover c hc)
    · exact .inr (congrArg (fun c => key (x c)) (List.mem_singleton.mp hc))

end Upsert
