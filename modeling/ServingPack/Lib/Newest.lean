import Mathlib.Data.List.Basic
import Mathlib.Data.List.Nodup

/-- Lists that show the newest items first, by the time of each item. -/
def Newest {α : Type*} (time : α → Nat) (l : List α) : Prop :=
  l.Pairwise (fun a b => time b ≤ time a)

/-- How many items are not older than a time. -/
def notOlder {α : Type*} (time : α → Nat) (l : List α) (t : Nat) : Nat :=
  l.countP (fun a => decide (t ≤ time a))

namespace Newest

section Prefix

variable {α : Type*} {p : α → Bool} {l : List α}

private theorem countP_eq_zero_of_not {a : α} (h : ∀ b ∈ l, p b = true → p a = true)
    (ha : ¬ p a = true) : l.countP p = 0 :=
  List.countP_eq_zero.mpr fun b hb hpb => ha (h b hb hpb)

/-- Where what passes a test comes first, it is a prefix. -/
theorem filter_eq_take (h : l.Pairwise (fun a b => p b = true → p a = true)) :
    l.filter p = l.take (l.countP p) := by
  induction l with
  | nil => rfl
  | cons a rest ih =>
    obtain ⟨hhead, htail⟩ := List.pairwise_cons.mp h
    by_cases ha : p a = true
    · rw [List.filter_cons_of_pos ha, List.countP_cons_of_pos ha, List.take_succ_cons, ih htail]
    · rw [List.filter_cons_of_neg ha, List.countP_cons_of_neg ha, ih htail,
        countP_eq_zero_of_not hhead ha, List.take_zero, List.take_zero]

private theorem filter_not_eq_drop (h : l.Pairwise (fun a b => p b = true → p a = true)) :
    l.filter (fun a => !p a) = l.drop (l.countP p) := by
  induction l with
  | nil => rfl
  | cons a rest ih =>
    obtain ⟨hhead, htail⟩ := List.pairwise_cons.mp h
    by_cases ha : p a = true
    · rw [List.filter_cons_of_neg (by rw [ha]; exact Bool.false_ne_true),
        List.countP_cons_of_pos ha, List.drop_succ_cons, ih htail]
    · rw [List.filter_cons_of_pos (by rwa [Bool.not_eq_true', ← Bool.not_eq_true]),
        List.countP_cons_of_neg ha, ih htail, countP_eq_zero_of_not hhead ha, List.drop_zero,
        List.drop_zero]

end Prefix

variable {α : Type*} {time : α → Nat} {l : List α} {t t' : Nat}

theorem filter (h : Newest time l) (p : α → Bool) : Newest time (l.filter p) :=
  List.Pairwise.filter p h

/-- The last item is the oldest. -/
theorem getLast_le (h : Newest time l) {last a : α} (hlast : l.getLast? = some last) (ha : a ∈ l) :
    time last ≤ time a := by
  obtain ⟨front, rfl⟩ := List.getLast?_eq_some_iff.mp hlast
  rcases List.mem_append.mp ha with hearlier | hthis
  · exact (List.pairwise_append.mp h).2.2 a hearlier last List.mem_cons_self
  · exact Nat.le_of_eq (congrArg time (List.mem_singleton.mp hthis).symm)

theorem exists_newest (h : Newest time l) : ∃ t, ∀ a ∈ l, time a ≤ t := by
  cases l with
  | nil => exact ⟨0, fun a ha => absurd ha List.not_mem_nil⟩
  | cons a rest => exact ⟨time a, List.forall_mem_cons.mpr ⟨Nat.le_refl _, (List.pairwise_cons.mp h).1⟩⟩

theorem notOlder_anti (hle : t ≤ t') : notOlder time l t' ≤ notOlder time l t :=
  List.countP_mono_left fun _ _ h => decide_eq_true (Nat.le_trans hle (of_decide_eq_true h))

theorem notOlder_le_length : notOlder time l t ≤ l.length := List.countP_le_length

theorem notOlder_zero : notOlder time l 0 = l.length :=
  List.countP_eq_length.mpr fun _ _ => decide_eq_true (Nat.zero_le _)

/-- The items of a time are those not older than it, without those that are newer. -/
theorem notOlder_eq_add :
    notOlder time l t = notOlder time l (t + 1) + l.countP (fun a => decide (time a = t)) := by
  induction l with
  | nil => rfl
  | cons a rest ih =>
    simp only [notOlder] at ih
    simp only [notOlder, List.countP_cons, decide_eq_true_eq, ih]
    split_ifs <;> omega

/-- The items that are not older than a time come first. -/
theorem filter_notOlder (h : Newest time l) :
    l.filter (fun a => decide (t ≤ time a)) = l.take (notOlder time l t) := by
  refine filter_eq_take (h.imp fun hle ht => decide_eq_true ?_)
  exact Nat.le_trans (of_decide_eq_true ht) hle

theorem filter_older (h : Newest time l) :
    l.filter (fun a => decide (time a < t)) = l.drop (notOlder time l t) := by
  have hnot : (fun a => decide (time a < t)) = fun a => !decide (t ≤ time a) := by
    funext a
    rw [← decide_not, decide_eq_decide, Nat.not_le]
  rw [hnot]
  refine filter_not_eq_drop (h.imp fun hle ht => decide_eq_true ?_)
  exact Nat.le_trans (of_decide_eq_true ht) hle

theorem le_time_iff (h : Newest time l) {k : Nat} {a : α} (ha : l[k]? = some a) :
    t ≤ time a ↔ k < notOlder time l t := by
  obtain ⟨hk, rfl⟩ := List.getElem?_eq_some_iff.mp ha
  constructor
  · intro hle
    by_contra hge
    have hmem : l[k] ∈ l.drop (notOlder time l t) :=
      List.mem_drop_iff_getElem.mpr ⟨k - notOlder time l t, by omega, by
      congr 1
      omega⟩
    rw [← filter_older h, List.mem_filter, decide_eq_true_eq] at hmem
    omega
  · intro hlt
    have hmem : l[k] ∈ l.take (notOlder time l t) :=
      List.mem_take_iff_getElem.mpr ⟨k, by omega, rfl⟩
    rw [← filter_notOlder h, List.mem_filter] at hmem
    exact of_decide_eq_true hmem.2

end Newest
