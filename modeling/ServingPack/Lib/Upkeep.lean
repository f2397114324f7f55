import Mathlib.Order.CompletePartialOrder
import Mathlib.Order.Disjoint
import Mathlib.Data.Set.Lattice
import ServingPack.Lib.Program

namespace concurrency

/-- A run whose requests another server answers alike. -/
theorem Program.RunsOn.mono_of_uses {S Q α : Type} {A : Q → Type}
    {exec exec' : S → (q : Q) → A q → S → Prop}
    {allowed : Q → Prop} {p : Program Q A α} {log : List (Σ q : Q, A q)} {value : α} {s s' : S}
    (h : Program.RunsOn exec s p log value s') (huses : p.Uses allowed)
    (himp : ∀ s q a s', allowed q → exec s q a s' → exec' s q a s') :
    Program.RunsOn exec' s p log value s' := by
  induction h with
  | pure s value => exact .pure s value
  | call hexec _ ih => exact .call (himp _ _ _ _ huses.1 hexec) (ih (huses.2 _))

/-- The outcome of a program that was attempted before, as the outcome of this one. -/
def Fallible.ofExcept {Q : Type} {A : Q → Type} {E : Type} : Except E Unit → Fallible Q A E Unit
  | .ok () => pure ()
  | .error e => throw e

end concurrency

namespace upkeep

open concurrency

/-- What programs that keep a state in order work to: the parts of it that are to be
in order, what holds around every program, and what one may change. -/
structure Plan (S ι : Type) where
  goal : ι → S → Prop
  inv : S → Prop
  may : S → S → Prop
  refl : ∀ s, may s s
  trans : ∀ {s s' s''}, may s s' → may s' s'' → may s s''

variable {S Q ι κ E : Type} {A : Q → Type} {exec : S → (q : Q) → A q → S → Prop} {plan : Plan S ι}

/-- What came of putting some parts in order: they are, unless there was an error, the
others are as much as before, and where nothing was to be done nothing is done. -/
structure Upkept (plan : Plan S ι) (parts : Set ι) (s : S) (res : Except E Unit) (s' : S) :
    Prop where
  inv : plan.inv s'
  may : plan.may s s'
  others : ∀ i, i ∉ parts → plan.goal i s → plan.goal i s'
  done : res = .ok () → ∀ i ∈ parts, plan.goal i s'
  idle : (∀ i ∈ parts, plan.goal i s) → s' = s

/-- Every run of a program puts the parts in order so. -/
def Maintains (exec : S → (q : Q) → A q → S → Prop) (plan : Plan S ι) (parts : Set ι)
    (x : Fallible Q A E Unit) : Prop :=
  ∀ s log res s', plan.inv s → Program.RunsOn exec s x.run log res s' → Upkept plan parts s res s'

/-- A program can always come to its end without an error. -/
def Feasible (exec : S → (q : Q) → A q → S → Prop) (plan : Plan S ι) (x : Fallible Q A E Unit) :
    Prop :=
  ∀ s, plan.inv s → ∃ log s', Program.RunsOn exec s x.run log (.ok ()) s'

section Upkept

variable {I J : Set ι} {s s₁ s' : S} {res res₁ res₂ : Except E Unit}

/-- Where a program changes nothing, only its success says something. -/
theorem upkept_same (hs : plan.inv s) (hdone : res = .ok () → ∀ i ∈ I, plan.goal i s) :
    Upkept plan I s res s :=
  ⟨hs, plan.refl s, fun _ _ h => h, hdone, fun _ => rfl⟩

/-- Two programs in turn, for parts that are apart, put the parts of both in order
where neither has failed. -/
theorem Upkept.seq (hx : Upkept plan I s res₁ s₁) (hy : Upkept plan J s₁ res₂ s')
    (hapart : Disjoint I J)
    (hres : res = .ok () → res₁ = .ok () ∧ res₂ = .ok ()) : Upkept plan (I ∪ J) s res s' where
  inv := hy.inv
  may := plan.trans hx.may hy.may
  others := by
    intro i hi hgoal
    rw [Set.mem_union, not_or] at hi
    exact hy.others i hi.2 (hx.others i hi.1 hgoal)
  done := by
    intro hok i hi
    obtain ⟨hok₁, hok₂⟩ := hres hok
    obtain hi | hi := hi
    · exact hy.others i (Set.disjoint_left.mp hapart hi) (hx.done hok₁ i hi)
    · exact hy.done hok₂ i hi
  idle := by
    intro hgoal
    obtain rfl := hx.idle (fun i hi => hgoal i (.inl hi))
    exact hy.idle (fun i hi => hgoal i (.inr hi))

/-- A program that has failed before the second began. -/
theorem Upkept.failed {e : E} (hx : Upkept plan I s (.error e) s') :
    Upkept plan (I ∪ J) s (Except.error e) s' where
  inv := hx.inv
  may := hx.may
  others := fun i hi => hx.others i (fun h => hi (.inl h))
  done := fun herror => by cases herror
  idle := fun hgoal => hx.idle (fun i hi => hgoal i (.inl hi))

end Upkept

section Rules

variable {I J : Set ι} {x y : Fallible Q A E Unit}

theorem maintains_pure : Maintains exec plan ∅ (pure () : Fallible Q A E Unit) := by
  intro s log res s' hs hrun
  obtain ⟨-, rfl, rfl⟩ := hrun.pure_inv
  exact upkept_same hs (fun _ i hi => absurd hi (Set.notMem_empty i))

theorem Maintains.seq (hx : Maintains exec plan I x) (hy : Maintains exec plan J y)
    (hapart : Disjoint I J) :
    Maintains exec plan (I ∪ J) (do x; y) := by
  intro s log res s' hs hrun
  rw [Fallible.run_bind_eq] at hrun
  obtain ⟨first, second, res₁, s₁, hfirst, hsecond, -⟩ := hrun.bind_inv
  have hkept := hx s first res₁ s₁ hs hfirst
  cases res₁ with
  | ok value => exact hkept.seq (hy s₁ second res s' hkept.inv hsecond) hapart (fun hok => ⟨rfl, hok⟩)
  | error e =>
    obtain ⟨-, rfl, rfl⟩ := hsecond.pure_inv
    exact hkept.failed

/-- The first program's error is held back until the second has come to its end. -/
theorem Maintains.deferred (hx : Maintains exec plan I x) (hy : Maintains exec plan J y)
    (hapart : Disjoint I J) :
    Maintains exec plan (I ∪ J) (do let r ← Fallible.attempt x; y; Fallible.ofExcept r) := by
  intro s log res s' hs hrun
  rw [Fallible.run_bind_eq] at hrun
  obtain ⟨first, second, attempted, s₁, hfirst, hsecond, -⟩ := hrun.bind_inv
  rw [Fallible.run_attempt] at hfirst
  obtain ⟨asked, ended, res₁, s₂, hasked, hended, -⟩ := hfirst.bind_inv
  obtain ⟨-, rfl, rfl⟩ := hended.pure_inv
  have hkept := hx s asked res₁ s₁ hs hasked
  simp only [Fallible.run_bind_eq] at hsecond
  obtain ⟨third, fourth, res₂, s₃, hthird, hfourth, -⟩ := hsecond.bind_inv
  have hkept' := hy s₁ third res₂ s₃ hkept.inv hthird
  cases res₂ with
  | ok value =>
    cases res₁ with
    | ok value =>
      obtain ⟨-, rfl, rfl⟩ := Program.RunsOn.pure_inv hfourth
      exact hkept.seq hkept' hapart (fun _ => ⟨rfl, rfl⟩)
    | error e =>
      obtain ⟨-, rfl, rfl⟩ := Program.RunsOn.pure_inv hfourth
      exact hkept.seq hkept' hapart (fun herror => by cases herror)
  | error e =>
    obtain ⟨-, rfl, rfl⟩ := hfourth.pure_inv
    exact hkept.seq hkept' hapart (fun herror => by cases herror)

theorem Maintains.mapError {f : E → E} (hx : Maintains exec plan I x) :
    Maintains exec plan I (Fallible.mapError f x) := by
  intro s log res s' hs hrun
  obtain ⟨first, second, res₁, s₁, hfirst, hsecond, -⟩ := Program.RunsOn.bind_inv hrun
  obtain ⟨-, rfl, rfl⟩ := hsecond.pure_inv
  have hkept := hx s first res₁ s' hs hfirst
  cases res₁ with
  | ok value => exact hkept
  | error e => exact ⟨hkept.inv, hkept.may, hkept.others, fun herror => (by cases herror), hkept.idle⟩

theorem feasible_pure : Feasible exec plan (pure () : Fallible Q A E Unit) :=
  fun s _ => ⟨[], s, .pure s _⟩

theorem Feasible.seq (hx : Feasible exec plan x) (hkeeps : Maintains exec plan I x)
    (hy : Feasible exec plan y) :
    Feasible exec plan (do x; y) := by
  intro s hs
  obtain ⟨first, s₁, hfirst⟩ := hx s hs
  obtain ⟨second, s', hsecond⟩ := hy s₁ (hkeeps s first _ s₁ hs hfirst).inv
  exact ⟨first ++ second, s', hfirst.bind hsecond⟩

theorem Feasible.deferred (hx : Feasible exec plan x) (hkeeps : Maintains exec plan I x)
    (hy : Feasible exec plan y) :
    Feasible exec plan (do let r ← Fallible.attempt x; y; Fallible.ofExcept r) := by
  intro s hs
  obtain ⟨first, s₁, hfirst⟩ := hx s hs
  obtain ⟨second, s', hsecond⟩ := hy s₁ (hkeeps s first _ s₁ hs hfirst).inv
  have hattempt : Program.RunsOn exec s (Fallible.attempt x).run (first ++ []) (.ok (.ok ())) s₁ :=
    hfirst.bind (.pure s₁ _)
  have hlast : Program.RunsOn exec s₁ (do y; Fallible.ofExcept (Except.ok ())).run (second ++ [])
      (.ok ()) s' :=
    hsecond.bind (.pure s' _)
  exact ⟨_, s', hattempt.bind hlast⟩

theorem Feasible.mapError {f : E → E} (hx : Feasible exec plan x) :
    Feasible exec plan (Fallible.mapError f x) := by
  intro s hs
  obtain ⟨first, s', hfirst⟩ := hx s hs
  exact ⟨first ++ [], s', hfirst.bind (.pure s' _)⟩

end Rules

/-- Rounds of programs, one at a time, each with what it came to. -/
inductive Rounds (exec : S → (q : Q) → A q → S → Prop) (x : κ → Fallible Q A E Unit) :
    S → List (κ × Except E Unit) → S → Prop where
  | nil (s : S) : Rounds exec x s [] s
  | cons {s s₁ s' : S} {k : κ} {log : List (Σ q : Q, A q)} {res : Except E Unit}
    {rounds : List (κ × Except E Unit)}
      (hrun : Program.RunsOn exec s (x k).run log res s₁) (hrest : Rounds exec x s₁ rounds s') :
      Rounds exec x s ((k, res) :: rounds) s'

section Rounds

variable {x : κ → Fallible Q A E Unit} {parts : κ → Set ι} {s s' : S}
  {rounds : List (κ × Except E Unit)}

theorem Rounds.kept (h : Rounds exec x s rounds s') (hx : ∀ k, Maintains exec plan (parts k) (x k))
    (hs : plan.inv s) :
    plan.inv s' ∧ plan.may s s' := by
  induction h with
  | nil => exact ⟨hs, plan.refl _⟩
  | cons hrun _ ih =>
    have hkept := hx _ _ _ _ _ hs hrun
    obtain ⟨hinv, hmay⟩ := ih hkept.inv
    exact ⟨hinv, plan.trans hkept.may hmay⟩

/-- Where everything is in order no round changes anything. -/
theorem Rounds.idle (h : Rounds exec x s rounds s') (hx : ∀ k, Maintains exec plan (parts k) (x k))
    (hs : plan.inv s) (hgoal : ∀ k, ∀ i ∈ parts k, plan.goal i s) : s' = s := by
  induction h with
  | nil => rfl
  | cons hrun _ ih =>
    have hkept := hx _ _ _ _ _ hs hrun
    obtain rfl := hkept.idle (hgoal _)
    exact ih hs hgoal

/-- After one round that sees to every part and succeeds, everything is in order, and
no later round changes anything. -/
theorem Rounds.settled {k : κ} (h : Rounds exec x s rounds s')
    (hx : ∀ k, Maintains exec plan (parts k) (x k))
    (hs : plan.inv s) (hall : ∀ k', parts k' ⊆ parts k) (hok : (k, Except.ok ()) ∈ rounds) :
    (∀ i ∈ parts k, plan.goal i s') ∧ ∀ later s'', Rounds exec x s' later s'' → s'' = s' := by
  induction h with
  | nil => cases hok
  | cons hrun hrest ih =>
    have hkept := hx _ _ _ _ _ hs hrun
    obtain heq | hok := List.mem_cons.mp hok
    · obtain ⟨rfl, hres⟩ := Prod.mk.inj heq
      have hgoal := hkept.done hres.symm
      obtain rfl := hrest.idle hx hkept.inv (fun k' i hi => hgoal i (hall k' hi))
      exact ⟨hgoal, fun later s'' hlater =>
        hlater.idle hx hkept.inv (fun k' i hi => hgoal i (hall k' hi))⟩
    · exact ih hkept.inv hok

end Rounds

end upkeep
