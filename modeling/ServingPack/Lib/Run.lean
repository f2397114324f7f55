import Mathlib.Data.List.Basic

namespace concurrency

/-- What a system reaches that takes one action after another, and what it has noted on
the way, the latest first. -/
inductive Run {S A E : Type} (step : S → A → Option (S × List E)) (start : S) : S → List E → Prop
  | start : Run step start start []
  | step {s s' : S} {a : A} {log noted : List E} (h : Run step start s log)
    (hstep : step s a = some (s', noted)) :
      Run step start s' (noted ++ log)

section Run

variable {S A E : Type} {step : S → A → Option (S × List E)} {start s : S} {log : List E}

/-- What holds at the start and is kept by every action holds of every run. -/
@[elab_as_elim]
theorem Run.invariant {inv : S → List E → Prop} (h : Run step start s log) (hstart : inv start [])
    (hstep : ∀ s log a s' noted, inv s log → step s a = some (s', noted) → inv s' (noted ++ log)) :
    inv s log := by
  induction h with
  | start => exact hstart
  | step _ h ih => exact hstep _ _ _ _ _ ih h

/-- Takes some actions in order. -/
def take (step : S → A → Option (S × List E)) : List A → S × List E → Option (S × List E)
  | [], at_ => some at_
  | a :: rest, (s, log) =>
    match step s a with
    | some (s', noted) => take step rest (s', noted ++ log)
    | none => none

/-- Actions that can be taken in order make a run. -/
theorem Run.take {actions : List A} {s' : S} {log' : List E} (h : Run step start s log)
    (htake : concurrency.take step actions (s, log) = some (s', log')) :
    Run step start s' log' := by
  induction actions generalizing s log with
  | nil =>
    obtain ⟨rfl, rfl⟩ := Prod.mk.inj (Option.some.inj htake)
    exact h
  | cons a rest ih =>
    rw [concurrency.take] at htake
    split at htake
    · next s₁ noted hstep => exact ih (h.step hstep) htake
    · cases htake

/-- The steps that meet a condition on the state before them. -/
def guarded (step : S → A → Option (S × List E)) (good : S → A → Bool) (s : S) (a : A) :
    Option (S × List E) :=
  if good s a then step s a else none

theorem guarded_inv {step : S → A → Option (S × List E)} {good : S → A → Bool} {a : A}
    {next : S × List E}
    (h : guarded step good s a = some next) : good s a = true ∧ step s a = some next := by
  rw [guarded] at h
  split_ifs at h with hgood
  exact ⟨hgood, h⟩

section AtEach

variable {P : E → List E → Prop} {noted : List E} {e : E}

/-- What holds of everything noted and of what was noted before it. -/
def AtEach (P : E → List E → Prop) (log : List E) : Prop :=
  ∀ later e earlier, log = later ++ e :: earlier → P e earlier

theorem atEach_nil : AtEach P [] := by
  intro later e earlier h
  cases later with
  | nil => cases h
  | cons => cases h

theorem atEach_cons : AtEach P (e :: log) ↔ P e log ∧ AtEach P log := by
  constructor
  · intro h
    exact ⟨h [] e log rfl,
      fun later e' earlier hlog => h (e :: later) e' earlier (by rw [hlog, List.cons_append])⟩
  · intro ⟨he, h⟩ later e' earlier hlog
    cases later with
    | nil =>
      obtain ⟨rfl, rfl⟩ := List.cons.inj hlog
      exact he
    | cons _ later =>
      obtain ⟨-, hlog⟩ := List.cons.inj hlog
      exact h later e' earlier hlog

theorem AtEach.append (h : AtEach P log) (hnoted : ∀ e ∈ noted, ∀ earlier, P e earlier) :
    AtEach P (noted ++ log) := by
  induction noted with
  | nil => exact h
  | cons e rest ih =>
    rw [List.cons_append, atEach_cons]
    exact ⟨hnoted e List.mem_cons_self _, ih (fun e' he' => hnoted e' (List.mem_cons_of_mem _ he'))⟩

end AtEach

end Run

end concurrency
