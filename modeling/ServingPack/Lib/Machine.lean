import Mathlib.Logic.Function.Basic
import ServingPack.Lib.Program

namespace concurrency

/-- Threads over one shared state. A thread runs one program at a time; requests
are atomic, and the environment acts between any two of them. -/
structure Machine (S Q : Type) (A : Q → Type) (ρ ι : Type) where
  /-- An idle thread begins a program. -/
  start : ι → S → Program Q A ρ → S → Prop
  /-- A thread's pending request is answered. -/
  exec : ι → S → (q : Q) → A q → S → Prop
  /-- A thread's program has ended. -/
  finish : ι → S → ρ → S → Prop
  /-- A step of anything that is not a thread. -/
  env : S → S → Prop

structure Config (S Q : Type) (A : Q → Type) (ρ ι : Type) where
  state : S
  threads : ι → Option (Program Q A ρ)

namespace Machine

variable {S Q : Type} {A : Q → Type} {ρ ι : Type} [DecidableEq ι]

inductive Step (M : Machine S Q A ρ ι) : Config S Q A ρ ι → Config S Q A ρ ι → Prop where
  | start {c : Config S Q A ρ ι} (i : ι) {p : Program Q A ρ} {s : S} (hidle : c.threads i = none)
      (hstart : M.start i c.state p s) : Step M c ⟨s, Function.update c.threads i (some p)⟩
  | exec {c : Config S Q A ρ ι} (i : ι) {q : Q} {next : A q → Program Q A ρ} {a : A q} {s : S}
      (hcall : c.threads i = some (.call q next)) (hexec : M.exec i c.state q a s) :
      Step M c ⟨s, Function.update c.threads i (some (next a))⟩
  | finish {c : Config S Q A ρ ι} (i : ι) {r : ρ} {s : S} (hpure : c.threads i = some (.pure r))
      (hfinish : M.finish i c.state r s) : Step M c ⟨s, Function.update c.threads i none⟩
  | env {c : Config S Q A ρ ι} {s : S} (henv : M.env c.state s) : Step M c ⟨s, c.threads⟩

/-- The configurations of the runs that begin in an initial state with no thread running. -/
inductive Reachable (M : Machine S Q A ρ ι) (init : S → Prop) : Config S Q A ρ ι → Prop where
  | init {s : S} (hinit : init s) : Reachable M init ⟨s, fun _ => none⟩
  | step {c c' : Config S Q A ρ ι} (hreach : Reachable M init c) (hstep : Step M c c') :
    Reachable M init c'

/-- The same machine without the requests and environment steps that fail a condition. -/
def restrict (M : Machine S Q A ρ ι) (good : ι → S → (q : Q) → A q → S → Prop)
    (goodEnv : S → S → Prop) :
    Machine S Q A ρ ι where
  start := M.start
  exec i s q a s' := M.exec i s q a s' ∧ good i s q a s'
  finish := M.finish
  env s s' := M.env s s' ∧ goodEnv s s'

section Scripts

/-- The steps of a scripted run; `O` says how a step is taken where the machine leaves it open. -/
inductive Move (ι O : Type) where
  | start (i : ι) (o : O)
  | answer (i : ι) (o : O)
  | finish (i : ι)
  | env (o : O)

def Move.thread {ι O : Type} : Move ι O → Option ι
  | .start i _ => some i
  | .answer i _ => some i
  | .finish i => some i
  | .env _ => none

/-- Chosen steps of a machine, computed. -/
structure Runner (S Q : Type) (A : Q → Type) (ρ ι O : Type) where
  start : O → ι → S → Option (Program Q A ρ × S)
  answer : O → ι → S → (q : Q) → Option (A q × S)
  finish : ι → S → ρ → Option S
  env : O → S → Option S

namespace Runner

variable {O : Type} (R : Runner S Q A ρ ι O)

/-- Every step the runner takes is one of the machine's. -/
structure Sound (M : Machine S Q A ρ ι) : Prop where
  start : ∀ o i s p s', R.start o i s = some (p, s') → M.start i s p s'
  answer : ∀ o i s q a s', R.answer o i s q = some (a, s') → M.exec i s q a s'
  finish : ∀ i s r s', R.finish i s r = some s' → M.finish i s r s'
  env : ∀ o s s', R.env o s = some s' → M.env s s'

def step (c : Config S Q A ρ ι) : Move ι O → Option (Config S Q A ρ ι)
  | .start i o =>
    match c.threads i with
    | none => (R.start o i c.state).map (fun r => ⟨r.2, Function.update c.threads i (some r.1)⟩)
    | some _ => none
  | .answer i o =>
    match c.threads i with
    | some (.call q next) =>
      (R.answer o i c.state q).map (fun r => ⟨r.2, Function.update c.threads i (some (next r.1))⟩)
    | _ => none
  | .finish i =>
    match c.threads i with
    | some (.pure r) => (R.finish i c.state r).map (fun s => ⟨s, Function.update c.threads i none⟩)
    | _ => none
  | .env o => (R.env o c.state).map (fun s => ⟨s, c.threads⟩)

def run : List (Move ι O) → Config S Q A ρ ι → Option (Config S Q A ρ ι)
  | [], c => some c
  | move :: rest, c => (R.step c move).bind (run rest)

variable {R} {M : Machine S Q A ρ ι} {c c' : Config S Q A ρ ι}

theorem Sound.step (h : R.Sound M) {move : Move ι O} (hstep : R.step c move = some c') :
    Step M c c' := by
  cases move with
  | start i o =>
    simp only [Runner.step] at hstep
    split at hstep
    · next hidle =>
      obtain ⟨⟨p, s⟩, hstart, rfl⟩ := Option.map_eq_some_iff.mp hstep
      exact .start i hidle (h.start o i _ p s hstart)
    · cases hstep
  | answer i o =>
    simp only [Runner.step] at hstep
    split at hstep
    · next q next hcall =>
      obtain ⟨⟨a, s⟩, hanswer, rfl⟩ := Option.map_eq_some_iff.mp hstep
      exact .exec i hcall (h.answer o i _ q a s hanswer)
    · cases hstep
  | finish i =>
    simp only [Runner.step] at hstep
    split at hstep
    · next r hpure =>
      obtain ⟨s, hfinish, rfl⟩ := Option.map_eq_some_iff.mp hstep
      exact .finish i hpure (h.finish i _ r s hfinish)
    · cases hstep
  | env o =>
    obtain ⟨s, henv, rfl⟩ := Option.map_eq_some_iff.mp hstep
    exact .env (h.env o _ s henv)

/-- A scripted run ends in a reachable configuration. -/
theorem Sound.reachable (h : R.Sound M) {init : S → Prop} {script : List (Move ι O)}
    (hreach : Reachable M init c) (hrun : R.run script c = some c') : Reachable M init c' := by
  induction script generalizing c with
  | nil =>
    obtain rfl := Option.some.inj hrun
    exact hreach
  | cons move rest ih =>
    obtain ⟨mid, hstep, hrest⟩ := Option.bind_eq_some_iff.mp hrun
    exact ih (.step hreach (h.step hstep)) hrest

private theorem step_other {move : Move ι O} {j : ι} (hstep : R.step c move = some c')
    (hj : move.thread ≠ some j) :
    c'.threads j = c.threads j := by
  cases move with
  | start i o =>
    have hne : j ≠ i := fun heq => hj (by rw [heq]; rfl)
    simp only [Runner.step] at hstep
    split at hstep
    · obtain ⟨_, _, rfl⟩ := Option.map_eq_some_iff.mp hstep
      exact Function.update_of_ne hne ..
    · cases hstep
  | answer i o =>
    have hne : j ≠ i := fun heq => hj (by rw [heq]; rfl)
    simp only [Runner.step] at hstep
    split at hstep
    · obtain ⟨_, _, rfl⟩ := Option.map_eq_some_iff.mp hstep
      exact Function.update_of_ne hne ..
    · cases hstep
  | finish i =>
    have hne : j ≠ i := fun heq => hj (by rw [heq]; rfl)
    simp only [Runner.step] at hstep
    split at hstep
    · obtain ⟨_, _, rfl⟩ := Option.map_eq_some_iff.mp hstep
      exact Function.update_of_ne hne ..
    · cases hstep
  | env o =>
    obtain ⟨_, _, rfl⟩ := Option.map_eq_some_iff.mp hstep
    rfl

/-- The runner that stops at a step outside a condition. -/
def guard (R : Runner S Q A ρ ι O) (good : ι → S → (q : Q) → A q → S → Prop)
    (goodEnv : S → S → Prop)
    [∀ i s q a s', Decidable (good i s q a s')] [∀ s s', Decidable (goodEnv s s')] :
    Runner S Q A ρ ι O where
  start := R.start
  answer o i s q := (R.answer o i s q).filter (fun r => good i s q r.1 r.2)
  finish := R.finish
  env o s := (R.env o s).filter (fun s' => goodEnv s s')

omit [DecidableEq ι] in
theorem Sound.guard (h : R.Sound M) (good : ι → S → (q : Q) → A q → S → Prop)
    (goodEnv : S → S → Prop)
    [∀ i s q a s', Decidable (good i s q a s')] [∀ s s', Decidable (goodEnv s s')] :
    (R.guard good goodEnv).Sound (M.restrict good goodEnv) where
  start := h.start
  answer o i s q a s' hanswer := by
    obtain ⟨hsome, hgood⟩ := Option.filter_eq_some_iff.mp hanswer
    exact ⟨h.answer o i s q a s' hsome, of_decide_eq_true hgood⟩
  finish := h.finish
  env o s s' henv := by
    obtain ⟨hsome, hgood⟩ := Option.filter_eq_some_iff.mp henv
    exact ⟨h.env o s s' hsome, of_decide_eq_true hgood⟩

/-- A scripted run leaves the threads it is not about as they were. -/
theorem run_other {script : List (Move ι O)} {j : ι} (hrun : R.run script c = some c')
    (hj : ∀ move ∈ script, move.thread ≠ some j) : c'.threads j = c.threads j := by
  induction script generalizing c with
  | nil =>
    obtain rfl := Option.some.inj hrun
    rfl
  | cons move rest ih =>
    obtain ⟨mid, hstep, hrest⟩ := Option.bind_eq_some_iff.mp hrun
    rw [ih hrest (fun m hm => hj m (List.mem_cons_of_mem move hm)),
      step_other hstep (hj move (List.mem_cons_self ..))]

end Runner

end Scripts

end Machine

end concurrency
