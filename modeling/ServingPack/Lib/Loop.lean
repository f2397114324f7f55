import ServingPack.Lib.Protocol

namespace concurrency

open Protocol

/-- The shared state, and what the running program has asked so far. -/
structure LoopState (S Q : Type) (A : Q → Type) where
  state : S
  log : Log Q A

/-- One program, run to its end again and again, while the environment acts in between. -/
def loop {S Q : Type} {A : Q → Type} {ρ : Type} (program : Program Q A ρ)
    (exec : S → (q : Q) → A q → S → Prop)
    (env : S → S → Prop) : Machine (LoopState S Q A) Q A ρ Unit where
  start _ s p s' := p = program ∧ s' = s
  exec _ s q a s' := exec s.state q a s'.state ∧ s'.log = ⟨q, a⟩ :: s.log
  finish _ s _ s' := s' = { s with log := [] }
  env s s' := env s.state s'.state ∧ s'.log = s.log

section Loops

variable {S Q : Type} {A : Q → Type} {ρ : Type} {program : Program Q A ρ}
  {exec : S → (q : Q) → A q → S → Prop} {env : S → S → Prop}

/-- A machine that runs one program again and again, under conditions of its own. -/
structure Loops (M : Machine (LoopState S Q A) Q A ρ Unit) (program : Program Q A ρ) : Prop where
  start : ∀ i s p s', M.start i s p s' → p = program ∧ s' = s
  exec : ∀ i s q a s', M.exec i s q a s' → s'.log = ⟨q, a⟩ :: s.log
  finish : ∀ i s r s', M.finish i s r s' → s' = { s with log := [] }
  env : ∀ s s', M.env s s' → s'.log = s.log

theorem loop_loops : Loops (loop program exec env) program where
  start _ _ _ _ h := h
  exec _ _ _ _ _ h := h.2
  finish _ _ _ _ h := h
  env _ _ h := h.2

theorem Loops.restrict {M : Machine (LoopState S Q A) Q A ρ Unit} (h : Loops M program)
    (good : Unit → LoopState S Q A → (q : Q) → A q → LoopState S Q A → Prop)
    (goodEnv : LoopState S Q A → LoopState S Q A → Prop) :
    Loops (M.restrict good goodEnv) program where
  start := h.start
  exec i s q a s' hexec := h.exec i s q a s' hexec.1
  finish := h.finish
  env s s' henv := h.env s s' henv.1

variable {M : Machine (LoopState S Q A) Q A ρ Unit} {init : LoopState S Q A → Prop}
  {I : LoopState S Q A → Prop} {allowed : Log Q A → Q → Prop} {post : ρ → Log Q A → Prop}

/-- What a program that follows its log's rules keeps holds in every reachable
state, and the program still follows the rules there. -/
theorem Loops.reachable (h : Loops M program) (hfollows : (logged allowed).Follows [] program post)
    (hinit : ∀ s, init s → s.log = [] ∧ I s)
    (hexec : ∀ s q a s', I s → allowed s.log q → M.exec () s q a s' → I s')
    (hfinish : ∀ s : LoopState S Q A, I s → I { s with log := [] })
    (henv : ∀ s s', I s → M.env s s' → I s') {c : Config (LoopState S Q A) Q A ρ Unit}
    (hreach : M.Reachable init c) :
    I c.state ∧ ∀ p, c.threads () = some p → (logged allowed).Follows c.state.log p post := by
  have hkeeps : (logged allowed).Keeps M init [] post (fun s φ => φ () = s.log ∧ I s) := by
    refine ⟨fun s hs => ?_, fun i s φ p s' hinv hidle hstart => ?_,
      fun i s φ q a s' hinv hallowed hexec' => ?_,
      fun i s φ r s' hinv _ hfinish' => ?_, fun s φ s' hinv henv' => ?_⟩
    · exact ⟨(hinit s hs).1.symm, (hinit s hs).2⟩
    · obtain ⟨rfl, rfl⟩ := h.start i s p s' hstart
      refine ⟨[], ?_, hfollows⟩
      rw [← hidle, Function.update_eq_self]
      exact hinv
    · rw [hinv.1] at hallowed ⊢
      refine ⟨?_, hexec s q a s' hinv.2 hallowed hexec'⟩
      rw [Function.update_self, h.exec i s q a s' hexec']
      rfl
    · obtain rfl := h.finish i s r s' hfinish'
      exact ⟨Function.update_self .., hfinish s hinv.2⟩
    · exact ⟨hinv.1.trans (h.env s s' henv').symm, henv s s' hinv.2 henv'⟩
  obtain ⟨φ, ⟨hlog, hinv⟩, hthreads⟩ := hkeeps.reachable hreach
  refine ⟨hinv, fun p hp => ?_⟩
  have hthread := hthreads ()
  rwa [hp, hlog] at hthread

end Loops

end concurrency
