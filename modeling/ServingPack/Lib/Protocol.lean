import ServingPack.Lib.Machine

namespace concurrency

/-- The phases a thread passes through: which requests it can ask in each, and
the phase each answer leads to. -/
structure Protocol (Q : Type) (A : Q → Type) (P : Type) where
  allowed : P → Q → Prop
  next : P → (q : Q) → A q → P

namespace Protocol

variable {Q : Type} {A : Q → Type} {P α β : Type} {π : Protocol Q A P}

/-- Whatever the answers, the program asks only requests its phase allows and
ends in a phase that meets the postcondition. -/
def Follows (π : Protocol Q A P) : P → Program Q A α → (α → P → Prop) → Prop
  | φ, .pure value, post => post value φ
  | φ, .call q rest, post => π.allowed φ q ∧ ∀ a, π.Follows (π.next φ q a) (rest a) post

theorem Follows.bind {φ : P} {p : Program Q A α} {next : α → Program Q A β} {mid : α → P → Prop}
    {post : β → P → Prop} (hp : π.Follows φ p mid)
    (hnext : ∀ value φ', mid value φ' → π.Follows φ' (next value) post) :
    π.Follows φ (p.bind next) post := by
  induction p generalizing φ with
  | pure value => exact hnext value φ hp
  | call q rest ih => exact ⟨hp.1, fun a => ih a (hp.2 a)⟩

theorem Follows.mono {φ : P} {p : Program Q A α} {post post' : α → P → Prop}
    (hp : π.Follows φ p post)
    (himp : ∀ value φ', post value φ' → post' value φ') : π.Follows φ p post' := by
  induction p generalizing φ with
  | pure value => exact himp value φ hp
  | call q rest ih => exact ⟨hp.1, fun a => ih a (hp.2 a)⟩

section Fallible

variable {E : Type}

/-- The rest of a fallible program runs only after a success. -/
theorem Follows.run_bind {φ : P} {x : Fallible Q A E α} {next : α → Fallible Q A E β}
    (mid : Except E α → P → Prop) {post : Except E β → P → Prop} (hx : π.Follows φ x.run mid)
    (hok : ∀ value φ', mid (.ok value) φ' → π.Follows φ' (next value).run post)
    (herror : ∀ e φ', mid (.error e) φ' → post (.error e) φ') :
    π.Follows φ (x >>= next).run post := by
  rw [Fallible.run_bind_eq]
  refine hx.bind (fun r φ' hmid => ?_)
  cases r with
  | ok value => exact hok value φ' hmid
  | error e => exact herror e φ' hmid

end Fallible

section Logged

/-- What a program has asked and was answered, the last request first. -/
abbrev Log (Q : Type) (A : Q → Type) := List (Σ q : Q, A q)

/-- The protocol whose phases are what was asked and answered. -/
def logged (allowed : Log Q A → Q → Prop) : Protocol Q A (Log Q A) where
  allowed := allowed
  next log q a := ⟨q, a⟩ :: log

variable {allowed : Log Q A → Q → Prop} {log : Log Q A}

/-- What was asked stays asked. -/
theorem Follows.grows {p : Program Q A α} {post : α → Log Q A → Prop}
    (h : (logged allowed).Follows log p post) :
    (logged allowed).Follows log p (fun value log' => post value log' ∧ log <:+ log') := by
  induction p generalizing log with
  | pure value => exact ⟨h, List.suffix_refl log⟩
  | call q rest ih =>
    refine ⟨h.1, fun a => (ih a (h.2 a)).mono (fun value log' hmid => ⟨hmid.1, ?_⟩)⟩
    exact (List.suffix_cons _ _).trans hmid.2

/-- What a program asks is all that it adds to the log. -/
theorem Follows.uses {p : Program Q A α} {post : α → Log Q A → Prop} {P : Q → Prop}
    (h : (logged allowed).Follows log p post) (huses : p.Uses P) :
    (logged allowed).Follows log p
    (fun value log' => post value log' ∧ ∀ entry ∈ log', entry ∈ log ∨ P entry.1) := by
  induction p generalizing log with
  | pure value => exact ⟨h, fun entry hentry => .inl hentry⟩
  | call q rest ih =>
    refine ⟨h.1, fun a =>
      (ih a (h.2 a) (huses.2 a)).mono (fun value log' hmid => ⟨hmid.1, fun entry hentry => ?_⟩)⟩
    rcases hmid.2 entry hentry with hmem | hP
    · rcases List.mem_cons.mp hmem with rfl | hold
      · exact .inr huses.1
      · exact .inl hold
    · exact .inr hP

variable {E : Type} {x : Fallible Q A E α} {mid : Except E α → Log Q A → Prop}

/-- One step after the other, where later steps see what was asked before. -/
theorem Follows.andThen {next : α → Fallible Q A E β} {post : Except E β → Log Q A → Prop}
    (hx : (logged allowed).Follows log x.run mid)
    (hok : ∀ value log', log <:+ log' → mid (.ok value) log' →
      (logged allowed).Follows log' (next value).run post)
    (herror : ∀ e log', log <:+ log' → mid (.error e) log' → post (.error e) log') :
    (logged allowed).Follows log (x >>= next).run post :=
  Follows.run_bind _ hx.grows (fun value log' h => hok value log' h.2 h.1)
    (fun e log' h => herror e log' h.2 h.1)

/-- The rest runs after an error as well. -/
theorem Follows.attemptThen {next : Except E α → Fallible Q A E β}
    {post : Except E β → Log Q A → Prop} (hx : (logged allowed).Follows log x.run mid)
    (hnext : ∀ r log', log <:+ log' → mid r log' →
      (logged allowed).Follows log' (next r).run post) :
    (logged allowed).Follows log (Fallible.attempt x >>= next).run post := by
  rw [Fallible.run_bind_eq, Fallible.run_attempt, Program.bind_assoc]
  exact hx.grows.bind (fun r log' h => hnext r log' h.2 h.1)

/-- Describing an error further changes nothing else. -/
theorem Follows.mapError {f : E → E} {post : Except E α → Log Q A → Prop}
    (hx : (logged allowed).Follows log x.run mid)
    (hok : ∀ value log', mid (.ok value) log' → post (.ok value) log')
    (herror : ∀ e log', mid (.error e) log' → post (.error (f e)) log') :
    (logged allowed).Follows log (Fallible.mapError f x).run post := by
  refine hx.bind (fun r log' h => ?_)
  cases r with
  | ok value => exact hok value log' h
  | error e => exact herror e log' h

end Logged

section Adequacy

variable {S ρ ι : Type} [DecidableEq ι] {M : Machine S Q A ρ ι} {init : S → Prop} {idle : P}
  {post : ρ → P → Prop} {inv : S → (ι → P) → Prop}

/-- An invariant over the shared state and every thread's phase that the steps keep. -/
structure Keeps (π : Protocol Q A P) (M : Machine S Q A ρ ι) (init : S → Prop) (idle : P)
    (post : ρ → P → Prop) (inv : S → (ι → P) → Prop) : Prop where
  init : ∀ s, init s → inv s (fun _ => idle)
  start : ∀ i s φ p s', inv s φ → φ i = idle → M.start i s p s' →
    ∃ ψ, inv s' (Function.update φ i ψ) ∧ π.Follows ψ p post
  exec : ∀ i s φ q a s', inv s φ → π.allowed (φ i) q → M.exec i s q a s' →
    inv s' (Function.update φ i (π.next (φ i) q a))
  finish : ∀ i s φ r s', inv s φ → post r (φ i) → M.finish i s r s' →
    inv s' (Function.update φ i idle)
  env : ∀ s φ s', inv s φ → M.env s s' → inv s' φ

/-- A program may begin in the idle phase. -/
theorem starts_idle {i : ι} {s : S} {φ : ι → P} {p : Program Q A ρ} (hidle : φ i = idle)
    (hinv : inv s φ) (hfollows : π.Follows idle p post) :
    ∃ ψ, inv s (Function.update φ i ψ) ∧ π.Follows ψ p post := by
  refine ⟨idle, ?_, hfollows⟩
  rwa [← hidle, Function.update_eq_self]

/-- In a reachable configuration the invariant holds of some phases that the
threads are in; a thread without a program is idle. -/
theorem Keeps.reachable (h : π.Keeps M init idle post inv) {c : Config S Q A ρ ι}
    (hreach : M.Reachable init c) :
    ∃ φ : ι → P, inv c.state φ ∧ ∀ i, match c.threads i with
      | some p => π.Follows (φ i) p post
      | none => φ i = idle := by
  induction hreach with
  | init hinit => exact ⟨fun _ => idle, h.init _ hinit, fun _ => rfl⟩
  | @step c c' _ hstep ih =>
    obtain ⟨φ, hinv, hthreads⟩ := ih
    cases hstep with
    | @start i p s hidle hstart =>
      have hi := hthreads i
      rw [hidle] at hi
      obtain ⟨ψ, hinv', hfollows⟩ := h.start i _ φ p s hinv hi hstart
      refine ⟨_, hinv', fun j => ?_⟩
      by_cases hj : j = i
      · subst j
        simpa only [Function.update_self] using hfollows
      · simpa only [Function.update_of_ne hj] using hthreads j
    | @exec i q next a s hcall hexec =>
      have hi := hthreads i
      rw [hcall] at hi
      refine ⟨_, h.exec i _ φ q a s hinv hi.1 hexec, fun j => ?_⟩
      by_cases hj : j = i
      · subst j
        simpa only [Function.update_self] using hi.2 a
      · simpa only [Function.update_of_ne hj] using hthreads j
    | @finish i r s hpure hfinish =>
      have hi := hthreads i
      rw [hpure] at hi
      refine ⟨_, h.finish i _ φ r s hinv hi hfinish, fun j => ?_⟩
      by_cases hj : j = i
      · subst j
        simp only [Function.update_self]
      · simpa only [Function.update_of_ne hj] using hthreads j
    | env henv => exact ⟨φ, h.env _ φ _ hinv henv, hthreads⟩

end Adequacy

end Protocol

end concurrency
