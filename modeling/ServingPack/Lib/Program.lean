import Mathlib.Data.List.Forall2

namespace concurrency

/-- A sequential program that asks its environment one request at a time. The
environment chooses each answer; `A` gives the answers a request can have. -/
inductive Program (Q : Type) (A : Q → Type) (α : Type) : Type where
  | pure (value : α)
  | call (request : Q) (next : A request → Program Q A α)

namespace Program

variable {Q : Type} {A : Q → Type} {α β γ : Type}

def bind (p : Program Q A α) (next : α → Program Q A β) : Program Q A β :=
  match p with
  | .pure value => next value
  | .call request rest => .call request (fun answer => (rest answer).bind next)

instance : Monad (Program Q A) where
  pure := .pure
  bind := bind

/-- The program that asks one request and returns its answer. -/
def ask (request : Q) : Program Q A (A request) := .call request .pure

@[simp] theorem pure_bind (value : α) (next : α → Program Q A β) :
    (Program.pure value : Program Q A α).bind next = next value := rfl

@[simp] theorem call_bind (request : Q) (rest : A request → Program Q A α)
    (next : α → Program Q A β) :
    (Program.call request rest).bind next = .call request (fun answer => (rest answer).bind next) :=
  rfl

@[simp] theorem monad_bind_eq (p : Program Q A α) (next : α → Program Q A β) :
    (p >>= next) = p.bind next := rfl

@[simp] theorem monad_pure_eq (value : α) : (Pure.pure value : Program Q A α) = .pure value := rfl

theorem bind_assoc (p : Program Q A α) (f : α → Program Q A β) (g : β → Program Q A γ) :
    (p.bind f).bind g = p.bind (fun value => (f value).bind g) := by
  induction p with
  | pure value => rfl
  | call request rest ih => simp only [call_bind, ih]

/-- The program run on its own against a handler that answers every request. -/
def eval {S : Type} (handler : S → (q : Q) → A q × S) : S → Program Q A α → α × S
  | s, .pure value => (value, s)
  | s, .call request rest => eval handler (handler s request).2 (rest (handler s request).1)

theorem eval_bind {S : Type} (handler : S → (q : Q) → A q × S) (s : S) (p : Program Q A α)
    (next : α → Program Q A β) :
    eval handler s (p.bind next) =
      eval handler (eval handler s p).2 (next (eval handler s p).1) := by
  induction p generalizing s with
  | pure value => rfl
  | call request rest ih => exact ih _ _

/-- Every request the program can ask, whatever the answers, is allowed. -/
def Uses (allowed : Q → Prop) : Program Q A α → Prop
  | .pure _ => True
  | .call request rest => allowed request ∧ ∀ answer, (rest answer).Uses allowed

/-- The program asking through another interface. -/
def embed {Q' : Type} {A' : Q' → Type} (f : Q → Q') (answer : ∀ q, A' (f q) → A q) :
    Program Q A α → Program Q' A' α
  | .pure value => .pure value
  | .call request rest => .call (f request) (fun a => (rest (answer request a)).embed f answer)

/-- What holds of every request the program can come to, with the rest of the program behind it. -/
def EachCall (P : (q : Q) → (A q → Program Q A α) → Prop) : Program Q A α → Prop
  | .pure _ => True
  | .call request rest => P request rest ∧ ∀ answer, (rest answer).EachCall P

/-- What the program has come to when these requests were answered so. -/
inductive Reaches : Program Q A α → List (Σ q : Q, A q) → Program Q A α → Prop where
  | refl (p : Program Q A α) : Reaches p [] p
  | call {request : Q} {rest : A request → Program Q A α} {answer : A request}
    {log : List (Σ q : Q, A q)}
      {p : Program Q A α} (h : Reaches (rest answer) log p) :
        Reaches (.call request rest) (⟨request, answer⟩ :: log) p

section Reaches

variable {p p' p'' : Program Q A α} {log : List (Σ q : Q, A q)}

theorem EachCall.reaches {P : (q : Q) → (A q → Program Q A α) → Prop} (h : p.EachCall P)
    (hreach : Reaches p log p') :
    p'.EachCall P := by
  induction hreach with
  | refl => exact h
  | call _ ih => exact ih (h.2 _)

theorem Reaches.bind (h : Reaches p log p') (next : α → Program Q A β) :
    Reaches (p.bind next) log (p'.bind next) := by
  induction h with
  | refl => exact .refl _
  | call _ ih => exact .call ih

theorem Reaches.step {request : Q} {rest : A request → Program Q A α}
    (h : Reaches p log (.call request rest))
    (answer : A request) : Reaches p (log ++ [⟨request, answer⟩]) (rest answer) := by
  generalize hcall : Program.call request rest = next at h
  induction h with
  | refl =>
    subst hcall
    exact .call (.refl _)
  | call _ ih => exact .call (ih hcall)

end Reaches

section Runs

variable {permits : (q : Q) → A q → Prop}

/-- A run to the end under the answers that are possible: what was asked and
answered in turn, and the result. -/
inductive Runs (permits : (q : Q) → A q → Prop) :
    Program Q A α → List (Σ q : Q, A q) → α → Prop where
  | pure (value : α) : Runs permits (.pure value) [] value
  | call {request : Q} {rest : A request → Program Q A α} {answer : A request}
    {log : List (Σ q : Q, A q)} {value : α}
      (hanswer : permits request answer) (hrest : Runs permits (rest answer) log value) :
      Runs permits (.call request rest) (⟨request, answer⟩ :: log) value

/-- A run of two programs in turn is a run of the one and then of the other. -/
theorem Runs.bind_inv {p : Program Q A α} {next : α → Program Q A β} {log : List (Σ q : Q, A q)}
    {value : β} (h : Runs permits (p.bind next) log value) : ∃ first second mid,
      Runs permits p first mid ∧ Runs permits (next mid) second value ∧ log = first ++ second := by
  induction p generalizing log with
  | pure mid => exact ⟨[], log, mid, .pure mid, h, rfl⟩
  | call request rest ih =>
    cases h with
    | call hanswer hrest =>
      obtain ⟨first, second, mid, hfirst, hsecond, rfl⟩ := ih _ hrest
      exact ⟨_, second, mid, .call hanswer hfirst, hsecond, rfl⟩

theorem Runs.call_inv {request : Q} {rest : A request → Program Q A α} {log : List (Σ q : Q, A q)}
    {value : α}
    (h : Runs permits (.call request rest) log value) : ∃ answer tail, permits request answer ∧
      Runs permits (rest answer) tail value ∧ log = ⟨request, answer⟩ :: tail := by
  cases h with
  | call hanswer hrest => exact ⟨_, _, hanswer, hrest, rfl⟩

theorem Runs.pure_inv {result value : α} {log : List (Σ q : Q, A q)}
    (h : Runs permits (.pure result) log value) : log = [] ∧ value = result := by
  cases h with
  | pure => exact ⟨rfl, rfl⟩

/-- A program for each member of a list in turn; what they return is joined. -/
def forEach {ε : Type} (each : β → Program Q A (List ε)) : List β → Program Q A (List ε)
  | [] => .pure []
  | x :: rest => (each x).bind
      (fun out => (forEach each rest).bind (fun outs => .pure (out ++ outs)))

/-- A run over a list is made of one run for each member. -/
theorem Runs.forEach_inv {ε : Type} {each : β → Program Q A (List ε)} {l : List β}
    {log : List (Σ q : Q, A q)} {out : List ε} (h : Runs permits (forEach each l) log out) :
    ∃ logs, List.Forall₂ (fun x part => ∃ out, Runs permits (each x) part out) l logs ∧
    log = logs.flatten := by
  induction l generalizing log out with
  | nil =>
    obtain ⟨rfl, _⟩ := h.pure_inv
    exact ⟨[], .nil, rfl⟩
  | cons x rest ih =>
    obtain ⟨first, second, mid, hfirst, hsecond, rfl⟩ := h.bind_inv
    obtain ⟨third, fourth, mid', hthird, hfourth, rfl⟩ := hsecond.bind_inv
    obtain ⟨rfl, _⟩ := hfourth.pure_inv
    obtain ⟨logs, hlogs, rfl⟩ := ih hthird
    exact ⟨first :: logs, .cons ⟨mid, hfirst⟩ hlogs, by rw [List.append_nil, List.flatten_cons]⟩

end Runs

section RunsOn

variable {S : Type} {exec : S → (q : Q) → A q → S → Prop} {s s' : S}

/-- A run to the end against a state that answers: what was asked and answered in
turn, the result, and the state it leaves. -/
inductive RunsOn (exec : S → (q : Q) → A q → S → Prop) :
    S → Program Q A α → List (Σ q : Q, A q) → α → S → Prop where
  | pure (s : S) (value : α) : RunsOn exec s (.pure value) [] value s
  | call {s s₁ s' : S} {request : Q} {rest : A request → Program Q A α} {answer : A request}
      {log : List (Σ q : Q, A q)} {value : α} (hexec : exec s request answer s₁)
      (hrest : RunsOn exec s₁ (rest answer) log value s') :
      RunsOn exec s (.call request rest) (⟨request, answer⟩ :: log) value s'

theorem RunsOn.pure_inv {result value : α} {log : List (Σ q : Q, A q)}
    (h : RunsOn exec s (.pure result) log value s') : log = [] ∧ value = result ∧ s' = s := by
  cases h with
  | pure => exact ⟨rfl, rfl, rfl⟩

theorem RunsOn.call_inv {request : Q} {rest : A request → Program Q A α} {log : List (Σ q : Q, A q)}
    {value : α} (h : RunsOn exec s (.call request rest) log value s') :
    ∃ answer s₁ tail, exec s request answer s₁ ∧
      RunsOn exec s₁ (rest answer) tail value s' ∧ log = ⟨request, answer⟩ :: tail := by
  cases h with
  | call hexec hrest => exact ⟨_, _, _, hexec, hrest, rfl⟩

theorem RunsOn.bind_inv {p : Program Q A α} {next : α → Program Q A β} {log : List (Σ q : Q, A q)}
    {value : β} (h : RunsOn exec s (p.bind next) log value s') : ∃ first second mid s₁,
      RunsOn exec s p first mid s₁ ∧ RunsOn exec s₁ (next mid) second value s' ∧
      log = first ++ second := by
  induction p generalizing s log with
  | pure mid => exact ⟨[], log, mid, s, .pure s mid, h, rfl⟩
  | call request rest ih =>
    obtain ⟨answer, s₁, tail, hexec, hrest, rfl⟩ := h.call_inv
    obtain ⟨first, second, mid, s₂, hfirst, hsecond, rfl⟩ := ih answer hrest
    exact ⟨_, second, mid, s₂, .call hexec hfirst, hsecond, rfl⟩

theorem RunsOn.bind {p : Program Q A α} {next : α → Program Q A β}
    {first second : List (Σ q : Q, A q)} {mid : α}
    {value : β} {s₁ : S} (hp : RunsOn exec s p first mid s₁)
    (hnext : RunsOn exec s₁ (next mid) second value s') :
    RunsOn exec s (p.bind next) (first ++ second) value s' := by
  induction hp with
  | pure => exact hnext
  | call hexec _ ih => exact .call hexec (ih hnext)

theorem RunsOn.mono {exec' : S → (q : Q) → A q → S → Prop} {p : Program Q A α}
    {log : List (Σ q : Q, A q)} {value : α}
    (h : RunsOn exec s p log value s') (himp : ∀ s q a s', exec s q a s' → exec' s q a s') :
    RunsOn exec' s p log value s' := by
  induction h with
  | pure s value => exact .pure s value
  | call hexec _ ih => exact .call (himp _ _ _ _ hexec) ih

theorem RunsOn.ask_inv {request : Q} {answer : A request} {log : List (Σ q : Q, A q)}
    (h : RunsOn exec s (ask request) log answer s') : exec s request answer s' := by
  obtain ⟨answer', s₁, tail, hexec, hrest, -⟩ := h.call_inv
  obtain ⟨-, rfl, rfl⟩ := hrest.pure_inv
  exact hexec

/-- What every request that a program can ask preserves, a run of it preserves. -/
theorem RunsOn.preserves {allowed : Q → Prop} {P : S → Prop} {p : Program Q A α}
    {log : List (Σ q : Q, A q)} {value : α}
    (h : RunsOn exec s p log value s') (huses : p.Uses allowed)
    (hstep : ∀ s q a s', allowed q → exec s q a s' → P s → P s') (hs : P s) : P s' := by
  induction h with
  | pure => exact hs
  | call hexec _ ih => exact ih (huses.2 _) (hstep _ _ _ _ huses.1 hexec hs)

/-- An evaluation is a run. -/
theorem runsOn_eval {handler : S → (q : Q) → A q × S}
    (hexec : ∀ s q, exec s q (handler s q).1 (handler s q).2) (s : S)
    (p : Program Q A α) : ∃ log, RunsOn exec s p log (eval handler s p).1 (eval handler s p).2 := by
  induction p generalizing s with
  | pure value => exact ⟨[], .pure s value⟩
  | call request rest ih =>
    obtain ⟨log, hrest⟩ := ih (handler s request).1 (handler s request).2
    exact ⟨_, .call (hexec s request) hrest⟩

/-- Where every request can be answered, a program can run to its end. -/
theorem exists_runsOn (hanswers : ∀ s q, ∃ a s', exec s q a s') (s : S) (p : Program Q A α) :
    ∃ log value s', RunsOn exec s p log value s' := by
  induction p generalizing s with
  | pure value => exact ⟨[], value, s, .pure s value⟩
  | call request rest ih =>
    obtain ⟨answer, s₁, hexec⟩ := hanswers s request
    obtain ⟨log, value, s', hrest⟩ := ih answer s₁
    exact ⟨_, value, s', .call hexec hrest⟩

/-- A run of the first of two programs goes on to one of both. -/
theorem RunsOn.exists_bind {p : Program Q A α} {log : List (Σ q : Q, A q)} {mid : α}
    (h : RunsOn exec s p log mid s') (hanswers : ∀ s q, ∃ a s', exec s q a s')
    (next : α → Program Q A β) :
    ∃ rest value last, RunsOn exec s (p.bind next) (log ++ rest) value last := by
  obtain ⟨rest, value, last, hrest⟩ := exists_runsOn hanswers s' (next mid)
  exact ⟨rest, value, last, h.bind hrest⟩

end RunsOn

variable {allowed : Q → Prop}

@[simp] theorem uses_pure (value : α) : (Program.pure value : Program Q A α).Uses allowed := trivial

@[simp] theorem uses_ask (request : Q) : (ask request : Program Q A _).Uses allowed ↔
    allowed request :=
  ⟨fun h => h.1, fun h => ⟨h, fun _ => trivial⟩⟩

theorem Uses.bind {p : Program Q A α} {next : α → Program Q A β} (hp : p.Uses allowed)
    (hnext : ∀ value, (next value).Uses allowed) : (p.bind next).Uses allowed := by
  induction p with
  | pure value => exact hnext value
  | call request rest ih => exact ⟨hp.1, fun answer => ih answer (hp.2 answer)⟩

end Program

/-- A program that ends with a value or with an error. -/
abbrev Fallible (Q : Type) (A : Q → Type) (E : Type) := ExceptT E (Program Q A)

namespace Fallible

variable {Q : Type} {A : Q → Type} {E α β : Type} {allowed : Q → Prop}

/-- The program's outcome as a value, errors included. -/
def attempt (x : Fallible Q A E α) : Fallible Q A E (Except E α) :=
  ExceptT.mk (x.run.bind (fun r => .pure (.ok r)))

/-- `fmt.Errorf` with `%w`: the same error, described further. -/
def mapError (f : E → E) (x : Fallible Q A E α) : Fallible Q A E α :=
  ExceptT.mk (x.run.bind
    (fun r => .pure (match r with | .ok value => .ok value | .error e => .error (f e))))

@[simp] theorem run_bind_eq (x : Fallible Q A E α) (f : α → Fallible Q A E β) :
    (x >>= f).run = x.run.bind
    (fun r => match r with | .ok value => (f value).run | .error e => .pure (.error e)) := rfl

@[simp] theorem run_pure_eq (value : α) :
    (Pure.pure value : Fallible Q A E α).run = .pure (.ok value) := rfl

@[simp] theorem run_throw (e : E) : (throw e : Fallible Q A E α).run = .pure (.error e) := rfl

@[simp] theorem run_attempt (x : Fallible Q A E α) :
    (attempt x).run = x.run.bind (fun r => .pure (.ok r)) := rfl

theorem uses_bind {x : Fallible Q A E α} {f : α → Fallible Q A E β} (hx : x.run.Uses allowed)
    (hf : ∀ value, (f value).run.Uses allowed) : (x >>= f).run.Uses allowed := by
  rw [run_bind_eq]
  refine hx.bind (fun r => ?_)
  cases r with
  | ok value => exact hf value
  | error e => trivial

theorem uses_attempt {x : Fallible Q A E α} (hx : x.run.Uses allowed) :
    (attempt x).run.Uses allowed :=
  Program.Uses.bind hx (fun _ => trivial)

theorem uses_mapError {f : E → E} {x : Fallible Q A E α} (hx : x.run.Uses allowed) :
    (mapError f x).run.Uses allowed :=
  Program.Uses.bind hx (fun _ => trivial)

section RunsOn

variable {S : Type} {exec : S → (q : Q) → A q → S → Prop} {s s' : S} {log : List (Σ q : Q, A q)}

/-- Two programs in turn that do not fail are the one and then the other. -/
theorem runsOn_bind_ok {x : Fallible Q A E α} {f : α → Fallible Q A E β} {value : β}
    (h : Program.RunsOn exec s (x >>= f).run log (.ok value) s') : ∃ first second mid s₁,
      Program.RunsOn exec s x.run first (.ok mid) s₁ ∧
      Program.RunsOn exec s₁ (f mid).run second (.ok value) s' := by
  rw [run_bind_eq] at h
  obtain ⟨first, second, res, s₁, hfirst, hsecond, -⟩ := h.bind_inv
  cases res with
  | ok mid => exact ⟨first, second, mid, s₁, hfirst, hsecond⟩
  | error e =>
    obtain ⟨-, herror, -⟩ := hsecond.pure_inv
    cases herror

theorem runsOn_attempt {x : Fallible Q A E α} {res : Except E α}
    (h : Program.RunsOn exec s (attempt x).run log (.ok res) s') :
    ∃ log, Program.RunsOn exec s x.run log res s' := by
  rw [run_attempt] at h
  obtain ⟨first, second, res', s₁, hfirst, hsecond, -⟩ := h.bind_inv
  obtain ⟨-, hres, rfl⟩ := hsecond.pure_inv
  obtain rfl := Except.ok.inj hres
  exact ⟨first, hfirst⟩

theorem runsOn_mapError_ok {f : E → E} {x : Fallible Q A E α} {value : α}
    (h : Program.RunsOn exec s (mapError f x).run log (.ok value) s') :
    ∃ log, Program.RunsOn exec s x.run log (.ok value) s' := by
  obtain ⟨first, second, res, s₁, hfirst, hsecond, -⟩ := Program.RunsOn.bind_inv h
  obtain ⟨-, hvalue, rfl⟩ := hsecond.pure_inv
  cases res with
  | ok mid =>
    obtain rfl := Except.ok.inj hvalue
    exact ⟨first, hfirst⟩
  | error e => cases hvalue

end RunsOn

end Fallible

end concurrency
