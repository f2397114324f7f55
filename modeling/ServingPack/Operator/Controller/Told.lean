import ServingPack.Lib.Loop
import ServingPack.Operator.Controller.Apply

open golang apiserver concurrency kube v1alpha1 reconcilers

namespace controller

/-- What a reconcile has asked and was answered. -/
abbrev CallLog := Protocol.Log (Request Body) Answer

/-- A reconcile was given this answer. -/
def Told (log : CallLog) (q : Request Body) (a : Answer q) : Prop := ⟨q, a⟩ ∈ log

/-- A reconcile was given this answer the first time it asked. -/
def FirstTold (log : CallLog) (q : Request Body) (a : Answer q) : Prop :=
  ∃ earlier : CallLog, (⟨q, a⟩ :: earlier) <:+ log ∧ ∀ b : Answer q, ⟨q, b⟩ ∉ earlier

/-- A reconcile began by reading this object. -/
def Began {kind : Kind} (log : CallLog) (name : GoString) (object : Object (Body kind)) : Prop :=
  [⟨.get kind name, .ok object⟩] <:+ log

section Log

variable {log log' : CallLog}

/-- An answer stays in the log as it grows. -/
theorem Told.suffix {q : Request Body} {a : Answer q} (h : Told log q a) (hlog : log <:+ log') :
    Told log' q a :=
  hlog.subset h

private theorem Told.head {q : Request Body} (a : Answer q) : Told (⟨q, a⟩ :: log) q a :=
  List.mem_cons_self ..

/-- The first answer to a request stays the first. -/
theorem FirstTold.suffix {q : Request Body} {a : Answer q} (h : FirstTold log q a)
    (hlog : log <:+ log') :
    FirstTold log' q a := by
  obtain ⟨earlier, hsuffix, hfirst⟩ := h
  exact ⟨earlier, hsuffix.trans hlog, hfirst⟩

private theorem FirstTold.head {q : Request Body} (a : Answer q)
    (h : ∀ b : Answer q, ⟨q, b⟩ ∉ log) :
    FirstTold (⟨q, a⟩ :: log) q a := ⟨log, List.suffix_refl _, h⟩

/-- There is one first answer. -/
theorem FirstTold.unique {q : Request Body} {a b : Answer q} (ha : FirstTold log q a)
    (hb : FirstTold log q b) :
    a = b := by
  obtain ⟨earlier, hsuffix, hfirst⟩ := ha
  obtain ⟨earlier', hsuffix', hfirst'⟩ := hb
  rcases List.suffix_or_suffix_of_suffix hsuffix hsuffix' with h | h
  · rcases List.suffix_cons_iff.mp h with heq | hlater
    · exact eq_of_heq (Sigma.mk.inj (List.cons.inj heq).1).2
    · exact absurd (hlater.subset (List.mem_cons_self ..)) (hfirst' a)
  · rcases List.suffix_cons_iff.mp h with heq | hlater
    · exact (eq_of_heq (Sigma.mk.inj (List.cons.inj heq).1).2).symm
    · exact absurd (hlater.subset (List.mem_cons_self ..)) (hfirst b)

/-- A run began with what it read first, however far it has come. -/
theorem Began.suffix {kind : Kind} {name : GoString} {object : Object (Body kind)}
    (h : Began log name object) (hlog : log <:+ log') : Began log' name object := h.trans hlog

/-- What a run began with is an answer it was given. -/
theorem Began.told {kind : Kind} {name : GoString} {object : Object (Body kind)}
    (h : Began log name object) :
    Told log (.get kind name) (.ok object) := h.subset (List.mem_cons_self ..)

/-- A run began with one object. -/
theorem Began.unique {kind : Kind} {name : GoString} {object object' : Object (Body kind)}
    (h : Began log name object) (h' : Began log name object') : object = object' := by
  have heq := (List.suffix_of_suffix_length_le h h' (Nat.le_refl 1)).eq_of_length rfl
  cases heq
  rfl

end Log

section Outcomes

/-- The writes of a `createOrUpdate`. -/
inductive ApplyRequest (log : CallLog) (kind : Kind)
    (merge : Object (Body kind) → Object (Body kind))
    (desired : Named (Body kind)) : Request Body → Prop where
  | create : ApplyRequest log kind merge desired (.create kind desired.name desired.toObject)
  | update {existing : Object (Body kind)} (h : Told log (.get kind desired.name) (.ok existing)) :
      ApplyRequest log kind merge desired (.update kind desired.name (merge existing))

/-- A `createOrUpdate` that succeeded has created the object, or updated what it found. -/
def Applied (log : CallLog) (kind : Kind) (merge : Object (Body kind) → Object (Body kind))
    (desired : Named (Body kind)) :
    Prop :=
  (∃ stored, Told log (.create kind desired.name desired.toObject) (.ok stored)) ∨
    ∃ existing stored, Told log (.update kind desired.name (merge existing)) (.ok stored)

/-- What was applied was applied before, or by the last request. -/
theorem Applied.cons {log : CallLog} {q : Request Body} {a : Answer q} {kind : Kind}
    {merge : Object (Body kind) → Object (Body kind)} {desired : Named (Body kind)}
    (h : Applied (⟨q, a⟩ :: log) kind merge desired) :
    Applied log kind merge desired ∨
      (∃ stored, (⟨q, a⟩ : Σ q : Request Body, Answer q) =
        ⟨.create kind desired.name desired.toObject, .ok stored⟩) ∨
      ∃ existing stored, (⟨q, a⟩ : Σ q : Request Body, Answer q) =
        ⟨.update kind desired.name (merge existing), .ok stored⟩ := by
  rcases h with ⟨stored, h⟩ | ⟨existing, stored, h⟩
  · rcases List.mem_cons.mp h with heq | hold
    · exact .inr (.inl ⟨stored, heq.symm⟩)
    · exact .inl (.inl ⟨stored, hold⟩)
  · rcases List.mem_cons.mp h with heq | hold
    · exact .inr (.inr ⟨existing, stored, heq.symm⟩)
    · exact .inl (.inr ⟨existing, stored, hold⟩)

/-- What a `createOrUpdate` has been told when it ends. -/
def ApplyOutcome (kind : Kind) (merge : Object (Body kind) → Object (Body kind))
    (desired : Named (Body kind)) :
    Except StatusError Unit → CallLog → Prop
  | .ok _, log => Applied log kind merge desired
  | .error e, log => ∃ q : Request Body, q.kind = kind ∧ Told log q (.error e)

/-- What was applied stays applied as the log grows. -/
theorem Applied.suffix {log log' : CallLog} {kind : Kind}
    {merge : Object (Body kind) → Object (Body kind)}
    {desired : Named (Body kind)} (h : Applied log kind merge desired) (hlog : log <:+ log') :
    Applied log' kind merge desired := by
  rcases h with ⟨stored, h⟩ | ⟨existing, stored, h⟩
  · exact .inl ⟨stored, h.suffix hlog⟩
  · exact .inr ⟨existing, stored, h.suffix hlog⟩

/-- A deletion that has been told the object is gone. -/
def Deleted (log : CallLog) (kind : Kind) (name : GoString) (preconditions : Preconditions) :
    Prop :=
  Told log (.delete kind name preconditions) (.ok ()) ∨
    ∃ e : StatusError, e.reason = .notFound ∧ Told log (.delete kind name preconditions) (.error e)

end Outcomes

section Follows

open Protocol

variable {allowed : CallLog → Request Body → Prop} {log : CallLog}

/-- An answer is an answer of the log. -/
theorem follows_ask {q : Request Body} (h : allowed log q) :
    (logged allowed).Follows log (Program.ask q : Program (Request Body) Answer (Answer q))
      (fun a log' => Told log' q a) :=
  ⟨h, fun a => Told.head a⟩

/-- The answer to a request that the log doesn't have yet is the first. -/
theorem follows_askFirst {q : Request Body} (h : allowed log q)
    (hfirst : ∀ b : Answer q, ⟨q, b⟩ ∉ log) :
    (logged allowed).Follows log (Program.ask q : Program (Request Body) Answer (Answer q))
      (fun a log' => log' = ⟨q, a⟩ :: log ∧ FirstTold log' q a) :=
  ⟨h, fun a => ⟨rfl, FirstTold.head a hfirst⟩⟩

/-- A `createOrUpdate` asks about one kind only. -/
theorem uses_createOrUpdate (kind : Kind) (merge : Object (Body kind) → Object (Body kind))
    (desired : Named (Body kind)) :
    (createOrUpdate kind merge desired).run.Uses (fun q => q.kind = kind) := by
  refine ⟨rfl, fun found => ?_⟩
  cases found with
  | ok existing =>
    refine ⟨rfl, fun stored => ?_⟩
    cases stored with
    | ok value => trivial
    | error e => trivial
  | error e =>
    change (ExceptT.run (if e.reason = Reason.notFound then _ else throw e : Call Unit)).Uses _
    split_ifs
    · refine ⟨rfl, fun stored => ?_⟩
      cases stored with
      | ok value => trivial
      | error e => trivial
    · trivial

/-- An apply reads the object, writes once if it must, and says what came of it. -/
theorem follows_createOrUpdate {kind : Kind} {merge : Object (Body kind) → Object (Body kind)}
    {desired : Named (Body kind)} (hget : allowed log (.get kind desired.name))
    (hwrite : ∀ log' q, log <:+ log' → ApplyRequest log' kind merge desired q → allowed log' q) :
    (logged allowed).Follows log (createOrUpdate kind merge desired).run
    (ApplyOutcome kind merge desired) := by
  refine Follows.attemptThen (follows_ask hget) (fun r log' hlog htold => ?_)
  cases r with
  | ok existing =>
    refine Follows.andThen (follows_ask (hwrite log' _ hlog (.update htold)))
      (fun stored log'' _ hstored => ?_)
      (fun e log'' _ herror => ⟨_, rfl, herror⟩)
    exact .inr ⟨existing, stored, hstored⟩
  | error e =>
    change (logged allowed).Follows log'
      (ExceptT.run (if e.reason = .notFound then _ else throw e)) _
    split_ifs
    · refine Follows.andThen (follows_ask (hwrite log' _ hlog .create))
        (fun stored log'' _ hstored => ?_)
        (fun e log'' _ herror => ⟨_, rfl, herror⟩)
      exact .inl ⟨stored, hstored⟩
    · exact ⟨_, rfl, htold⟩

/-- A deletion that succeeds was answered with success or with "not found". -/
theorem follows_deleteFound {kind : Kind} {name : GoString} {preconditions : Preconditions}
    (h : allowed log (.delete kind name preconditions)) :
    (logged allowed).Follows log (deleteFound kind name preconditions).run
      (fun r log' => r = .ok () → Deleted log' kind name preconditions) := by
  refine Follows.attemptThen (follows_ask h) (fun r log' _ htold => ?_)
  cases r with
  | ok value => exact fun _ => .inl htold
  | error e =>
    change (logged allowed).Follows log'
      (ExceptT.run (if e.reason = .notFound then pure () else throw e)) _
    split_ifs with hreason
    · exact fun _ => .inr ⟨e, hreason, htold⟩
    · exact nofun

end Follows

end controller
