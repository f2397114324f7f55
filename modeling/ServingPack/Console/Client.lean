import Mathlib.Data.Rat.Defs
import ServingPack.Lib.GoMap
import ServingPack.Lib.Program

open golang concurrency

namespace openmeter

/-- A JSON value in an event's data, as far as the console reads it. -/
inductive Value where
  | text (s : GoString)
  | number (n : Int)
  | null
  deriving DecidableEq

/-- An ingested CloudEvent; times are in milliseconds since the epoch. -/
structure Event where
  id : GoString
  type : GoString
  subject : GoString
  time : Nat
  data : GoMap Value

/-- A query of the events: times in `[since, before)`, one type, and some IDs.
What is not set does not narrow. -/
structure EventQuery where
  since : Option Nat := none
  before : Option Nat := none
  typ : GoString := []
  ids : List GoString := []

def EventQuery.matches (q : EventQuery) (e : Event) : Bool :=
  q.since.all (· ≤ e.time) && q.before.all (e.time < ·) && (q.typ = [] || e.type = q.typ) &&
    (q.ids = [] || e.id ∈ q.ids)

/-- Why a request failed. -/
abbrev Failure := GoString

/-- The answers to a query page after page: what was served until its end, or
until a request failed. -/
structure Pages where
  pages : List (List Event)
  failure : Option Failure := none

/-- A size of windows in seconds. -/
inductive Window where
  | minute
  | hour
  | day
  deriving DecidableEq

/-- A row of a meter query. A field an event lacks is null, or left out. -/
structure MeterRow where
  groupBy : GoMap (Option GoString)
  value : Nat
  windowStart : Int

/-- A row of a cost query. Its cost is null where the tokens have no price. -/
structure CostRow where
  usage : Rat
  cost : Option Rat
  dimensions : GoMap (Option GoString)
  start : Int

structure UnitCost where
  type : GoString
  provider : GoString

structure Feature where
  id : GoString
  filters : GoMap (GoMap GoString)
  unitCost : Option UnitCost

/-- A price of a provider's model; times are in milliseconds since the epoch. -/
structure Price where
  provider : GoString
  model : GoString
  effectiveFrom : Int
  effectiveTo : Option Int
  pricing : GoMap GoString

/-- What the console asks of OpenMeter. The bounds of meter and cost queries are
whole seconds since the epoch. -/
inductive Request where
  | events (q : EventQuery)
  | meter (slug : GoString) (start stop : Int) (w : Option Window) (groupBy : List GoString)
  | cost (featureID : GoString) (start stop : Int) (w : Option Window)
  | features
  | overrides
  | prices (provider model : GoString)

abbrev Answer : Request → Type
  | .events _ => Pages
  | .meter _ _ _ _ _ => Except Failure (List MeterRow)
  | .cost _ _ _ _ => Except Failure (List CostRow)
  | .features => Except Failure (List Feature)
  | .overrides => Except Failure (List Price)
  | .prices _ _ => Except Failure (List Price)

abbrev Call := Fallible Request Answer Failure

/-- The fields every usage query groups by. -/
def dims : List GoString := ["team", "user", "api_key", "model", "model_resource"]

section Requests

def meterQuery (slug : GoString) (start stop : Int) (w : Option Window) (groupBy : List GoString) :
    Call (List MeterRow) :=
  ExceptT.mk (Program.ask (Request.meter slug (start / 1000) (stop / 1000) w groupBy))

def costQuery (featureID : GoString) (start stop : Int) (w : Option Window) : Call (List CostRow) :=
  ExceptT.mk (Program.ask (Request.cost featureID (start / 1000) (stop / 1000) w))

def features : Call (List Feature) := ExceptT.mk (Program.ask Request.features)

def overrides : Call (List Price) := ExceptT.mk (Program.ask Request.overrides)

def prices (provider model : GoString) : Call (List Price) :=
  ExceptT.mk (Program.ask (Request.prices provider model))

end Requests

section Each

variable {σ α : Type} (fn : σ → α → σ × Bool)

/-- Calls `fn` with one item after the other until it answers false. -/
def each : σ → List α → σ × Bool
  | s, [] => (s, true)
  | s, x :: rest => if (fn s x).2 then each (fn s x).1 rest else ((fn s x).1, false)

private theorem each_append (s : σ) (first second : List α) :
    each fn s (first ++ second) = if (each fn s first).2 then each fn (each fn s first).1 second
      else each fn s first := by
  induction first generalizing s with
  | nil => simp [each]
  | cons x rest ih =>
    by_cases hx : (fn s x).2 = true
    · simp [each, hx, ih]
    · simp [each, hx]

end Each

section EachEvent

variable {σ : Type} (fn : σ → Event → σ × Bool)

/-- Calls `fn` with every event of the pages until it answers false. An empty
page ends the reading. -/
def eachPage : σ → List (List Event) → Option Failure → Except Failure σ
  | s, [], none => .ok s
  | _, [], some e => .error e
  | s, page :: rest, failure =>
    if page = [] then .ok s
    else if (each fn s page).2 then eachPage (each fn s page).1 rest failure
    else .ok (each fn s page).1

/-- Calls `fn` with every event `q` matches, newest first, until it answers false. -/
def eachEvent (q : EventQuery) (s : σ) : Call σ :=
  ExceptT.mk ((Program.ask (.events q)).bind
    (fun (answer : Pages) => .pure (eachPage fn s answer.pages answer.failure)))

/-- An answer to a query that these events match: all of them, or the first of
them and then a failure. No page is empty. -/
structure Pages.Honest (found : List Event) (p : Pages) : Prop where
  served : p.pages.flatten <+: found
  whole : p.failure = none → p.pages.flatten = found
  nonempty : [] ∉ p.pages

/-- A reading that succeeds has read all events, or as many as it wanted. -/
theorem eachPage_honest {s s' : σ} {found : List Event} {pages : List (List Event)}
    {failure : Option Failure}
    (hserved : pages.flatten <+: found) (hwhole : failure = none → pages.flatten = found)
    (hnonempty : [] ∉ pages)
    (h : eachPage fn s pages failure = .ok s') : s' = (each fn s found).1 := by
  induction pages generalizing s found with
  | nil =>
    cases failure with
    | none =>
      rw [← hwhole rfl]
      exact (Except.ok.inj h).symm
    | some e => cases h
  | cons page rest ih =>
    rw [List.mem_cons, not_or] at hnonempty
    rw [List.flatten_cons] at hserved hwhole
    obtain ⟨tail, rfl⟩ := (List.prefix_append page rest.flatten).trans hserved
    rw [eachPage, if_neg (Ne.symm hnonempty.1)] at h
    rw [each_append]
    split_ifs at h with hgo
    · rw [if_pos hgo]
      refine ih ((List.prefix_append_right_inj page).mp hserved) (fun hnone => ?_) hnonempty.2 h
      exact List.append_cancel_left (hwhole hnone)
    · rw [if_neg hgo]
      exact (Except.ok.inj h).symm

/-- A walk that meets no failed page ends with what one pass over all the events leaves: the
page boundaries don't show. -/
theorem eachPage_whole (s : σ) {pages : List (List Event)} (hnonempty : [] ∉ pages) :
    eachPage fn s pages none = .ok (each fn s pages.flatten).1 := by
  induction pages generalizing s with
  | nil => rfl
  | cons page rest ih =>
    rw [List.mem_cons, not_or] at hnonempty
    rw [eachPage, if_neg (Ne.symm hnonempty.1), List.flatten_cons, each_append]
    split_ifs
    · exact ih _ hnonempty.2
    · rfl

end EachEvent

end openmeter
