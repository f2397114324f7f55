import Mathlib.Data.List.Nodup
import Mathlib.Logic.Function.Basic
import Mathlib.Order.Nat

namespace concurrency

/-- The call in flight: how far its function has come, and the channels that wait for
its result. -/
structure Flight (φ : Type) where
  stage : φ
  chans : List Nat

/-- `singleflight.Group` for one key. Channels are numbered as `DoChan` makes them. -/
structure Group (φ ρ : Type) where
  flight : Option (Flight φ) := none
  made : Nat := 0
  /-- What each channel was sent. -/
  sent : Nat → Option ρ := fun _ => none

namespace Group

variable {φ ρ : Type} (g : Group φ ρ)

/-- `DoChan`: the call in flight gets one channel more, or a call begins where there is none. -/
def doChan (begun : φ) : Group φ ρ :=
  { g with
    flight := some (match g.flight with
      | none => ⟨begun, [g.made]⟩
      | some c => { c with chans := c.chans ++ [g.made] })
    made := g.made + 1 }

/-- The function in flight moves on. -/
def advance (f : φ → φ) : Group φ ρ :=
  { g with flight := g.flight.map (fun c => { c with stage := f c.stage }) }

/-- The end of `doCall`: every channel of the call in flight is sent the result, and
the call is forgotten. -/
def doCall (r : ρ) : Group φ ρ :=
  match g.flight with
  | none => g
  | some c => { g with flight := none, sent := fun ch => if ch ∈ c.chans then some r else g.sent ch }

/-- The channels that wait were made and were sent nothing; the others that were made
were sent something. -/
structure Consistent : Prop where
  waits : ∀ c, g.flight = some c → ∀ ch ∈ c.chans, ch < g.made ∧ g.sent ch = none
  unmade : ∀ ch, g.made ≤ ch → g.sent ch = none
  served : ∀ ch < g.made, g.sent ch = none → ∃ c, g.flight = some c ∧ ch ∈ c.chans

variable {g} {f : φ → φ} {begun : φ} {r : ρ} {c : Flight φ} {ch : Nat}

theorem empty_consistent : ({} : Group φ ρ).Consistent where
  waits c h := by cases h
  unmade _ _ := rfl
  served ch h := absurd h (Nat.not_lt_zero ch)

private theorem doChan_flight (g : Group φ ρ) (begun : φ) :
    ∃ c, (g.doChan begun).flight = some c ∧ g.made ∈ c.chans := by
  cases hflight : g.flight with
  | none =>
    refine ⟨⟨begun, [g.made]⟩, ?_, List.mem_singleton_self _⟩
    simp only [doChan, hflight]
  | some c =>
    refine ⟨{ c with chans := c.chans ++ [g.made] }, ?_,
      List.mem_append_right _ (List.mem_singleton_self _)⟩
    simp only [doChan, hflight]

/-- After `DoChan` the call in flight is the one that was, or one that begins. -/
theorem doChan_cases (h : (g.doChan begun).flight = some c) :
    (g.flight = none ∧ c = ⟨begun, [g.made]⟩) ∨
      ∃ c', g.flight = some c' ∧ c.stage = c'.stage ∧ ∀ ch, ch ∈ c.chans ↔
      ch ∈ c'.chans ∨ ch = g.made := by
  cases hflight : g.flight with
  | none =>
    simp only [doChan, hflight, Option.some.injEq] at h
    exact .inl ⟨rfl, h.symm⟩
  | some c' =>
    simp only [doChan, hflight, Option.some.injEq] at h
    subst h
    exact .inr ⟨c', rfl, rfl, fun ch => by rw [List.mem_append, List.mem_singleton]⟩

theorem Consistent.doChan (h : g.Consistent) (begun : φ) : (g.doChan begun).Consistent where
  waits c hc ch hch := by
    have hmade : (g.doChan begun).made = g.made + 1 := rfl
    have hsent : (g.doChan begun).sent = g.sent := rfl
    rw [hmade, hsent]
    obtain ⟨-, rfl⟩ | ⟨c', hc', -, hchans⟩ := doChan_cases hc
    · obtain rfl := List.mem_singleton.mp hch
      exact ⟨Nat.lt_succ_self _, h.unmade _ le_rfl⟩
    · obtain hold | rfl := (hchans ch).mp hch
      · obtain ⟨hlt, hnone⟩ := h.waits c' hc' ch hold
        exact ⟨Nat.lt_succ_of_lt hlt, hnone⟩
      · exact ⟨Nat.lt_succ_self _, h.unmade _ le_rfl⟩
  unmade ch hch := h.unmade ch (Nat.le_of_succ_le hch)
  served ch hlt hnone := by
    obtain ⟨c, hc, hmem⟩ := doChan_flight g begun
    refine ⟨c, hc, ?_⟩
    obtain hold | rfl := Nat.lt_succ_iff_lt_or_eq.mp hlt
    · obtain ⟨c', hc', hch⟩ := h.served ch hold hnone
      obtain ⟨hflight, -⟩ | ⟨c'', hc'', -, hchans⟩ := doChan_cases hc
      · cases hc'.symm.trans hflight
      · obtain rfl := Option.some.inj (hc'.symm.trans hc'')
        exact (hchans ch).mpr (.inl hch)
    · exact hmem

theorem advance_cases (h : (g.advance f).flight = some c) :
    ∃ c', g.flight = some c' ∧ c = { c' with stage := f c'.stage } := by
  obtain ⟨c', hc', hc⟩ := Option.map_eq_some_iff.mp h
  exact ⟨c', hc', hc.symm⟩

theorem Consistent.advance (h : g.Consistent) (f : φ → φ) : (g.advance f).Consistent where
  waits c hc ch hch := by
    obtain ⟨c', hc', rfl⟩ := advance_cases hc
    exact h.waits c' hc' ch hch
  unmade := h.unmade
  served ch hlt hnone := by
    obtain ⟨c, hc, hch⟩ := h.served ch hlt hnone
    exact ⟨{ c with stage := f c.stage }, Option.map_eq_some_iff.mpr ⟨c, hc, rfl⟩, hch⟩

theorem doCall_flight (h : g.flight = some c) : (g.doCall r).flight = none :=
  by simp only [doCall, h]

/-- What a channel was sent after the end of a call. -/
theorem doCall_sent (h : g.flight = some c) (ch : Nat) :
    (g.doCall r).sent ch = if ch ∈ c.chans then some r else g.sent ch := by simp only [doCall, h]

theorem doCall_made : (g.doCall r).made = g.made := by
  rw [doCall]
  split
  · rfl
  · rfl

theorem Consistent.doCall (h : g.Consistent) (hflight : g.flight = some c) (r : ρ) :
    (g.doCall r).Consistent where
  waits c' hc' := by
    rw [doCall_flight hflight] at hc'
    cases hc'
  unmade ch hch := by
    rw [doCall_made] at hch
    rw [doCall_sent hflight, if_neg]
    · exact h.unmade ch hch
    · intro hmem
      exact absurd (h.waits c hflight ch hmem).1 (not_lt.mpr hch)
  served ch hlt hnone := by
    rw [doCall_made] at hlt
    rw [doCall_sent hflight] at hnone
    split_ifs at hnone with hmem
    obtain ⟨c', hc', hch⟩ := h.served ch hlt hnone
    obtain rfl := Option.some.inj (hflight.symm.trans hc')
    exact absurd hch hmem

end Group

end concurrency
