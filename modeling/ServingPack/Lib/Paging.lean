import Mathlib.Logic.Basic

/-!
Loops that read numbered pages until one of them is the last.
-/

namespace paging

variable {P S E : Type}

/-- Fetches page `number` and those after it, adds each to what has been read, and
returns after a last one. None when the fuel is used up before. -/
def readAll (fetch : Nat → Except E P) (add : S → P → Except E S) (last : Nat → S → P → Bool) :
    Nat → Nat → S → Option (Except E S)
  | 0, _, _ => none
  | fuel + 1, number, read =>
    match fetch number with
    | .error e => some (.error e)
    | .ok page =>
      match add read page with
      | .error e => some (.error e)
      | .ok read =>
        if last number read page then some (.ok read)
        else readAll fetch add last fuel (number + 1) read

/-- Whether a loop ends with a result: it does with enough fuel, and more makes no difference. -/
def Returns {α : Type} (loop : Nat → Option α) (result : α) : Prop :=
  ∃ enough, ∀ fuel, enough ≤ fuel → loop fuel = some result

variable {fetch : Nat → Except E P} {add : S → P → Except E S} {last : Nat → S → P → Bool}
  {result : Except E S}

/-- A turn of the loop: it ends with the result, or keeps the invariant for the next page. -/
inductive Turn (fetch : Nat → Except E P) (add : S → P → Except E S) (last : Nat → S → P → Bool)
    (I : Nat → S → Prop) (result : Except E S) (number : Nat) (read : S) : Prop where
  | failed {e : E} (hfetch : fetch number = .error e) (hresult : result = .error e)
  | refused {page : P} {e : E} (hfetch : fetch number = .ok page) (hadd : add read page = .error e)
      (hresult : result = .error e)
  | ends {page : P} {read' : S} (hfetch : fetch number = .ok page)
    (hadd : add read page = .ok read')
      (hlast : last number read' page = true) (hresult : result = .ok read')
  | goesOn {page : P} {read' : S} (hfetch : fetch number = .ok page)
    (hadd : add read page = .ok read')
      (hlast : last number read' page = false) (hinv : I (number + 1) read')

/-- A loop whose turns keep an invariant that bounds the page number ends with the result. -/
theorem readAll_eq {I : Nat → S → Prop} {bound : Nat}
    (hbound : ∀ number read, I number read → number ≤ bound)
    (hturn : ∀ number read, I number read → Turn fetch add last I result number read)
    {fuel number : Nat} {read : S} (hinv : I number read) (hfuel : bound < fuel + number) :
    readAll fetch add last fuel number read = some result := by
  induction fuel generalizing number read with
  | zero =>
    have hle := hbound number read hinv
    omega
  | succ fuel ih =>
    rw [readAll]
    obtain ⟨hfetch, rfl⟩ | ⟨hfetch, hadd, rfl⟩ | ⟨hfetch, hadd, hlast, rfl⟩ | ⟨hfetch, hadd, hlast,
      hinv⟩ := hturn number read hinv
    · simp only [hfetch]
    · simp only [hfetch, hadd]
    · simp only [hfetch, hadd, hlast, if_true]
    · simp only [hfetch, hadd, hlast, Bool.false_eq_true, if_false]
      apply ih hinv
      omega

theorem returns_readAll (I : Nat → S → Prop) (bound : Nat) {number : Nat} {read : S}
    (hbound : ∀ number read, I number read → number ≤ bound)
    (hturn : ∀ number read, I number read → Turn fetch add last I result number read)
    (hinv : I number read) :
    Returns (fun fuel => readAll fetch add last fuel number read) result := by
  refine ⟨bound + 1, fun fuel hfuel => readAll_eq hbound hturn hinv ?_⟩
  omega

end paging
