import Mathlib.Algebra.Order.Field.Rat
import Mathlib.Data.List.TakeWhile
import Mathlib.Tactic.FieldSimp
import Mathlib.Tactic.Ring
import ServingPack.Lib.GoString

namespace golang

/-- The decimal digits. -/
def IsDigit (c : UInt8) : Prop := 48 ≤ c ∧ c ≤ 57

instance : DecidablePred IsDigit := fun c => inferInstanceAs (Decidable (48 ≤ c ∧ c ≤ 57))

/-- The number a row of digits denotes. -/
def numeral (s : GoString) : Nat := s.foldl (fun n c => 10 * n + (c.toNat - 48)) 0

/-- A finite `float64`, as the shortest decimal that reads back as it: the fraction
its digits make, times ten to the power of `point`. -/
structure Float64 where
  negative : Bool
  digits : GoString
  point : Int
  digit : digits.all (fun c => decide (IsDigit c)) = true
  shortest : digits.head? ≠ some 48 ∧ digits.getLast? ≠ some 48
  zero : digits = [] → point = 0

private theorem Float64.isDigit (f : Float64) : ∀ c ∈ f.digits, IsDigit c := by
  intro c hc
  simpa using List.all_eq_true.mp f.digit c hc

def Float64.value (f : Float64) : ℚ :=
  (if f.negative then -1 else 1) * numeral f.digits * 10 ^ (f.point - f.digits.length)

section Format

/-- The sign before a number. -/
def signText (negative : Bool) : GoString := if negative then [45] else []

/-- `strconv.FormatInt` in base ten. -/
def formatInt (n : Int) : GoString := signText (n < 0) ++ itoa n.natAbs

/-- The exponent of `%e`: a sign and at least two digits. -/
def exponentText (e : Int) : GoString :=
  (if e < 0 then 45 else 43) :: (if e.natAbs < 10 then 48 :: itoa e.natAbs else itoa e.natAbs)

/-- The digits of a number behind its point, if there are any. -/
def fractionText (frac : GoString) : GoString := if frac = [] then [] else 46 :: frac

/-- `strconv`'s `fmtE` with every digit. -/
def fmtE (digits : GoString) (point : Int) : GoString :=
  (digits.take 1 ++ List.replicate (1 - digits.length) 48) ++ fractionText (digits.drop 1) ++
    101 :: exponentText (if digits = [] then 0 else point - 1)

/-- `strconv`'s `fmtF` with every digit. -/
def fmtF (digits : GoString) (point : Int) : GoString :=
  if 0 < point then
    digits.take point.toNat ++ List.replicate (point.toNat - digits.length) 48 ++
      fractionText (digits.drop point.toNat)
  else 48 :: fractionText (if digits = [] then [] else List.replicate (-point).toNat 48 ++ digits)

/-- `strconv.FormatFloat(f, 'g', -1, 64)`, as `%v` prints a `float64`. -/
def formatFloat (f : Float64) : GoString :=
  signText f.negative ++
    if f.point - 1 < -4 ∨ 6 ≤ f.point - 1 then fmtE f.digits f.point else fmtF f.digits f.point

end Format

section Read

/-- The number the exponent of a text denotes. -/
def readExponent : GoString → Int
  | 45 :: digits => -(numeral digits)
  | 43 :: digits => numeral digits
  | _ => 0

/-- The number a decimal text denotes, without its sign. -/
def readUnsigned (s : GoString) : ℚ :=
  let mantissa := s.takeWhile (· ≠ 101)
  let frac := (mantissa.dropWhile (· ≠ 46)).drop 1
  numeral (mantissa.takeWhile (· ≠ 46) ++ frac) *
    10 ^ (readExponent ((s.dropWhile (· ≠ 101)).drop 1) - frac.length)

/-- The number a decimal text denotes. -/
def readNumber : GoString → ℚ
  | 45 :: rest => -readUnsigned rest
  | s => readUnsigned s

variable {s t whole frac : GoString} {n : Nat}

private theorem numeral_append (s t : GoString) :
    numeral (s ++ t) = numeral s * 10 ^ t.length + numeral t := by
  induction t using List.reverseRecOn with
  | nil => simp [numeral]
  | append_singleton t c ih =>
    simp only [numeral, ← List.append_assoc, List.foldl_append, List.foldl_cons, List.foldl_nil,
      List.length_append, List.length_cons, List.length_nil] at ih ⊢
    rw [ih]
    ring

@[simp] theorem numeral_zeros (n : Nat) : numeral (List.replicate n 48) = 0 := by
  induction n with
  | zero => rfl
  | succ n ih =>
    rw [List.replicate_succ', numeral_append, ih]
    rfl

private theorem isDigit_of_char {c : Char} (h : c.isDigit = true) :
    IsDigit (UInt8.ofNat c.toNat) := by
  obtain ⟨hge, hle⟩ : 48 ≤ c.toNat ∧ c.toNat ≤ 57 := by
    simpa [Char.isDigit, UInt32.le_iff_toNat_le] using h
  simp only [IsDigit, UInt8.le_iff_toNat_le, UInt8.toNat_ofNat']
  constructor
  · show 48 ≤ c.toNat % 256
    omega
  · show c.toNat % 256 ≤ 57
    omega

private theorem isDigit_itoa (n : Nat) : ∀ c ∈ itoa n, IsDigit c := by
  intro c hc
  obtain ⟨ch, hch, rfl⟩ := List.mem_map.mp hc
  exact isDigit_of_char (Nat.isDigit_of_mem_toDigits (by omega) (by omega) hch)

private theorem itoa_ne_nil (n : Nat) : itoa n ≠ [] := by
  rw [itoa, ne_eq, List.map_eq_nil_iff]
  exact Nat.toDigits_ne_nil

@[simp] theorem numeral_itoa (n : Nat) : numeral (itoa n) = n := by
  have hsame : ∀ (l : List Char) (k : Nat), (∀ c ∈ l, c.isDigit = true) →
      (l.map (fun c => UInt8.ofNat c.toNat)).foldl (fun n c => 10 * n + (c.toNat - 48)) k =
        Nat.ofDigitChars 10 l k := by
    intro l
    induction l with
    | nil => simp
    | cons c rest ih =>
      intro k hl
      have hc : 48 ≤ c.toNat ∧ c.toNat ≤ 57 := by
        simpa [Char.isDigit, UInt32.le_iff_toNat_le] using hl c List.mem_cons_self
      rw [List.map_cons, List.foldl_cons, Nat.ofDigitChars_cons,
        ih _ (fun c' h' => hl c' (List.mem_cons_of_mem _ h'))]
      congr 2
      rw [UInt8.toNat_ofNat', Nat.mod_eq_of_lt (by omega)]
      rfl
  rw [numeral, itoa, hsame _ _ (fun c hc => Nat.isDigit_of_mem_toDigits (by omega) (by omega) hc),
    Nat.ofDigitChars_ten_toDigits]

theorem itoa_injective : Function.Injective itoa := by
  intro m n h
  rw [← numeral_itoa m, h, numeral_itoa]

private theorem readExponent_exponentText (e : Int) : readExponent (exponentText e) = e := by
  have hdigits : numeral (if e.natAbs < 10 then 48 :: itoa e.natAbs else itoa e.natAbs) =
      e.natAbs := by
    split_ifs
    · rw [← List.singleton_append, numeral_append, numeral_itoa]
      simp [numeral]
    · exact numeral_itoa _
  rw [exponentText]
  split_ifs with he
  all_goals
    rw [readExponent]
    split_ifs at hdigits
    omega

private theorem takeWhile_until {x : UInt8} (h : ∀ c ∈ s, c ≠ x) (t : GoString) :
    (s ++ x :: t).takeWhile (· ≠ x) = s ∧ (s ++ x :: t).dropWhile (· ≠ x) = x :: t := by
  have hs : ∀ c ∈ s, decide (c ≠ x) = true := by simpa using h
  rw [List.takeWhile_append_of_pos hs, List.dropWhile_append_of_pos hs]
  simp

private theorem takeWhile_all {x : UInt8} (h : ∀ c ∈ s, c ≠ x) :
    s.takeWhile (· ≠ x) = s ∧ s.dropWhile (· ≠ x) = [] := by
  have hs : ∀ c ∈ s, decide (c ≠ x) = true := by simpa using h
  exact ⟨List.takeWhile_eq_self_iff.mpr hs, List.dropWhile_eq_nil_iff.mpr hs⟩

private theorem IsDigit.ne {c : UInt8} (h : IsDigit c) : c ≠ 45 ∧ c ≠ 46 ∧ c ≠ 101 := by
  refine ⟨?_, ?_, ?_⟩
  all_goals
    rintro rfl
    revert h
    decide

/-- The digits before and behind the point of a text without an exponent. -/
theorem split_point (hwhole : ∀ c ∈ whole, IsDigit c) (frac : GoString) :
    (whole ++ fractionText frac).takeWhile (· ≠ 46) = whole ∧
      ((whole ++ fractionText frac).dropWhile (· ≠ 46)).drop 1 = frac := by
  have hpoint : ∀ c ∈ whole, c ≠ 46 := fun c hc => (hwhole c hc).ne.2.1
  rw [fractionText]
  split_ifs with hfrac
  · obtain ⟨htake, hdrop⟩ := takeWhile_all hpoint
    rw [List.append_nil, htake, hdrop, hfrac]
    exact ⟨rfl, rfl⟩
  · obtain ⟨htake, hdrop⟩ := takeWhile_until hpoint frac
    rw [htake, hdrop]
    exact ⟨rfl, rfl⟩

private theorem mantissa_ne (hwhole : ∀ c ∈ whole, IsDigit c) (hfrac : ∀ c ∈ frac, IsDigit c) :
    ∀ c ∈ whole ++ fractionText frac, c ≠ 101 := by
  intro c hc
  rw [fractionText] at hc
  split_ifs at hc
  · rw [List.append_nil] at hc
    exact (hwhole c hc).ne.2.2
  · obtain hc | hc := List.mem_append.mp hc
    · exact (hwhole c hc).ne.2.2
    · obtain rfl | hc := List.mem_cons.mp hc
      · decide
      · exact (hfrac c hc).ne.2.2

private theorem isDigit_nil : ∀ c ∈ ([] : GoString), IsDigit c := fun _ hc => (by cases hc)

private theorem readUnsigned_plain (hwhole : ∀ c ∈ whole, IsDigit c)
    (hfrac : ∀ c ∈ frac, IsDigit c) :
    readUnsigned (whole ++ fractionText frac) =
      numeral (whole ++ frac) * 10 ^ (-frac.length : ℤ) := by
  obtain ⟨htake, hdrop⟩ := takeWhile_all (mantissa_ne hwhole hfrac)
  obtain ⟨hbefore, hbehind⟩ := split_point hwhole frac
  simp only [readUnsigned, htake, hdrop, hbefore, hbehind]
  simp [readExponent]

private theorem readUnsigned_exponent (hwhole : ∀ c ∈ whole, IsDigit c)
    (hfrac : ∀ c ∈ frac, IsDigit c) (e : Int) :
    readUnsigned (whole ++ fractionText frac ++ 101 :: exponentText e) =
      numeral (whole ++ frac) * 10 ^ (e - frac.length) := by
  obtain ⟨htake, hdrop⟩ := takeWhile_until (mantissa_ne hwhole hfrac) (exponentText e)
  obtain ⟨hbefore, hbehind⟩ := split_point hwhole frac
  simp only [readUnsigned, htake, hdrop, hbefore, hbehind, List.drop_succ_cons, List.drop_zero,
    readExponent_exponentText]

/-- A sign before digits is read as one. -/
theorem readNumber_signed {c : UInt8} (negative : Bool) (hs : s.head? = some c) (hc : IsDigit c) :
    readNumber (signText negative ++ s) = (if negative then -1 else 1) * readUnsigned s := by
  cases negative with
  | true =>
    show -readUnsigned s = _
    simp
  | false =>
    obtain ⟨rest, rfl⟩ := List.head?_eq_some_iff.mp hs
    have hne := hc.ne.1
    simp only [signText, Bool.false_eq_true, if_false, List.nil_append, one_mul]
    rw [readNumber]
    intro rest' h
    exact hne (List.cons.inj h).1

end Read

section Values

variable {s : GoString}

private theorem head_digit {s : GoString} (h : ∀ c ∈ s, IsDigit c) (hne : s ≠ []) (t : GoString) :
    ∃ c, (s ++ t).head? = some c ∧ IsDigit c := by
  obtain ⟨c, rest, rfl⟩ := List.exists_cons_of_ne_nil hne
  exact ⟨c, rfl, h c List.mem_cons_self⟩

theorem readNumber_formatInt (n : Int) : readNumber (formatInt n) = n := by
  obtain ⟨c, hhead, hc⟩ := head_digit (isDigit_itoa n.natAbs) (itoa_ne_nil _) []
  rw [List.append_nil] at hhead
  rw [formatInt, readNumber_signed _ hhead hc]
  have hread := readUnsigned_plain (isDigit_itoa n.natAbs) isDigit_nil
  simp only [fractionText, if_true, List.append_nil, numeral_itoa, List.length_nil, Nat.cast_zero,
    neg_zero, zpow_zero, mul_one] at hread
  rw [hread]
  by_cases hn : n < 0
  · rw [if_pos (decide_eq_true hn), Nat.cast_natAbs, abs_of_neg hn]
    push_cast
    ring
  · rw [if_neg (by simpa using hn), Nat.cast_natAbs, abs_of_nonneg (by omega), one_mul]

private theorem isDigit_zeros (n : Nat) : ∀ c ∈ (List.replicate n 48 : GoString), IsDigit c := by
  intro c hc
  rw [List.eq_of_mem_replicate hc]
  decide

variable {digits : GoString} {point : Int}

private theorem readUnsigned_fmtE (hdigit : ∀ c ∈ digits, IsDigit c)
    (hzero : digits = [] → point = 0) :
    readUnsigned (fmtE digits point) = numeral digits * 10 ^ (point - digits.length) := by
  have hwhole : ∀ c ∈ digits.take 1 ++ List.replicate (1 - digits.length) 48, IsDigit c := by
    intro c hc
    obtain hc | hc := List.mem_append.mp hc
    · exact hdigit c (List.mem_of_mem_take hc)
    · exact isDigit_zeros _ c hc
  have hfrac : ∀ c ∈ digits.drop 1, IsDigit c := fun c hc => hdigit c (List.mem_of_mem_drop hc)
  rw [fmtE, readUnsigned_exponent hwhole hfrac]
  cases digits with
  | nil => simp [numeral]
  | cons d rest =>
    have hexp : point - 1 - (rest.length : ℤ) = point - ((d :: rest).length : ℤ) := by
      rw [List.length_cons]
      push_cast
      ring
    simp only [List.take_succ_cons, List.take_zero, List.length_cons, List.drop_succ_cons,
      List.drop_zero, reduceCtorEq, if_false, Nat.sub_eq_zero_of_le (Nat.le_add_left 1 _),
      List.replicate_zero, List.append_nil, List.singleton_append, hexp]

private theorem readUnsigned_fmtF (hdigit : ∀ c ∈ digits, IsDigit c) :
    readUnsigned (fmtF digits point) = numeral digits * 10 ^ (point - digits.length) := by
  rw [fmtF]
  split_ifs with hpoint hnil
  · have hwhole : ∀ c ∈ digits.take point.toNat ++ List.replicate (point.toNat - digits.length) 48,
        IsDigit c := by
      intro c hc
      obtain hc | hc := List.mem_append.mp hc
      · exact hdigit c (List.mem_of_mem_take hc)
      · exact isDigit_zeros _ c hc
    have hfrac : ∀ c ∈ digits.drop point.toNat, IsDigit c :=
      fun c hc => hdigit c (List.mem_of_mem_drop hc)
    rw [readUnsigned_plain hwhole hfrac, List.length_drop]
    obtain hle | hlt := Nat.le_total digits.length point.toNat
    · -- Every digit stands before the point, and zeros after the last of them.
      rw [List.take_of_length_le hle, List.drop_of_length_le hle, List.append_nil, numeral_append,
        numeral_zeros, List.length_replicate, Nat.sub_eq_zero_of_le hle]
      have hexp : point - digits.length = ((point.toNat - digits.length : ℕ) : ℤ) := by omega
      rw [hexp, zpow_natCast]
      push_cast
      ring
    · rw [Nat.sub_eq_zero_of_le hlt, List.replicate_zero, List.append_nil, List.take_append_drop]
      congr 2
      omega
  · have hread := readUnsigned_plain (isDigit_zeros 1) isDigit_nil
    rw [List.replicate_one, List.singleton_append] at hread
    rw [hread, hnil]
    simp [numeral]
  · have hfrac : ∀ c ∈ List.replicate (-point).toNat 48 ++ digits, IsDigit c := by
      intro c hc
      obtain hc | hc := List.mem_append.mp hc
      · exact isDigit_zeros _ c hc
      · exact hdigit c hc
    have hread := readUnsigned_plain (isDigit_zeros 1) hfrac
    rw [List.replicate_one, List.singleton_append] at hread
    rw [hread, List.length_append, List.length_replicate, ← List.append_assoc, numeral_append,
      ← List.singleton_append, numeral_append, numeral_zeros]
    have hexp : (-((-point).toNat + digits.length : ℕ) : ℤ) = point - digits.length := by omega
    rw [hexp]
    simp [numeral]

private theorem head_fmtE (point : Int) (hdigit : ∀ c ∈ digits, IsDigit c) :
    ∃ c, (fmtE digits point).head? = some c ∧ IsDigit c := by
  rw [fmtE]
  cases digits with
  | nil => exact ⟨48, rfl, by decide⟩
  | cons d rest => exact ⟨d, rfl, hdigit d List.mem_cons_self⟩

private theorem head_fmtF (point : Int) (hdigit : ∀ c ∈ digits, IsDigit c) :
    ∃ c, (fmtF digits point).head? = some c ∧ IsDigit c := by
  rw [fmtF]
  split_ifs with hpoint hnil
  · obtain ⟨n, hn⟩ : ∃ n, point.toNat = n + 1 := ⟨point.toNat - 1, by omega⟩
    cases digits with
    | nil =>
      rw [hn]
      exact ⟨48, rfl, by decide⟩
    | cons d rest =>
      rw [hn]
      exact ⟨d, rfl, hdigit d List.mem_cons_self⟩
  · exact ⟨48, rfl, by decide⟩
  · exact ⟨48, rfl, by decide⟩

/-- What a float is printed as reads back as its value. -/
theorem readNumber_formatFloat (f : Float64) : readNumber (formatFloat f) = f.value := by
  rw [formatFloat, Float64.value]
  by_cases hexp : f.point - 1 < -4 ∨ 6 ≤ f.point - 1
  · obtain ⟨c, hhead, hc⟩ := head_fmtE f.point f.isDigit
    rw [if_pos hexp, readNumber_signed _ hhead hc, readUnsigned_fmtE f.isDigit f.zero, mul_assoc]
  · obtain ⟨c, hhead, hc⟩ := head_fmtF f.point f.isDigit
    rw [if_neg hexp, readNumber_signed _ hhead hc, readUnsigned_fmtF f.isDigit, mul_assoc]

/-- A printed number begins with a sign or a digit. -/
def StartsNumber (s : GoString) : Prop := ∃ c, s.head? = some c ∧ (c = 45 ∨ IsDigit c)

private theorem startsNumber_signed {c : UInt8} (negative : Bool) (hs : s.head? = some c)
    (hc : IsDigit c) :
    StartsNumber (signText negative ++ s) := by
  cases negative with
  | true => exact ⟨45, rfl, .inl rfl⟩
  | false => exact ⟨c, hs, .inr hc⟩

theorem startsNumber_formatInt (n : Int) : StartsNumber (formatInt n) := by
  obtain ⟨c, hhead, hc⟩ := head_digit (isDigit_itoa n.natAbs) (itoa_ne_nil _) []
  rw [List.append_nil] at hhead
  exact startsNumber_signed _ hhead hc

theorem startsNumber_formatFloat (f : Float64) : StartsNumber (formatFloat f) := by
  rw [formatFloat]
  split_ifs
  · obtain ⟨c, hhead, hc⟩ := head_fmtE f.point f.isDigit
    exact startsNumber_signed _ hhead hc
  · obtain ⟨c, hhead, hc⟩ := head_fmtF f.point f.isDigit
    exact startsNumber_signed _ hhead hc

-- What `%v` prints for some floats.
example : formatFloat ⟨false, lit "15", 7, by decide, by decide, by decide⟩ = lit "1.5e+06" :=
  by decide
example : formatFloat ⟨true, lit "15", -1, by decide, by decide, by decide⟩ = lit "-0.015" :=
  by decide
example : formatFloat ⟨false, lit "1", 3, by decide, by decide, by decide⟩ = lit "100" := by decide

end Values

end golang
