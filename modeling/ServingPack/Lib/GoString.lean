import Mathlib.Data.List.Infix
import Mathlib.Tactic.IntervalCases

namespace golang

/-- A Go string: any sequence of bytes, not necessarily valid UTF-8. -/
abbrev GoString := List UInt8

/-- The bytes of a Go string literal. -/
def lit (s : String) : GoString := s.toUTF8.data.toList

instance : Coe String GoString := ⟨lit⟩

instance (s : GoString) (strings : List GoString) : Decidable (s ∈ strings) :=
  List.instDecidableMemOfLawfulBEq s strings

/-- `strings.HasSuffix`. -/
def hasSuffix (s suffix : GoString) : Bool := suffix.isSuffixOf s

/-- `strings.HasPrefix`. -/
def hasPrefix (s pre : GoString) : Bool := pre.isPrefixOf s

/-- `strings.TrimSuffix`. -/
def trimSuffix (s suffix : GoString) : GoString :=
  if hasSuffix s suffix then s.take (s.length - suffix.length) else s

/-- `strings.Contains`. -/
def contains (s sub : GoString) : Bool := s.tails.any (fun t => sub.isPrefixOf t)

/-- `strings.ToLower` of ASCII text. Go maps letters past ASCII too; here they are kept. -/
def toLower (s : GoString) : GoString := s.map (fun c => if 65 ≤ c && c ≤ 90 then c + 32 else c)

/-- A regular expression's maximal runs of some bytes, each replaced by one dash.
The flag says whether a run has begun. -/
def dashRuns (inRun : Bool) (bad : UInt8 → Bool) : GoString → GoString
  | [] => []
  | c :: rest =>
    if bad c then if inRun then dashRuns true bad rest else 45 :: dashRuns true bad rest
    else c :: dashRuns false bad rest

/-- `strings.TrimSpace(s) == ""`: nothing but Unicode white space, in UTF-8. -/
def isBlank : GoString → Bool
  | [] => true
  | 0xC2 :: 0x85 :: rest => isBlank rest
  | 0xC2 :: 0xA0 :: rest => isBlank rest
  | 0xE1 :: 0x9A :: 0x80 :: rest => isBlank rest
  | 0xE2 :: 0x80 :: c :: rest => (c ≤ 0x8A || c == 0xA8 || c == 0xA9 || c == 0xAF) && isBlank rest
  | 0xE2 :: 0x81 :: 0x9F :: rest => isBlank rest
  | 0xE3 :: 0x80 :: 0x80 :: rest => isBlank rest
  | c :: rest => (c == 32 || (9 ≤ c && c ≤ 13)) && isBlank rest

/-- The decimal digits of a number. -/
def itoa (n : Nat) : GoString := (Nat.toDigits 10 n).map (fun c => UInt8.ofNat c.toNat)

/-- The number decimal digits denote, with `n` for the digits before them. -/
def parseDigits (n : Nat) : GoString → Option Nat
  | [] => some n
  | c :: rest => if 48 ≤ c && c ≤ 57 then parseDigits (10 * n + (c.toNat - 48)) rest else none

/-- `strconv.ParseUint` without its error, with `n` for the digits before: 0 at a byte
that is no digit, and the largest `uint64` as soon as the digits pass it, whatever
follows them. -/
def parseUint (n : Nat) : GoString → Nat
  | [] => n
  | c :: rest =>
    if 48 ≤ c && c ≤ 57 then
      let next := 10 * n + (c.toNat - 48)
      if next < 2 ^ 64 then parseUint next rest else 2 ^ 64 - 1
    else 0

/-- `strconv.Atoi` without its error: 0 where the text is no number, and the
closest `int` where it is out of range. -/
def atoi (s : GoString) : Int :=
  match s with
  | [] => 0
  | c :: rest =>
    let magnitude := parseUint 0 (if c = 43 ∨ c = 45 then rest else s)
    if c = 45 then max (-(magnitude : Int)) (-2 ^ 63) else min (magnitude : Int) (2 ^ 63 - 1)

/-- The lower-case hexadecimal digit of a value below sixteen. -/
def hexDigit (n : Nat) : UInt8 := if n < 10 then UInt8.ofNat (48 + n) else UInt8.ofNat (87 + n)

/-- `hex.EncodeToString`. -/
def hexEncode : List UInt8 → GoString
  | [] => []
  | b :: rest => hexDigit (b.toNat / 16) :: hexDigit (b.toNat % 16) :: hexEncode rest

/-- A character of the URL-safe base64 alphabet. -/
def base64Char (n : Nat) : UInt8 :=
  if n < 26 then UInt8.ofNat (65 + n)
  else if n < 52 then UInt8.ofNat (71 + n)
  else if n < 62 then UInt8.ofNat (n - 4)
  else if n = 62 then 45 else 95

/-- `base64.RawURLEncoding.EncodeToString`: four characters for three bytes, a
shorter last group without padding. -/
def base64RawURL : List UInt8 → GoString
  | [] => []
  | [a] => [base64Char (a.toNat / 4), base64Char (a.toNat % 4 * 16)]
  | [a, b] => [base64Char (a.toNat / 4), base64Char (a.toNat % 4 * 16 + b.toNat / 16),
      base64Char (b.toNat % 16 * 4)]
  | a :: b :: c :: rest =>
    base64Char (a.toNat / 4) :: base64Char (a.toNat % 4 * 16 + b.toNat / 16) ::
      base64Char (b.toNat % 16 * 4 + c.toNat / 64) :: base64Char (c.toNat % 64) :: base64RawURL rest

theorem hasSuffix_append (s suffix : GoString) : hasSuffix (s ++ suffix) suffix = true := by
  simp [hasSuffix]

theorem hasSuffix_iff {s suffix : GoString} :
    hasSuffix s suffix = true ↔ ∃ stem, s = stem ++ suffix := by
  rw [hasSuffix, List.isSuffixOf_iff_suffix]
  exact exists_congr (fun _ => eq_comm)

theorem trimSuffix_append (s suffix : GoString) : trimSuffix (s ++ suffix) suffix = s := by
  rw [trimSuffix, if_pos (hasSuffix_append s suffix), List.length_append, Nat.add_sub_cancel,
    List.take_left]

private theorem contains_iff {s sub : GoString} :
    contains s sub = true ↔ ∃ before after, s = before ++ sub ++ after := by
  rw [contains, List.any_eq_true]
  constructor
  · rintro ⟨t, ht, hsub⟩
    obtain ⟨before, rfl⟩ := (List.mem_tails _ _).mp ht
    obtain ⟨after, rfl⟩ := List.isPrefixOf_iff_prefix.mp hsub
    exact ⟨before, after, (List.append_assoc ..).symm⟩
  · rintro ⟨before, after, rfl⟩
    rw [List.append_assoc]
    exact ⟨sub ++ after, (List.mem_tails _ _).mpr (List.suffix_append ..),
      List.isPrefixOf_iff_prefix.mpr (List.prefix_append ..)⟩

/-- A text that lacks a byte is found on one side of it. -/
theorem contains_sep {sep : UInt8} {s t sub : GoString} (hsep : sep ∉ sub) :
    contains (s ++ sep :: t) sub = (contains s sub || contains t sub) := by
  rw [Bool.eq_iff_iff, Bool.or_eq_true, contains_iff, contains_iff, contains_iff]
  constructor
  · rintro ⟨before, after, h⟩
    rcases List.append_eq_append_iff.mp h with ⟨mid, hbefore, hrest⟩ | ⟨mid, rfl, _⟩
    · cases mid with
      | nil => exact .inl ⟨before, [], by rw [List.append_nil, hbefore, List.append_nil]⟩
      | cons c rest =>
        obtain ⟨rfl, rfl⟩ := List.cons.inj hrest
        rcases List.append_eq_append_iff.mp hbefore with ⟨mid, _, rfl⟩ | ⟨mid, _, hmid⟩
        · exact absurd (List.mem_append_right mid List.mem_cons_self) hsep
        · cases mid with
          | nil =>
            rw [List.nil_append] at hmid
            exact absurd (hmid ▸ List.mem_cons_self) hsep
          | cons c tail =>
            obtain ⟨_, rfl⟩ := List.cons.inj hmid
            exact .inr ⟨tail, after, rfl⟩
    · exact .inl ⟨before, mid, rfl⟩
  · rintro (⟨before, after, rfl⟩ | ⟨before, after, rfl⟩)
    · exact ⟨before, after ++ sep :: t, by simp⟩
    · exact ⟨s ++ sep :: before, after, by simp⟩

theorem trimSuffix_of_not {s suffix : GoString} (h : hasSuffix s suffix = false) :
    trimSuffix s suffix = s := by
  rw [trimSuffix, h, if_neg Bool.false_ne_true]

/-- What follows the last separator determines both sides of it. -/
theorem append_sep_inj {sep : UInt8} {s s' t t' : GoString} (ht : sep ∉ t) (ht' : sep ∉ t')
    (h : s ++ sep :: t = s' ++ sep :: t') : s = s' ∧ t = t' := by
  rcases List.append_eq_append_iff.mp h with ⟨mid, rfl, hmid⟩ | ⟨mid, rfl, hmid⟩
  · cases mid with
    | nil => exact ⟨(List.append_nil s).symm, (List.cons.inj hmid).2⟩
    | cons c rest =>
      obtain ⟨_, rfl⟩ := List.cons.inj hmid
      exact absurd (List.mem_append_right rest (List.mem_cons_self ..)) ht
  · cases mid with
    | nil => exact ⟨List.append_nil s', (List.cons.inj hmid).2.symm⟩
    | cons c rest =>
      obtain ⟨_, rfl⟩ := List.cons.inj hmid
      exact absurd (List.mem_append_right rest (List.mem_cons_self ..)) ht'

@[simp] theorem hexEncode_length (bytes : List UInt8) :
    (hexEncode bytes).length = 2 * bytes.length := by
  induction bytes with
  | nil => rfl
  | cons b rest ih =>
    simp only [hexEncode, List.length_cons, ih]
    omega

private theorem hexDigit_inj {m n : Nat} (hm : m < 16) (hn : n < 16) (h : hexDigit m = hexDigit n) :
    m = n := by
  have hval := congrArg UInt8.toNat h
  unfold hexDigit at hval
  split at hval <;> split at hval <;> simp only [UInt8.toNat_ofNat'] at hval <;> omega

private theorem uint8_eq_of_digits {a b : UInt8} (k : Nat) (hdiv : a.toNat / k = b.toNat / k)
    (hmod : a.toNat % k = b.toNat % k) : a = b := by
  apply UInt8.toNat_inj.mp
  rw [← Nat.div_add_mod a.toNat k, ← Nat.div_add_mod b.toNat k, hdiv, hmod]

/-- Distinct byte sequences have distinct hexadecimal texts. -/
theorem hexEncode_injective : Function.Injective hexEncode := by
  intro left
  induction left with
  | nil =>
    intro right h
    cases right with
    | nil => rfl
    | cons b rest => simp [hexEncode] at h
  | cons a left ih =>
    intro right h
    cases right with
    | nil => simp [hexEncode] at h
    | cons b right =>
      simp only [hexEncode, List.cons.injEq] at h
      obtain ⟨hhigh, hlow, hrest⟩ := h
      have ha := a.toNat_lt
      have hb := b.toNat_lt
      have hdiv := hexDigit_inj (by omega) (by omega) hhigh
      have hmod := hexDigit_inj (by omega) (by omega) hlow
      rw [uint8_eq_of_digits 16 hdiv hmod, ih hrest]

private theorem base64Char_inj {m n : Nat} (hm : m < 64) (hn : n < 64)
    (h : base64Char m = base64Char n) :
    m = n := by
  have hval := congrArg UInt8.toNat h
  unfold base64Char at hval
  split_ifs at hval <;> simp only [UInt8.toNat_ofNat', UInt8.reduceToNat] at hval <;> omega

/-- Byte sequences of one length that is a multiple of three have distinct base64 texts. -/
theorem base64RawURL_injective_of_length (groups : Nat) :
    ∀ left right : List UInt8, left.length = 3 * groups → right.length = 3 * groups →
      base64RawURL left = base64RawURL right → left = right := by
  induction groups with
  | zero =>
    intro left right hleft hright _
    rw [List.eq_nil_of_length_eq_zero hleft, List.eq_nil_of_length_eq_zero hright]
  | succ groups ih =>
    intro left right hleft hright h
    match left, right with
    | a :: b :: c :: left, a' :: b' :: c' :: right =>
      simp only [base64RawURL, List.cons.injEq] at h
      obtain ⟨h0, h1, h2, h3, hrest⟩ := h
      simp only [List.length_cons] at hleft hright
      have ha := a.toNat_lt
      have hb := b.toNat_lt
      have hc := c.toNat_lt
      have ha' := a'.toNat_lt
      have hb' := b'.toNat_lt
      have hc' := c'.toNat_lt
      have e0 := base64Char_inj (by omega) (by omega) h0
      have e1 := base64Char_inj (by omega) (by omega) h1
      have e2 := base64Char_inj (by omega) (by omega) h2
      have e3 := base64Char_inj (by omega) (by omega) h3
      rw [uint8_eq_of_digits (a := a) (b := a') 4 e0 (by omega),
        uint8_eq_of_digits (a := b) (b := b') 16 (by omega) (by omega),
        uint8_eq_of_digits (a := c) (b := c') 64 (by omega) e3,
        ih left right (by omega) (by omega) hrest]
    | [], _ | [_], _ | [_, _], _ =>
      simp only [List.length_cons, List.length_nil] at hleft
      omega
    | _ :: _ :: _ :: _, [] | _ :: _ :: _ :: _, [_] | _ :: _ :: _ :: _, [_, _] =>
      simp only [List.length_cons, List.length_nil] at hright
      omega

end golang
