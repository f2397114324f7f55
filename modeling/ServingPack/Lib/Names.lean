import ServingPack.Lib.GoString

open golang

/-! The forms Kubernetes prescribes for the names and the label values of objects. -/

namespace naming

def letter (c : UInt8) : Bool := 97 ≤ c && c ≤ 122

/-- `[a-z0-9]` -/
def lowerAlnum (c : UInt8) : Bool := letter c || (48 ≤ c && c ≤ 57)

/-- `[A-Za-z0-9]` -/
def alnum (c : UInt8) : Bool := lowerAlnum c || (65 ≤ c && c ≤ 90)

/-- Where in a label the next byte stands. -/
inductive Position where
  | start
  | inside
  | afterDash
  deriving DecidableEq

/-- Labels `[a-z0-9]([-a-z0-9]*[a-z0-9])?`, one or, where dots are allowed,
several separated by dots. The position is the one reached so far. -/
def wellFormed (dots : Bool) : Position → GoString → Bool
  | position, [] => position = .inside
  | position, c :: rest =>
    if lowerAlnum c then wellFormed dots .inside rest
    else if c = 45 then position ≠ .start && wellFormed dots .afterDash rest
    else if c = 46 then dots && position = .inside && wellFormed dots .start rest
    else false

/-- `validation.IsDNS1123Subdomain` -/
def isDNS1123Subdomain (s : GoString) : Bool := s.length ≤ 253 && wellFormed true .start s

/-- `validation.IsDNS1035Label`: a label that starts with a letter. -/
def isDNS1035Label (s : GoString) : Bool :=
  s.length ≤ 63 && s.head?.any letter && wellFormed false .start s

def labelValueByte (c : UInt8) : Bool := alnum c || c = 45 || c = 46 || c = 95

/-- `validation.IsValidLabelValue`: `(([A-Za-z0-9][-A-Za-z0-9_.]*)?[A-Za-z0-9])?` -/
def isLabelValue (s : GoString) : Bool :=
  s.length ≤ 63 && (s = [] || (s.all labelValueByte && s.head?.any alnum && s.getLast?.any alnum))

section WellFormed

variable {dots : Bool} {position : Position} {s t : GoString}

private theorem wellFormed_nil : wellFormed dots position [] = decide (position = .inside) := rfl

private theorem wellFormed_cons (c : UInt8) (rest : GoString) :
    wellFormed dots position (c :: rest) =
      if lowerAlnum c then wellFormed dots .inside rest
      else if c = 45 then position ≠ .start && wellFormed dots .afterDash rest
      else if c = 46 then dots && position = .inside && wellFormed dots .start rest
      else false := rfl

/-- Text that continues a label after a well-formed text. -/
theorem wellFormed_append (hs : wellFormed dots position s = true)
    (ht : wellFormed dots .inside t = true) :
    wellFormed dots position (s ++ t) = true := by
  induction s generalizing position with
  | nil =>
    simp only [wellFormed_nil, decide_eq_true_eq] at hs
    simpa only [List.nil_append, hs] using ht
  | cons c rest ih =>
    simp only [wellFormed_cons, List.cons_append] at hs ⊢
    split_ifs at hs ⊢ with hc hdash hdot
    · exact ih hs
    · simp only [Bool.and_eq_true] at hs ⊢
      exact ⟨hs.1, ih hs.2⟩
    · simp only [Bool.and_eq_true] at hs ⊢
      exact ⟨hs.1, ih hs.2⟩

private theorem wellFormed_dots (h : wellFormed false position s = true) :
    wellFormed true position s = true := by
  induction s generalizing position with
  | nil => exact h
  | cons c rest ih =>
    simp only [wellFormed_cons] at h ⊢
    split_ifs at h ⊢ with hc hdash hdot
    · exact ih h
    · simp only [Bool.and_eq_true] at h ⊢
      exact ⟨h.1, ih h.2⟩
    · simp at h

/-- Whether dots are allowed matters only to a text with a dot. -/
theorem wellFormed_of_cons_append {c : UInt8} (hs : wellFormed true position s = true)
    (h : wellFormed false position (s ++ c :: t) = true) : wellFormed false position s = true := by
  induction s generalizing position with
  | nil => exact hs
  | cons b rest ih =>
    simp only [wellFormed_cons, List.cons_append] at hs h ⊢
    split_ifs at hs h ⊢ with hb hdash hdot
    · exact ih hs h
    · simp only [Bool.and_eq_true] at hs h ⊢
      exact ⟨hs.1, ih hs.2 h.2⟩
    · simp at h

private theorem wellFormed_bytes (h : wellFormed dots position s = true) :
    s.all labelValueByte = true := by
  induction s generalizing position with
  | nil => rfl
  | cons c rest ih =>
    simp only [wellFormed_cons] at h
    rw [List.all_cons, Bool.and_eq_true]
    split_ifs at h with hc hdash hdot
    · exact ⟨by simp [labelValueByte, alnum, hc], ih h⟩
    · simp only [Bool.and_eq_true] at h
      exact ⟨by simp [labelValueByte, hdash], ih h.2⟩
    · simp only [Bool.and_eq_true] at h
      exact ⟨by simp [labelValueByte, hdot], ih h.2⟩

theorem wellFormed_lower (h : wellFormed dots position s = true) :
    ∀ c ∈ s, lowerAlnum c = true ∨ c = 45 ∨ c = 46 := by
  induction s generalizing position with
  | nil => simp
  | cons c rest ih =>
    simp only [wellFormed_cons] at h
    rw [List.forall_mem_cons]
    split_ifs at h with hc hdash hdot
    · exact ⟨.inl hc, ih h⟩
    · rw [Bool.and_eq_true] at h
      exact ⟨.inr (.inl hdash), ih h.2⟩
    · simp only [Bool.and_eq_true] at h
      exact ⟨.inr (.inr hdot), ih h.2⟩

private theorem wellFormed_head (h : wellFormed dots .start s = true) :
    s.head?.any lowerAlnum = true := by
  cases s with
  | nil => simp [wellFormed_nil] at h
  | cons c rest =>
    simp only [wellFormed_cons] at h
    split_ifs at h with hc hdash hdot
    · simpa using hc
    · simp at h
    · simp at h

theorem wellFormed_getLast (hne : s ≠ []) (h : wellFormed dots position s = true) :
    s.getLast?.any lowerAlnum = true := by
  induction s generalizing position with
  | nil => exact absurd rfl hne
  | cons c rest ih =>
    simp only [wellFormed_cons] at h
    cases rest with
    | nil =>
      split_ifs at h with hc hdash hdot
      · simpa using hc
      · simp [wellFormed_nil] at h
      · simp [wellFormed_nil] at h
    | cons b rest =>
      rw [List.getLast?_cons_cons]
      split_ifs at h with hc hdash hdot
      · exact ih (List.cons_ne_nil _ _) h
      · rw [Bool.and_eq_true] at h
        exact ih (List.cons_ne_nil _ _) h.2
      · rw [Bool.and_eq_true] at h
        exact ih (List.cons_ne_nil _ _) h.2

private theorem alnum_of_lower {o : Option UInt8} (h : o.any lowerAlnum = true) :
    o.any alnum = true := by
  cases o with
  | none => cases h
  | some c =>
    have hc : lowerAlnum c = true := h
    simp [alnum, hc]

/-- A name is a label value unless it is too long for one. -/
theorem isLabelValue_iff (h : isDNS1123Subdomain s = true) :
    isLabelValue s = true ↔ s.length ≤ 63 := by
  obtain ⟨_, hform⟩ := (Bool.and_eq_true _ _).mp h
  have hhead := wellFormed_head hform
  have hne : s ≠ [] := by
    rintro rfl
    cases hhead
  simp [isLabelValue, hne, wellFormed_bytes hform, alnum_of_lower hhead,
    alnum_of_lower (wellFormed_getLast hne hform)]

theorem isDNS1035Label_iff :
    isDNS1035Label s = true ↔ s.length ≤ 63 ∧ s.head?.any letter = true ∧
    wellFormed false .start s = true := by
  simp only [isDNS1035Label, Bool.and_eq_true, decide_eq_true_eq, and_assoc]

theorem subdomain_of_label (h : isDNS1035Label s = true) : isDNS1123Subdomain s = true := by
  obtain ⟨hlength, _, hform⟩ := isDNS1035Label_iff.mp h
  simp only [isDNS1123Subdomain, Bool.and_eq_true, decide_eq_true_eq]
  exact ⟨by omega, wellFormed_dots hform⟩

/-- A name with a suffix is a subdomain while it is short enough. -/
theorem subdomain_append (hs : isDNS1123Subdomain s = true) (ht : wellFormed true .inside t = true)
    (hlength : (s ++ t).length ≤ 253) : isDNS1123Subdomain (s ++ t) = true := by
  simp only [isDNS1123Subdomain, Bool.and_eq_true, decide_eq_true_eq] at hs ⊢
  exact ⟨hlength, wellFormed_append hs.2 ht⟩

/-- A name with a suffix is a DNS-1035 label exactly when the name is one and
both together are short enough. -/
theorem label_append_iff {c : UInt8} (hs : isDNS1123Subdomain s = true)
    (ht : wellFormed false .inside (c :: t) = true) :
    isDNS1035Label (s ++ c :: t) = true ↔ isDNS1035Label s = true ∧ (s ++ c :: t).length ≤ 63 := by
  obtain ⟨_, hform⟩ := (Bool.and_eq_true _ _).mp hs
  have hhead : (s ++ c :: t).head? = s.head? := by
    cases s with
    | nil => simp [wellFormed_nil] at hform
    | cons b rest => rfl
  rw [isDNS1035Label_iff, isDNS1035Label_iff, hhead]
  constructor
  · rintro ⟨hlength, hletter, hlabel⟩
    refine ⟨⟨?_, hletter, wellFormed_of_cons_append hform hlabel⟩, hlength⟩
    rw [List.length_append] at hlength
    omega
  · rintro ⟨⟨_, hletter, hlabel⟩, hlength⟩
    exact ⟨hlength, hletter, wellFormed_append hlabel ht⟩

end WellFormed

end naming
