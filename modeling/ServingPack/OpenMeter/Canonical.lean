import Mathlib.Data.List.Forall2
import ServingPack.OpenMeter.Normalize

namespace openmeterapi.canonical

/-- Two dots with one digit between them, between two digits. -/
def HasTriple (s : Runes) : Prop :=
  ∃ a b d : Char, a.isDigit = true ∧ b.isDigit = true ∧ d.isDigit = true ∧
    [a, '.', b, '.', d] <:+: s

/-- The digits of a date, with nothing between its parts or a hyphen or dot. -/
def dateParts : Runes → Bool
  | [a, b, c, d, e, f, g, h] => [a, b, c, d, e, f, g, h].all Char.isDigit
  | [a, b, c, d, x, e, f, y, g, h] =>
    [a, b, c, d, e, f, g, h].all Char.isDigit && [x, y].all (fun c => c == '-' || c == '.')
  | _ => false

/-- A date after a hyphen, or after a digit and a dot. -/
def datedTail : Runes → Bool
  | '-' :: parts => dateParts parts
  | a :: '.' :: parts => a.isDigit && dateParts parts
  | _ => false

/-- A stem that is normalized for good: nothing that is cut off or rewritten once shows
up again when it has been. -/
structure Settled (c : Runes) : Prop where
  first : ∀ x, c.head? = some x → isSpace x = false
  final : ∀ x, c.getLast? = some x → isSpace x = false
  version : ∀ t, t <:+ c → bedrockVersionSuffix t = false
  region : ∀ r ∈ bedrockRegionPrefix, ¬r <+: c
  /-- Also with dots between digits, which are to be hyphens. -/
  date : ∀ t, t <:+ c → datedTail t = false
  dots : ¬HasTriple c

/-- Whether a stem is another name for a model. -/
def IsAlias (c : Runes) : Prop := ∃ p ∈ modelAliases, c = p.1

section Tail

variable {describes : Runes → Bool} {s t : Runes}

private theorem cutTail_leads (describes : Runes → Bool) (s : Runes) :
    cutTail describes s <+: s := by
  induction s with
  | nil => exact List.nil_prefix
  | cons c rest ih =>
    rw [cutTail]
    split_ifs
    · exact List.nil_prefix
    · exact List.cons_prefix_cons.mpr ⟨rfl, ih⟩

private theorem cutTail_eq_self_iff (hnil : describes [] = false) :
    cutTail describes s = s ↔ ∀ t, t <:+ s → describes t = false := by
  induction s with
  | nil =>
    constructor
    · intro _ t ht
      rw [List.suffix_nil.mp ht, hnil]
    · intro _
      rfl
  | cons c rest ih =>
    rw [cutTail]
    split_ifs with hdescribes
    · constructor
      · intro h
        cases h
      · intro h
        rw [h _ List.suffix_rfl] at hdescribes
        cases hdescribes
    · rw [List.cons.injEq, eq_self, true_and, ih]
      constructor
      · intro h t ht
        obtain rfl | ht := List.suffix_cons_iff.mp ht
        · exact Bool.eq_false_iff.mpr hdescribes
        · exact h t ht
      · intro h t ht
        exact h t (ht.trans (List.suffix_cons c rest))

end Tail

section Region

variable {s : Runes}

private theorem cutRegion_suffix (s : Runes) : cutRegion s <:+ s := by
  rw [cutRegion]
  split
  · exact List.drop_suffix _ _
  · exact List.suffix_rfl

private theorem cutRegion_eq_self_iff : cutRegion s = s ↔ ∀ r ∈ bedrockRegionPrefix, ¬r <+: s := by
  rw [cutRegion]
  cases hfind : bedrockRegionPrefix.find? (·.isPrefixOf s) with
  | none =>
    rw [List.find?_eq_none] at hfind
    constructor
    · intro _ r hr hleads
      exact hfind r hr (List.isPrefixOf_iff_prefix.mpr hleads)
    · intro _
      rfl
  | some region =>
    have hregion := List.mem_of_find?_eq_some hfind
    have hfound : region.isPrefixOf s = true := by
      simpa using List.find?_some hfind
    have hleads : region <+: s := List.isPrefixOf_iff_prefix.mp hfound
    constructor
    · intro hself
      have hlength := congrArg List.length hself
      have hle := hleads.length_le
      have hpos : 0 < region.length := by
        revert hregion
        rw [bedrockRegionPrefix]
        simp only [List.mem_cons, List.not_mem_nil, or_false]
        rintro (rfl | rfl | rfl)
        · decide
        · decide
        · decide
      rw [List.length_drop] at hlength
      omega
    · intro hnone
      exact absurd hleads (hnone region hregion)

end Region

section Trim

variable {s : Runes}

private theorem trimSpace_sublist (s : Runes) : (trimSpace s).Sublist s :=
  (List.rdropWhile_prefix isSpace _).sublist.trans (List.dropWhile_suffix isSpace).sublist

private theorem dropWhile_eq_self_iff :
    s.dropWhile isSpace = s ↔ ∀ x, s.head? = some x → isSpace x = false := by
  cases s with
  | nil => simp
  | cons c rest => simp

private theorem rdropWhile_eq_self_iff :
    s.rdropWhile isSpace = s ↔ ∀ x, s.getLast? = some x → isSpace x = false := by
  rw [List.rdropWhile_eq_self_iff]
  constructor
  · intro h x hx
    obtain ⟨before, rfl⟩ := List.getLast?_eq_some_iff.mp hx
    have hlast := h (List.concat_ne_nil x before)
    rw [List.getLast_concat] at hlast
    exact Bool.eq_false_iff.mpr hlast
  · intro h hne
    rw [h _ (List.getLast?_eq_some_getLast hne)]
    exact Bool.false_ne_true

/-- A string keeps what it is trimmed of where white space begins or ends it. -/
theorem trimSpace_eq_self_iff : trimSpace s = s ↔
    (∀ x, s.head? = some x → isSpace x = false) ∧ ∀ x, s.getLast? = some x → isSpace x = false := by
  rw [← dropWhile_eq_self_iff, ← rdropWhile_eq_self_iff, trimSpace]
  constructor
  · intro h
    have hfirst : s.dropWhile isSpace = s := by
      apply (List.dropWhile_suffix isSpace).sublist.eq_of_length_le
      rw [← congrArg List.length h]
      exact (List.rdropWhile_prefix isSpace _).length_le
    rw [hfirst] at h
    exact ⟨hfirst, h⟩
  · rintro ⟨hfirst, hfinal⟩
    rw [hfirst, hfinal]

private theorem trimSpace_trimSpace (s : Runes) : trimSpace (trimSpace s) = trimSpace s := by
  rw [trimSpace_eq_self_iff, ← dropWhile_eq_self_iff, ← rdropWhile_eq_self_iff]
  refine ⟨?_, List.rdropWhile_idempotent _ _⟩
  rw [dropWhile_eq_self_iff]
  intro x hx
  -- What begins the trimmed string begins the string without its first white space.
  have hhead : (s.dropWhile isSpace).head? = some x := by
    obtain ⟨rest, hrest⟩ := List.head?_eq_some_iff.mp hx
    obtain ⟨tail, htail⟩ := List.rdropWhile_prefix isSpace (s.dropWhile isSpace)
    rw [← trimSpace, hrest] at htail
    rw [← htail]
    rfl
  exact dropWhile_eq_self_iff.mp (List.dropWhile_idempotent _ _) x hhead

end Trim

section Lower

variable {u : LowerCase} {s t : Runes}

/-- A string that lower case leaves as it is. -/
def Lower (u : LowerCase) (s : Runes) : Prop := ∀ c ∈ s, u.toLower c = c

private theorem lower_lowered (s : Runes) : Lower u (lowered u s) := by
  intro c hc
  obtain ⟨x, -, rfl⟩ := List.mem_map.mp hc
  exact u.idem x

private theorem Lower.sublist (h : Lower u s) (hsub : t.Sublist s) : Lower u t :=
  fun c hc => h c (hsub.subset hc)

private theorem Lower.lowered_eq (h : Lower u s) : lowered u s = trimSpace s := by
  rw [lowered]
  have hfixed : ∀ c ∈ trimSpace s, u.toLower c = id c :=
    fun c hc => h c ((trimSpace_sublist s).subset hc)
  rw [List.map_congr_left hfixed, List.map_id]

private theorem lower_of_ascii (h : s.all (fun c => c.toNat < 128 && c.toLower == c) = true) :
    Lower u s := by
  intro c hc
  have hchar := List.all_eq_true.mp h c hc
  rw [Bool.and_eq_true, decide_eq_true_eq, beq_iff_eq] at hchar
  rw [u.ascii c hchar.1, hchar.2]

/-- Lower case neither makes nor removes white space. -/
theorem trimSpace_lowered (s : Runes) : trimSpace (lowered u s) = lowered u s := by
  have htrimmed := trimSpace_eq_self_iff.mp (trimSpace_trimSpace s)
  rw [trimSpace_eq_self_iff, lowered]
  constructor
  · intro x hx
    rw [List.head?_map] at hx
    obtain ⟨c, hc, rfl⟩ := Option.map_eq_some_iff.mp hx
    rw [u.space, htrimmed.1 c hc]
  · intro x hx
    rw [List.getLast?_map] at hx
    obtain ⟨c, hc, rfl⟩ := Option.map_eq_some_iff.mp hx
    rw [u.space, htrimmed.2 c hc]

private theorem lowered_lowered (s : Runes) : lowered u (lowered u s) = lowered u s := by
  rw [(lower_lowered s).lowered_eq, trimSpace_lowered]

end Lower

section Provider

variable {u : LowerCase}

/-- A name that a provider is known under is normalized. -/
theorem normalizeProvider_known {name : Runes}
    (hlower : name.all (fun c => c.toNat < 128 && c.toLower == c) = true)
    (htrim : trimSpace name = name)
    (hvertex : ("vertex_ai-".toList.isPrefixOf name || "vertex_ai_".toList.isPrefixOf name) = false)
    (halias : providerAliases.lookup name = none) : normalizeProvider u name = name := by
  rw [normalizeProvider, (lower_of_ascii hlower).lowered_eq, htrim]
  simp only [hvertex, halias, Bool.false_eq_true, if_false, Option.getD_none]

private theorem providerAliases_known {p : Runes × Runes} (h : p ∈ providerAliases) :
    normalizeProvider u p.2 = p.2 := by
  have hknown : ∀ p ∈ providerAliases, (p.2.all (fun c => c.toNat < 128 && c.toLower == c) = true) ∧
    trimSpace p.2 = p.2 ∧
      ("vertex_ai-".toList.isPrefixOf p.2 || "vertex_ai_".toList.isPrefixOf p.2) = false ∧
      providerAliases.lookup p.2 = none := by
    decide
  obtain ⟨hlower, htrim, hvertex, halias⟩ := hknown p h
  exact normalizeProvider_known hlower htrim hvertex halias

/-- A normalized provider stays as it is. -/
theorem normalizeProvider_idempotent (provider : Runes) :
    normalizeProvider u (normalizeProvider u provider) = normalizeProvider u provider := by
  generalize hname : normalizeProvider u provider = name
  rw [normalizeProvider] at hname
  split_ifs at hname with hvertex
  · rw [← hname]
    apply normalizeProvider_known
    · decide
    · decide
    · decide
    · decide
  · cases halias : providerAliases.lookup (lowered u provider) with
    | some canonical =>
      rw [halias, Option.getD_some] at hname
      have hmem : (lowered u provider, canonical) ∈ providerAliases := by
        obtain ⟨before, after, htable, -⟩ := List.lookup_eq_some_iff.mp halias
        rw [htable]
        exact List.mem_append_right _ List.mem_cons_self
      rw [← hname]
      exact providerAliases_known hmem
    | none =>
      rw [halias, Option.getD_none] at hname
      rw [← hname, normalizeProvider, lowered_lowered]
      simp only [hvertex, halias, Bool.false_eq_true, if_false, Option.getD_none]

end Provider

section Dots

variable {s : Runes}

/-- A dot and a digit begin the string. -/
def StartsDot (s : Runes) : Prop := ∃ b rest, s = '.' :: b :: rest ∧ b.isDigit = true

/-- A dot between two digits. -/
def HasVersion (s : Runes) : Prop :=
  ∃ a b : Char, a.isDigit = true ∧ b.isDigit = true ∧ [a, '.', b] <:+: s

private theorem dotVersion_match {a dot b : Char} {rest : Runes}
    (h : a.isDigit = true ∧ dot = '.' ∧ b.isDigit = true) :
    dotVersion (a :: dot :: b :: rest) = a :: '-' :: b :: dotVersion rest := by
  rw [dotVersion, if_pos h]

private theorem dotVersion_pass {a dot b : Char} {rest : Runes}
    (h : ¬(a.isDigit = true ∧ dot = '.' ∧ b.isDigit = true)) :
    dotVersion (a :: dot :: b :: rest) = a :: dotVersion (dot :: b :: rest) := by
  rw [dotVersion, if_neg h]

private theorem dotVersion_short (s : Runes)
    (h : ∀ (a dot b : Char) (rest : List Char), s = a :: dot :: b :: rest → False) :
    dotVersion s = s :=
  dotVersion.eq_2 s h

/-- The rewriting goes on behind a match, passes any other character, and ends at a string too
short for a match. -/
private theorem dotVersion_induction {motive : Runes → Prop}
    (matched : ∀ a dot b rest, a.isDigit = true ∧ dot = '.' ∧ b.isDigit = true → motive rest →
      motive (a :: dot :: b :: rest))
    (passed : ∀ a dot b rest, ¬(a.isDigit = true ∧ dot = '.' ∧ b.isDigit = true) →
      motive (dot :: b :: rest) → motive (a :: dot :: b :: rest))
    (short : ∀ s : Runes,
      (∀ (a dot b : Char) (rest : List Char), s = a :: dot :: b :: rest → False) → motive s)
    (s : Runes) : motive s :=
  dotVersion.induct motive matched passed short s

private theorem length_dotVersion (s : Runes) : (dotVersion s).length = s.length := by
  induction s using dotVersion_induction with
  | matched a dot b rest h ih =>
    rw [dotVersion_match h]
    simp only [List.length_cons, ih]
  | passed a dot b rest h ih =>
    rw [dotVersion_pass h]
    simp only [List.length_cons, ih]
  | short s h => rw [dotVersion_short s h]

private theorem head_dotVersion (s : Runes) : (dotVersion s).head? = s.head? := by
  cases s using dotVersion_induction with
  | matched a dot b rest h => rw [dotVersion_match h]; rfl
  | passed a dot b rest h => rw [dotVersion_pass h]; rfl
  | short s h => rw [dotVersion_short s h]

private theorem last_dotVersion (s : Runes) : (dotVersion s).getLast? = s.getLast? := by
  induction s using dotVersion_induction with
  | matched a dot b rest h ih =>
    rw [dotVersion_match h]
    simp only [List.getLast?_cons, ih, Option.getD_some]
  | passed a dot b rest h ih =>
    rw [dotVersion_pass h]
    simp only [List.getLast?_cons, ih, Option.getD_some]
  | short s h => rw [dotVersion_short s h]

/-- A match begins with a digit, and has a dot and a digit after it. -/
theorem dotVersion_cons_of_not {a : Char} (h : ¬(a.isDigit = true ∧ StartsDot s)) :
    dotVersion (a :: s) = a :: dotVersion s := by
  match s with
  | [] => rfl
  | [_] => rfl
  | dot :: b :: rest =>
    rw [dotVersion_pass]
    rintro ⟨ha, rfl, hb⟩
    exact h ⟨ha, b, rest, rfl, hb⟩

private theorem dotVersion_cons {a : Char} (h : a.isDigit = false) (s : Runes) :
    dotVersion (a :: s) = a :: dotVersion s := by
  apply dotVersion_cons_of_not
  rw [h]
  exact fun hstarts => Bool.false_ne_true hstarts.1

private theorem prefix_dotVersion_iff {p : Runes} (hp : ∀ c ∈ p, c.isDigit = false) (s : Runes) :
    p <+: dotVersion s ↔ p <+: s := by
  induction p generalizing s with
  | nil => simp only [List.nil_prefix]
  | cons c p ih =>
    obtain ⟨hc, hp⟩ := List.forall_mem_cons.mp hp
    cases s with
    | nil => rfl
    | cons x rest =>
      by_cases hx : x = c
      · rw [hx, dotVersion_cons hc, List.cons_prefix_cons, List.cons_prefix_cons, ih hp]
      · have hhead := head_dotVersion (x :: rest)
        rw [List.head?_cons] at hhead
        obtain ⟨tail, htail⟩ := List.head?_eq_some_iff.mp hhead
        rw [htail, List.cons_prefix_cons, List.cons_prefix_cons]
        constructor
        · rintro ⟨rfl, -⟩
          exact absurd rfl hx
        · rintro ⟨rfl, -⟩
          exact absurd rfl hx

private theorem startsDot_dotVersion_iff (s : Runes) : StartsDot (dotVersion s) ↔ StartsDot s := by
  have hdot : ('.' : Char).isDigit = false := rfl
  constructor
  · rintro ⟨b, rest, hs, hb⟩
    have hhead := head_dotVersion s
    rw [hs, List.head?_cons] at hhead
    obtain ⟨tail, rfl⟩ := List.head?_eq_some_iff.mp hhead.symm
    rw [dotVersion_cons hdot, List.cons.injEq] at hs
    have hnext := head_dotVersion tail
    rw [hs.2, List.head?_cons] at hnext
    obtain ⟨tail', rfl⟩ := List.head?_eq_some_iff.mp hnext.symm
    exact ⟨b, tail', rfl, hb⟩
  · rintro ⟨b, rest, rfl, hb⟩
    rw [dotVersion_cons hdot]
    have hnext := head_dotVersion (b :: rest)
    rw [List.head?_cons] at hnext
    obtain ⟨tail, htail⟩ := List.head?_eq_some_iff.mp hnext
    exact ⟨b, tail, by rw [htail], hb⟩

private theorem hasVersion_cons {a : Char} :
    HasVersion (a :: s) ↔ (a.isDigit = true ∧ StartsDot s) ∨ HasVersion s := by
  constructor
  · rintro ⟨x, b, hx, hb, hpart⟩
    obtain hleads | hpart := List.infix_cons_iff.mp hpart
    · obtain ⟨rfl, rest, rfl⟩ := List.cons_prefix_cons.mp hleads
      exact .inl ⟨hx, b, rest, rfl, hb⟩
    · exact .inr ⟨x, b, hx, hb, hpart⟩
  · rintro (⟨ha, b, rest, rfl, hb⟩ | ⟨x, b, hx, hb, hpart⟩)
    · exact ⟨a, b, ha, hb, ⟨[], rest, rfl⟩⟩
    · exact ⟨x, b, hx, hb, List.infix_cons hpart⟩

private theorem hasTriple_cons {a : Char} : HasTriple (a :: s) ↔
    (a.isDigit = true ∧ ∃ b rest, s = '.' :: b :: rest ∧ b.isDigit = true ∧ StartsDot rest) ∨
    HasTriple s := by
  constructor
  · rintro ⟨x, b, d, hx, hb, hd, hpart⟩
    obtain hleads | hpart := List.infix_cons_iff.mp hpart
    · obtain ⟨rfl, rest, rfl⟩ := List.cons_prefix_cons.mp hleads
      exact .inl ⟨hx, b, '.' :: d :: rest, rfl, hb, d, rest, rfl, hd⟩
    · exact .inr ⟨x, b, d, hx, hb, hd, hpart⟩
  · rintro (⟨ha, b, rest, rfl, hb, d, rest', rfl, hd⟩ | ⟨x, b, d, hx, hb, hd, hpart⟩)
    · exact ⟨a, b, d, ha, hb, hd, ⟨[], rest', rfl⟩⟩
    · exact ⟨x, b, d, hx, hb, hd, List.infix_cons hpart⟩

private theorem not_hasVersion_of_short (h : s.length < 3) : ¬HasVersion s := by
  rintro ⟨a, b, -, -, hpart⟩
  have hle := hpart.length_le
  simp only [List.length_cons, List.length_nil] at hle
  omega

private theorem not_hasTriple_of_short (h : s.length < 3) : ¬HasTriple s := by
  rintro ⟨a, b, d, -, -, -, hpart⟩
  have hle := hpart.length_le
  simp only [List.length_cons, List.length_nil] at hle
  omega

private theorem short_of_unmatched (h : ∀ a dot b rest, s = a :: dot :: b :: rest → False) :
    s.length < 3 := by
  match s with
  | [] => exact Nat.zero_lt_succ _
  | [_] => exact Nat.lt_of_sub_eq_succ rfl
  | [_, _] => exact Nat.lt_of_sub_eq_succ rfl
  | a :: dot :: b :: rest => exact (h a dot b rest rfl).elim

/-- A string without a version keeps its dots. -/
theorem dotVersion_eq_self_iff (s : Runes) : dotVersion s = s ↔ ¬HasVersion s := by
  induction s using dotVersion_induction with
  | matched a dot b rest h ih =>
    obtain ⟨ha, rfl, hb⟩ := h
    rw [dotVersion_match ⟨ha, rfl, hb⟩]
    constructor
    · intro hself
      obtain ⟨hdot, -⟩ := List.cons.inj (List.cons.inj hself).2
      cases hdot
    · intro hnone
      exact absurd (hasVersion_cons.mpr (.inl ⟨ha, b, rest, rfl, hb⟩)) hnone
  | passed a dot b rest h ih =>
    have hcons : HasVersion (a :: dot :: b :: rest) ↔ HasVersion (dot :: b :: rest) := by
      rw [@hasVersion_cons (dot :: b :: rest) a, or_iff_right]
      rintro ⟨ha, b', rest', heq, hb⟩
      obtain ⟨rfl, rfl, rfl⟩ : dot = '.' ∧ b = b' ∧ rest = rest' := by simpa using heq
      exact h ⟨ha, rfl, hb⟩
    rw [dotVersion_pass h, List.cons.injEq, eq_self, true_and, ih, hcons]
  | short s h =>
    rw [dotVersion_short s h, eq_self, true_iff]
    exact not_hasVersion_of_short (short_of_unmatched h)

/-- A version is left where a digit belongs to two of them. -/
theorem hasVersion_dotVersion_iff (s : Runes) : HasVersion (dotVersion s) ↔ HasTriple s := by
  induction s using dotVersion_induction with
  | matched a dot b rest h ih =>
    obtain ⟨ha, rfl, hb⟩ := h
    have hdash : ('-' : Char).isDigit = false := rfl
    have hdot : ('.' : Char).isDigit = false := rfl
    have hnotDot : ∀ rest, ¬StartsDot ('-' :: rest) := by
      rintro rest ⟨_, _, heq, -⟩
      cases heq
    rw [dotVersion_match ⟨ha, rfl, hb⟩, hasVersion_cons, hasVersion_cons, hasVersion_cons,
      hasTriple_cons, hasTriple_cons, hasTriple_cons, startsDot_dotVersion_iff, ih]
    simp only [ha, hb, hdash, hdot, true_and, Bool.false_eq_true, false_and, false_or, hnotDot]
    constructor
    · rintro (hstarts | htriple)
      · exact .inl ⟨b, rest, rfl, hb, hstarts⟩
      · exact .inr (.inr htriple)
    · rintro (⟨b', rest', heq, -, hstarts⟩ | ⟨b', rest', heq, hb', -⟩ | htriple)
      · obtain ⟨rfl, rfl⟩ : b = b' ∧ rest = rest' := by simpa using heq
        exact .inl hstarts
      · exact .inl ⟨b', rest', heq, hb'⟩
      · exact .inr htriple
  | passed a dot b rest h ih =>
    rw [dotVersion_pass h, hasVersion_cons, hasTriple_cons, startsDot_dotVersion_iff, ih]
    have hunmatched : ¬(a.isDigit = true ∧ StartsDot (dot :: b :: rest)) := by
      rintro ⟨ha, b', rest', heq, hb⟩
      obtain ⟨rfl, rfl, rfl⟩ : dot = '.' ∧ b = b' ∧ rest = rest' := by simpa using heq
      exact h ⟨ha, rfl, hb⟩
    constructor
    · rintro (hstarts | htriple)
      · exact absurd hstarts hunmatched
      · exact .inr htriple
    · rintro (⟨ha, b', rest', heq, hb, -⟩ | htriple)
      · exact absurd ⟨ha, b', rest', heq, hb⟩ hunmatched
      · exact .inr htriple
  | short s h =>
    rw [dotVersion_short s h]
    have hshort := short_of_unmatched h
    exact iff_of_false (not_hasVersion_of_short hshort) (not_hasTriple_of_short hshort)

end Dots

section Version

variable {s : Runes} {a : Char}

/-- A version suffix has a hyphen at its beginning only, and no dots. -/
theorem bedrockVersionSuffix_chars (h : bedrockVersionSuffix (a :: s) = true) :
    a = '-' ∧ '-' ∉ s ∧ '.' ∉ s := by
  unfold bedrockVersionSuffix at h
  split at h
  next rest heq =>
    obtain ⟨rfl, rfl⟩ := List.cons.inj heq
    have hchars : ∀ c ∈ rest, c.isDigit = true ∨ c = ':' := by
      split at h
      next _ _ _ minor _ hminor =>
        rw [Bool.and_eq_true] at h
        intro c hc
        rw [← List.takeWhile_append_dropWhile (p := Char.isDigit) (l := rest), List.mem_append,
          hminor] at hc
        obtain hc | hc := hc
        · exact .inl (List.mem_takeWhile_imp hc)
        · obtain rfl | hc := List.mem_cons.mp hc
          · exact .inr rfl
          · exact .inl (List.all_eq_true.mp h.2 c hc)
      next => cases h
    refine ⟨rfl, ?_, ?_⟩
    · rintro (_ | ⟨_, hc⟩)
      obtain hdigit | hcolon := hchars _ hc
      · cases hdigit
      · cases hcolon
    · rintro (_ | ⟨_, hc⟩)
      obtain hdigit | hcolon := hchars _ hc
      · cases hdigit
      · cases hcolon
  next => cases h

private theorem dotVersion_of_no_dot (h : '.' ∉ s) : dotVersion s = s := by
  rw [dotVersion_eq_self_iff]
  rintro ⟨a, b, -, -, hpart⟩
  exact h (hpart.subset (List.mem_cons_of_mem _ List.mem_cons_self))

/-- A dot that is rewritten leaves a hyphen. -/
theorem dotVersion_of_no_dash (h : '-' ∉ dotVersion s) : dotVersion s = s := by
  induction s using dotVersion_induction with
  | matched a dot b rest hmatch ih =>
    rw [dotVersion_match hmatch] at h
    exact absurd (List.mem_cons_of_mem _ List.mem_cons_self) h
  | passed a dot b rest hmatch ih =>
    rw [dotVersion_pass hmatch] at h ⊢
    rw [ih (fun hmem => h (List.mem_cons_of_mem _ hmem))]
  | short s hshort => exact dotVersion_short s hshort

/-- A version suffix is none of the dotted versions. -/
theorem bedrockVersionSuffix_dotVersion (a : Char) (s : Runes) :
    bedrockVersionSuffix (a :: dotVersion s) = bedrockVersionSuffix (a :: s) := by
  rw [Bool.eq_iff_iff]
  constructor
  · intro h
    rw [dotVersion_of_no_dash (bedrockVersionSuffix_chars h).2.1] at h
    exact h
  · intro h
    rw [dotVersion_of_no_dot (bedrockVersionSuffix_chars h).2.2]
    exact h

private theorem no_tail_cons {describes : Runes → Bool} :
    (∀ t, t <:+ a :: s → describes t = false) ↔ describes (a :: s) = false ∧ ∀ t, t <:+ s →
    describes t = false := by
  constructor
  · intro h
    exact ⟨h _ List.suffix_rfl, fun t ht => h t (ht.trans (List.suffix_cons a s))⟩
  · rintro ⟨hwhole, htails⟩ t ht
    obtain rfl | ht := List.suffix_cons_iff.mp ht
    · exact hwhole
    · exact htails t ht

private theorem bedrockVersionSuffix_of_ne (h : a ≠ '-') :
    bedrockVersionSuffix (a :: s) = false := by
  rw [Bool.eq_false_iff]
  intro hsuffix
  exact h (bedrockVersionSuffix_chars hsuffix).1

private theorem no_version_dotVersion_iff (s : Runes) :
    (∀ t, t <:+ dotVersion s → bedrockVersionSuffix t = false) ↔
    ∀ t, t <:+ s → bedrockVersionSuffix t = false := by
  induction s using dotVersion_induction with
  | matched a dot b rest h ih =>
    obtain ⟨ha, rfl, hb⟩ := h
    have hdigit : ∀ {c : Char}, c.isDigit = true → c ≠ '-' := by
      rintro _ hc rfl
      cases hc
    have hdash : ∀ l, bedrockVersionSuffix ('-' :: b :: l) = false := by
      intro l
      rw [Bool.eq_false_iff]
      intro hsuffix
      unfold bedrockVersionSuffix at hsuffix
      split at hsuffix
      next rest' heq =>
        obtain ⟨rfl, -⟩ := List.cons.inj (List.cons.inj heq).2
        cases hb
      next => cases hsuffix
    rw [dotVersion_match ⟨ha, rfl, hb⟩]
    simp only [no_tail_cons, ih, hdash, bedrockVersionSuffix_of_ne (hdigit ha),
      bedrockVersionSuffix_of_ne (hdigit hb), bedrockVersionSuffix_of_ne (show '.' ≠ '-' by decide)]
  | passed a dot b rest h ih =>
    rw [dotVersion_pass h, no_tail_cons, ih, bedrockVersionSuffix_dotVersion, ← no_tail_cons]
  | short s h => rw [dotVersion_short s h]

end Version

section Date

variable {s t : Runes} {a b x y : Char}

/-- A dot may be rewritten, and nothing else. -/
def Rewritten (x y : Char) : Prop := y = x ∨ (x = '.' ∧ y = '-')

private theorem dotVersion_rewritten (s : Runes) : List.Forall₂ Rewritten s (dotVersion s) := by
  induction s using dotVersion_induction with
  | matched a dot b rest h ih =>
    rw [dotVersion_match h]
    exact .cons (.inl rfl) (.cons (.inr ⟨h.2.1, rfl⟩) (.cons (.inl rfl) ih))
  | passed a dot b rest h ih =>
    rw [dotVersion_pass h]
    exact .cons (.inl rfl) ih
  | short s h =>
    rw [dotVersion_short s h]
    exact List.forall₂_same.mpr fun _ _ => .inl rfl

private theorem Rewritten.digit (h : Rewritten x y) (hy : y.isDigit = true) : x.isDigit = true := by
  obtain rfl | ⟨-, rfl⟩ := h
  · exact hy
  · cases hy

private theorem Rewritten.dash (h : Rewritten x '-') : (x == '-' || x == '.') = true := by
  obtain rfl | ⟨rfl, -⟩ := h
  · rfl
  · rfl

/-- What is rewritten to a date is one with hyphens or dots. -/
theorem dateParts_of_rewritten (h : List.Forall₂ Rewritten s t)
    (hdate : dateSuffix ('-' :: t) = true) :
    dateParts s = true := by
  unfold dateSuffix at hdate
  split at hdate
  next heq =>
    obtain ⟨-, rfl⟩ := List.cons.inj heq
    simp only [List.all_cons, List.all_nil, Bool.and_true, Bool.and_eq_true] at hdate
    obtain _ | ⟨h1, _ | ⟨h2, _ | ⟨h3, _ | ⟨h4, _ | ⟨h5, _ | ⟨h6, _ | ⟨h7, _ | ⟨h8, ⟨⟩⟩⟩⟩⟩⟩⟩⟩⟩ := h
    simp [dateParts, h1.digit hdate.1, h2.digit hdate.2.1, h3.digit, h4.digit, h5.digit, h6.digit,
      h7.digit, h8.digit, hdate]
  next heq =>
    obtain ⟨-, rfl⟩ := List.cons.inj heq
    simp only [List.all_cons, List.all_nil, Bool.and_true, Bool.and_eq_true] at hdate
    obtain _ | ⟨h1, _ | ⟨h2,
      _ | ⟨h3, _ | ⟨h4, _ | ⟨hx, _ | ⟨h5, _ | ⟨h6, _ | ⟨hy, _ | ⟨h7, _ | ⟨h8, ⟨⟩⟩⟩⟩⟩⟩⟩⟩⟩⟩⟩ := h
    have hseps := And.intro hx.dash hy.dash
    simp only [Bool.or_eq_true] at hseps
    simp [dateParts, h1.digit, h2.digit, h3.digit, h4.digit, h5.digit, h6.digit, h7.digit, h8.digit,
      hdate, hx.dash, hy.dash]
  next => cases hdate

private theorem ne_dot (h : a.isDigit = true) : a ≠ '.' := by
  rintro rfl
  cases h

/-- A date is rewritten to one with hyphens. -/
theorem dateSuffix_of_dateParts (h : dateParts s = true) :
    dateSuffix ('-' :: dotVersion s) = true := by
  unfold dateParts at h
  split at h
  next a b c d e f g i =>
    have hnone : '.' ∉ [a, b, c, d, e, f, g, i] := by
      intro hdot
      cases List.all_eq_true.mp h _ hdot
    rw [dotVersion_of_no_dot hnone]
    exact h
  next a b c d x e f y g i =>
    rw [Bool.and_eq_true] at h
    obtain ⟨hdigits, hseps⟩ := h
    simp only [List.all_cons, List.all_nil, Bool.and_true, Bool.and_eq_true, Bool.or_eq_true,
      beq_iff_eq] at hdigits hseps
    obtain ⟨ha, hb, hc, hd, he, hf, hg, hi⟩ := hdigits
    obtain ⟨rfl | rfl, rfl | rfl⟩ := hseps
    all_goals
      simp [dotVersion, dateSuffix, ne_dot, ha, hb, hc, hd, he, hf, hg, hi]
  next => cases h

private theorem dateSuffix_dotVersion (s : Runes) :
    dateSuffix ('-' :: dotVersion s) = dateParts s := by
  rw [Bool.eq_iff_iff]
  exact ⟨dateParts_of_rewritten (dotVersion_rewritten s), dateSuffix_of_dateParts⟩

private theorem dateSuffix_of_ne (h : a ≠ '-') : dateSuffix (a :: s) = false := by
  rw [Bool.eq_false_iff]
  intro hdate
  unfold dateSuffix at hdate
  split at hdate
  next heq => exact h (List.cons.inj heq).1
  next heq => exact h (List.cons.inj heq).1
  next => cases hdate

private theorem head_dateParts (h : dateParts s = true) :
    ∃ b rest, s = b :: rest ∧ b.isDigit = true := by
  unfold dateParts at h
  split at h
  next a b c d e f g i => exact ⟨a, _, rfl, List.all_eq_true.mp h a List.mem_cons_self⟩
  next a b c d x e f y g i =>
    rw [Bool.and_eq_true] at h
    exact ⟨a, _, rfl, List.all_eq_true.mp h.1 a List.mem_cons_self⟩
  next => cases h

/-- Other than after a hyphen, a date is after a digit and a dot. -/
theorem startsDot_of_datedTail (ha : a ≠ '-') (h : datedTail (a :: s) = true) :
    a.isDigit = true ∧ StartsDot s := by
  unfold datedTail at h
  split at h
  next heq => exact absurd (List.cons.inj heq).1 ha
  next parts _ heq =>
    obtain ⟨rfl, rfl⟩ := List.cons.inj heq
    rw [Bool.and_eq_true] at h
    obtain ⟨b, rest, rfl, hb⟩ := head_dateParts h.2
    exact ⟨h.1, b, rest, rfl, hb⟩
  next => cases h

private theorem length_dateParts (h : dateParts s = true) : 8 ≤ s.length := by
  unfold dateParts at h
  split at h
  next => simp
  next => simp
  next => cases h

private theorem dateSuffix_short (h : t.length < 3) :
    dateSuffix t = false ∧ datedTail t = false := by
  rw [Bool.eq_false_iff, Bool.eq_false_iff]
  constructor
  · intro hdate
    unfold dateSuffix at hdate
    split at hdate
    next => simp at h
    next => simp at h
    next => cases hdate
  · intro hdated
    unfold datedTail at hdated
    split at hdated
    next parts =>
      have hlength := length_dateParts hdated
      simp only [List.length_cons] at h
      omega
    next a parts _ =>
      rw [Bool.and_eq_true] at hdated
      have hlength := length_dateParts hdated.2
      simp only [List.length_cons] at h
      omega
    next => cases hdated

private theorem dateSuffix_cons (h : ¬(a.isDigit = true ∧ StartsDot s)) :
    dateSuffix (a :: dotVersion s) = datedTail (a :: s) := by
  by_cases ha : a = '-'
  · subst ha
    rw [dateSuffix_dotVersion]
    rfl
  · rw [dateSuffix_of_ne ha, eq_comm, Bool.eq_false_iff]
    exact fun hdated => h (startsDot_of_datedTail ha hdated)

/-- The dates that the rewritten dots make can be told beforehand, where no digit is between
two of them. -/
theorem no_date_dotVersion_iff (h : ¬HasTriple s) :
    (∀ t, t <:+ dotVersion s → dateSuffix t = false) ↔ ∀ t, t <:+ s → datedTail t = false := by
  induction s using dotVersion_induction with
  | matched a dot b rest hmatch ih =>
    obtain ⟨ha, rfl, hb⟩ := hmatch
    have hnext : ¬StartsDot rest :=
      fun hstarts => h (hasTriple_cons.mpr (.inl ⟨ha, b, rest, rfl, hb, hstarts⟩))
    have hrest : ¬HasTriple rest := fun htriple =>
      h (hasTriple_cons.mpr (.inr (hasTriple_cons.mpr (.inr (hasTriple_cons.mpr (.inr htriple))))))
    have hdash {c : Char} (hc : c.isDigit = true) : c ≠ '-' := by
      rintro rfl
      cases hc
    have hlast : dateSuffix ('-' :: b :: dotVersion rest) = datedTail (a :: '.' :: b :: rest) := by
      rw [← dotVersion_cons_of_not (fun hstarts => hnext hstarts.2), dateSuffix_dotVersion]
      simp [datedTail, ha, hdash ha]
    have hdot : datedTail ('.' :: b :: rest) = false := by
      rw [Bool.eq_false_iff]
      intro hdated
      cases (startsDot_of_datedTail (by decide) hdated).1
    have hb' : datedTail (b :: rest) = false := by
      rw [Bool.eq_false_iff]
      exact fun hdated => hnext (startsDot_of_datedTail (hdash hb) hdated).2
    rw [dotVersion_match ⟨ha, rfl, hb⟩]
    simp only [no_tail_cons, dateSuffix_of_ne (hdash ha), dateSuffix_of_ne (hdash hb), hlast, hdot,
      hb', ih hrest, true_and]
  | passed a dot b rest hmatch ih =>
    have hstarts : ¬(a.isDigit = true ∧ StartsDot (dot :: b :: rest)) := by
      rintro ⟨ha, b', rest', heq, hb⟩
      obtain ⟨rfl, rfl, rfl⟩ : dot = '.' ∧ b = b' ∧ rest = rest' := by simpa using heq
      exact hmatch ⟨ha, rfl, hb⟩
    have hrest : ¬HasTriple (dot :: b :: rest) :=
      fun htriple => h (hasTriple_cons.mpr (.inr htriple))
    rw [dotVersion_pass hmatch, no_tail_cons, dateSuffix_cons hstarts, ih hrest, ← no_tail_cons]
  | short s hshort =>
    rw [dotVersion_short s hshort]
    refine forall₂_congr fun t ht => ?_
    have htail : t.length < 3 := ht.length_le.trans_lt (short_of_unmatched hshort)
    rw [(dateSuffix_short htail).1, (dateSuffix_short htail).2]

end Date

section Model

variable {u : LowerCase} {s c d : Runes}

private theorem mem_dotVersion {x : Char} (h : x ∈ dotVersion s) : x ∈ s ∨ x = '-' := by
  induction s using dotVersion_induction with
  | matched a dot b rest hmatch ih =>
    rw [dotVersion_match hmatch] at h
    simp only [List.mem_cons] at h ⊢
    obtain rfl | rfl | rfl | h := h
    · exact .inl (.inl rfl)
    · exact .inr rfl
    · exact .inl (.inr (.inr (.inl rfl)))
    · exact (ih h).imp_left (fun h => .inr (.inr (.inr h)))
  | passed a dot b rest hmatch ih =>
    rw [dotVersion_pass hmatch] at h
    obtain rfl | h := List.mem_cons.mp h
    · exact .inl List.mem_cons_self
    · exact (ih h).imp_left (List.mem_cons_of_mem a)
  | short s hshort =>
    rw [dotVersion_short s hshort] at h
    exact .inl h

private theorem Lower.dotVersion (h : Lower u s) : Lower u (dotVersion s) := by
  intro x hx
  obtain hx | rfl := mem_dotVersion hx
  · exact h x hx
  · exact u.ascii '-' (by decide)

private theorem stem_sublist (s : Runes) : (stem u s).Sublist (lowered u s) :=
  (cutRegion_suffix _).sublist.trans ((cutTail_leads _ _).sublist.trans (cutTail_leads _ _).sublist)

/-- A string that no step cuts or rewrites. -/
structure Fixed (d : Runes) : Prop where
  trimmed : trimSpace d = d
  version : ∀ t, t <:+ d → bedrockVersionSuffix t = false
  date : ∀ t, t <:+ d → dateSuffix t = false
  region : ∀ r ∈ bedrockRegionPrefix, ¬r <+: d
  dots : ¬HasVersion d

/-- Every step shortens a string, or keeps it. -/
theorem stem_eq_self_iff (hlower : Lower u d) : stem u d = d ↔ trimSpace d = d ∧
    (∀ t, t <:+ d → bedrockVersionSuffix t = false) ∧ (∀ t, t <:+ d → dateSuffix t = false) ∧
    ∀ r ∈ bedrockRegionPrefix, ¬r <+: d := by
  rw [← cutTail_eq_self_iff rfl, ← cutTail_eq_self_iff rfl, ← cutRegion_eq_self_iff]
  constructor
  · intro hstem
    have htrim := trimSpace_sublist d
    have hversion := (cutTail_leads bedrockVersionSuffix (trimSpace d)).sublist
    have hdate := (cutTail_leads dateSuffix (cutTail bedrockVersionSuffix (trimSpace d))).sublist
    have hregion := (cutRegion_suffix
      (cutTail dateSuffix (cutTail bedrockVersionSuffix (trimSpace d)))).sublist
    rw [stem, hlower.lowered_eq] at hstem
    rw [hstem] at hregion
    have hfirst : trimSpace d = d := htrim.antisymm (hregion.trans (hdate.trans hversion))
    rw [hfirst] at hversion hdate hregion hstem
    have hsecond : cutTail bedrockVersionSuffix d = d := hversion.antisymm (hregion.trans hdate)
    rw [hsecond] at hdate hregion hstem
    have hthird : cutTail dateSuffix d = d := hdate.antisymm hregion
    rw [hthird] at hstem
    exact ⟨hfirst, hsecond, hthird, hstem⟩
  · rintro ⟨htrim, hversion, hdate, hregion⟩
    rw [stem, hlower.lowered_eq, htrim, hversion, hdate, hregion]

private theorem aliases_shorten : ∀ p ∈ modelAliases, p.2.length < p.1.length := by decide

/-- Without an alias for it, a model ID stays as it is where no step changes it. -/
theorem normalized_iff (hlower : Lower u d) (halias : modelAliases.lookup d = none) :
    (modelAliases.lookup (dotVersion (stem u d))).getD (dotVersion (stem u d)) = d ↔ Fixed d := by
  constructor
  · intro hself
    have hshort : (dotVersion (stem u d)).length ≤ d.length := by
      rw [length_dotVersion]
      apply (stem_sublist d).length_le.trans
      rw [hlower.lowered_eq]
      exact (trimSpace_sublist d).length_le
    cases hlookup : modelAliases.lookup (dotVersion (stem u d)) with
    | some canonical =>
      rw [hlookup, Option.getD_some] at hself
      obtain ⟨before, after, htable, -⟩ := List.lookup_eq_some_iff.mp hlookup
      have hlonger := aliases_shorten (dotVersion (stem u d), canonical) (by
        rw [htable]
        exact List.mem_append_right _ List.mem_cons_self)
      rw [hself] at hlonger
      exact absurd hshort (Nat.not_le_of_lt hlonger)
    | none =>
      rw [hlookup, Option.getD_none] at hself
      have hsub : (stem u d).Sublist d := by
        apply (stem_sublist d).trans
        rw [hlower.lowered_eq]
        exact trimSpace_sublist d
      have hstem : stem u d = d := by
        apply hsub.eq_of_length
        rw [← length_dotVersion, hself]
      obtain ⟨htrim, hversion, hdate, hregion⟩ := (stem_eq_self_iff hlower).mp hstem
      rw [hstem, dotVersion_eq_self_iff] at hself
      exact ⟨htrim, hversion, hdate, hregion, hself⟩
  · rintro ⟨htrim, hversion, hdate, hregion, hdots⟩
    rw [(stem_eq_self_iff hlower).mpr ⟨htrim, hversion, hdate, hregion⟩,
      (dotVersion_eq_self_iff d).mpr hdots, halias, Option.getD_none]

/-- What a stem is rewritten to is fixed where the stem is settled. -/
theorem fixed_dotVersion_iff : Fixed (dotVersion c) ↔ Settled c := by
  have hregion : (∀ r ∈ bedrockRegionPrefix, ¬r <+: dotVersion c) ↔
      ∀ r ∈ bedrockRegionPrefix, ¬r <+: c := by
    apply forall₂_congr
    intro r hr
    have hletters : (bedrockRegionPrefix.all fun r => r.all fun x => !x.isDigit) = true := by decide
    have hdigits : ∀ x ∈ r, x.isDigit = false := by
      intro x hx
      exact Bool.not_eq_true' _ ▸ List.all_eq_true.mp (List.all_eq_true.mp hletters r hr) x hx
    rw [prefix_dotVersion_iff hdigits]
  constructor
  · rintro ⟨htrim, hversion, hdate, hregions, hdots⟩
    rw [trimSpace_eq_self_iff, head_dotVersion, last_dotVersion] at htrim
    rw [hasVersion_dotVersion_iff] at hdots
    exact ⟨htrim.1, htrim.2, (no_version_dotVersion_iff c).mp hversion, hregion.mp hregions,
      (no_date_dotVersion_iff hdots).mp hdate, hdots⟩
  · rintro ⟨hfirst, hfinal, hversion, hregions, hdate, hdots⟩
    refine ⟨?_, (no_version_dotVersion_iff c).mpr hversion,
      (no_date_dotVersion_iff hdots).mpr hdate, hregion.mpr hregions, ?_⟩
    · rw [trimSpace_eq_self_iff, head_dotVersion, last_dotVersion]
      exact ⟨hfirst, hfinal⟩
    · rw [hasVersion_dotVersion_iff]
      exact hdots

/-- The name that an alias stands for stays as it is. -/
theorem aliases_normalized {p : Runes × Runes} (hp : p ∈ modelAliases) (provider : Runes) :
    (NormalizeModelID u provider p.2).2 = p.2 := by
  have hlower : Lower u p.2 := by
    have hascii : ∀ p ∈ modelAliases, p.2.all (fun c => c.toNat < 128 && c.toLower == c) =
      true := by decide
    exact lower_of_ascii (hascii p hp)
  have hsame : ∀ p ∈ modelAliases,
    (modelAliases.lookup (dotVersion (cutRegion (cutTail dateSuffix (cutTail bedrockVersionSuffix
      (trimSpace p.2)))))).getD
        (dotVersion (cutRegion
        (cutTail dateSuffix (cutTail bedrockVersionSuffix (trimSpace p.2))))) =
      p.2 := by
    decide
  simp only [NormalizeModelID, stem, hlower.lowered_eq]
  exact hsame p hp

/-- No dot of an alias is rewritten. -/
theorem isSome_lookup_iff : (modelAliases.lookup (dotVersion c)).isSome = true ↔ IsAlias c := by
  rw [List.lookup_isSome_iff]
  apply exists_congr
  intro p
  apply and_congr_right
  intro hp
  have hletters : (modelAliases.all fun p => p.1.all fun x => !x.isDigit) = true := by decide
  have hdigits : ∀ x ∈ p.1, x.isDigit = false := by
    intro x hx
    exact Bool.not_eq_true' _ ▸ List.all_eq_true.mp (List.all_eq_true.mp hletters p hp) x hx
  have hleads := prefix_dotVersion_iff hdigits c
  rw [beq_iff_eq]
  constructor
  · intro heq
    have hlength := length_dotVersion c
    rw [heq] at hleads hlength
    exact ((hleads.mp List.prefix_rfl).eq_of_length hlength).symm
  · rintro rfl
    exact ((hleads.mpr List.prefix_rfl).eq_of_length (length_dotVersion _).symm).symm

/-- Normalizing is idempotent on the provider, and on a model ID whose stem is an alias or
settled. -/
theorem normalizeModelID_idempotent_iff (u : LowerCase) (provider modelID : Runes) :
    NormalizeModelID u (NormalizeModelID u provider modelID).1
      (NormalizeModelID u provider modelID).2 =
        NormalizeModelID u provider modelID ↔
        IsAlias (stem u modelID) ∨ Settled (stem u modelID) := by
  have hprovider : ∀ m, (NormalizeModelID u (NormalizeModelID u provider modelID).1 m).1 =
      (NormalizeModelID u provider modelID).1 := fun _ => normalizeProvider_idempotent provider
  rw [Prod.ext_iff, hprovider, eq_self, true_and]
  cases halias : modelAliases.lookup (dotVersion (stem u modelID)) with
  | some canonical =>
    obtain ⟨before, after, htable, -⟩ := List.lookup_eq_some_iff.mp halias
    have hmem : (dotVersion (stem u modelID), canonical) ∈ modelAliases := by
      rw [htable]
      exact List.mem_append_right _ List.mem_cons_self
    have hcanonical : (NormalizeModelID u provider modelID).2 = canonical := by
      simp only [NormalizeModelID, halias, Option.getD_some]
    rw [hcanonical]
    apply iff_of_true (aliases_normalized hmem _)
    left
    rw [← isSome_lookup_iff, halias, Option.isSome_some]
  | none =>
    have hmodel : (NormalizeModelID u provider modelID).2 = dotVersion (stem u modelID) := by
      simp only [NormalizeModelID, halias, Option.getD_none]
    have hlower : Lower u (dotVersion (stem u modelID)) :=
      ((lower_lowered modelID).sublist (stem_sublist modelID)).dotVersion
    have hnone : ¬IsAlias (stem u modelID) := by
      rw [← isSome_lookup_iff, halias, Option.isSome_none]
      exact Bool.false_ne_true
    rw [or_iff_right hnone, hmodel, ← fixed_dotVersion_iff, ← normalized_iff hlower halias]
    simp only [NormalizeModelID]

end Model

section Concrete

private theorem toNat_toLower (c : Char) :
    c.toLower.toNat = if 65 ≤ c.toNat ∧ c.toNat ≤ 90 then c.toNat + 32 else c.toNat := by
  have hiff : (c.val ≥ 'A'.val ∧ c.val ≤ 'Z'.val) ↔ 65 ≤ c.toNat ∧ c.toNat ≤ 90 := by
    rw [ge_iff_le, UInt32.le_iff_toNat_le, UInt32.le_iff_toNat_le]
    rfl
  unfold Char.toLower
  by_cases hupper : c.val ≥ 'A'.val ∧ c.val ≤ 'Z'.val
  · rw [dif_pos hupper, if_pos (hiff.mp hupper)]
    have hsum : (c.val + 32).toNat = (c.toNat + 32) % 2 ^ 32 := UInt32.toNat_add _ _
    have hsmall := (hiff.mp hupper).2
    change (c.val + 32).toNat = _
    omega
  · rw [dif_neg hupper, if_neg (fun h => hupper (hiff.mpr h))]

/-- The lower case of ASCII. -/
def asciiLower : LowerCase where
  toLower := Char.toLower
  idem c := by
    apply Char.toNat_inj.mp
    rw [toNat_toLower c.toLower, toNat_toLower c]
    split_ifs <;> omega
  space c := by
    rw [Bool.eq_iff_iff]
    simp only [isSpace, toNat_toLower, List.mem_cons, List.not_mem_nil, or_false, Bool.or_eq_true,
      Bool.and_eq_true, decide_eq_true_eq]
    split_ifs <;> omega
  ascii _ _ := rfl

/-- The last dot of a version of three numbers goes when the result is normalized again. -/
theorem version_renormalized : ∃ provider modelID,
    NormalizeModelID asciiLower (NormalizeModelID asciiLower provider modelID).1
      (NormalizeModelID asciiLower provider modelID).2 ≠
      NormalizeModelID asciiLower provider modelID :=
  ⟨"vllm".toList, "qwen-1.2.3".toList, by decide⟩

example : NormalizeModelID asciiLower "bedrock_converse".toList
    "us.anthropic.claude-haiku-4-5-20251001-v1:0".toList =
    ("bedrock".toList, "anthropic.claude-haiku-4-5".toList) := by
  decide

end Concrete

end openmeterapi.canonical
