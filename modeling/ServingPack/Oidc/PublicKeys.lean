import ServingPack.Oidc.Validator

open golang concurrency

namespace oidc

section Base64

/-- The value of a character of the URL-safe base64 alphabet. -/
def base64Value (c : UInt8) : Option Nat :=
  if 65 ≤ c ∧ c ≤ 90 then some (c.toNat - 65)
  else if 97 ≤ c ∧ c ≤ 122 then some (c.toNat - 71)
  else if 48 ≤ c ∧ c ≤ 57 then some (c.toNat + 4)
  else if c = 45 then some 62
  else if c = 95 then some 63
  else none

/-- The bytes that groups of four values give, the last of them perhaps a shorter one. -/
def quanta : List Nat → Option (List UInt8)
  | [] => some []
  | [_] => none
  | [a, b] => some [UInt8.ofNat (a * 4 + b / 16)]
  | [a, b, c] => some [UInt8.ofNat (a * 4 + b / 16), UInt8.ofNat (b % 16 * 16 + c / 4)]
  | a :: b :: c :: d :: rest =>
    (quanta rest).map (fun bytes => UInt8.ofNat (a * 4 + b / 16) :: UInt8.ofNat
      (b % 16 * 16 + c / 4) ::
      UInt8.ofNat (c % 4 * 64 + d) :: bytes)

/-- `base64.RawURLEncoding.DecodeString`, which reads over line ends. -/
def decodeString (s : GoString) : Option (List UInt8) :=
  ((s.filter (fun c => c ≠ 10 ∧ c ≠ 13)).mapM base64Value).bind quanta

end Base64

/-- An `rsa.PublicKey`. -/
structure PublicKey where
  N : Nat
  E : Int
  deriving DecidableEq

/-- `big.Int.SetBytes`: the integer that bytes encode, the most significant first. -/
def setBytes (bytes : List UInt8) : Nat := bytes.foldl (fun n b => n * 256 + b.toNat) 0

/-- The loop over the bytes of an exponent, in a machine integer. -/
def exponent (bytes : List UInt8) : BitVec 64 :=
  bytes.foldl (fun e b => e * 256 + BitVec.ofNat 64 b.toNat) 0

/-- `parseRSAPublicKey`, none where it fails. -/
def parseRSAPublicKey (k : Jwk) : Option PublicKey :=
  match decodeString k.n, decodeString k.e with
  | some nBytes, some eBytes => some ⟨setBytes nBytes, (exponent eBytes).toInt⟩
  | _, _ => none

namespace publickeys

/-- Whether `crypto/rsa` can verify signatures with a key. -/
def Verifies (key : PublicKey) : Prop := 0 < key.N ∧ 2 ≤ key.E ∧ key.E < 2 ^ 31

instance (key : PublicKey) : Decidable (Verifies key) :=
  inferInstanceAs (Decidable (0 < key.N ∧ 2 ≤ key.E ∧ key.E < 2 ^ 31))

/-- The key that an entry encodes, with its integers as they are. -/
def encoded (k : Jwk) : Option PublicKey :=
  match decodeString k.n, decodeString k.e with
  | some nBytes, some eBytes => some ⟨setBytes nBytes, setBytes eBytes⟩
  | _, _ => none

/-- The key that an entry encodes, where signatures can be verified with it. -/
def verifiable (k : Jwk) : Option PublicKey := (encoded k).filter (fun key => Verifies key)

/-- What a fetch is to cache: the keys that the usable RSA entries encode, the last of each key
id. -/
def usableKeys (set : List Jwk) : Fields PublicKey := set.foldl (addKey verifiable) []

/-- Whether a response with a JWKS leaves the usable keys of it, or, where there are
none, the keys that were cached. -/
structure Caches (v : Validator PublicKey) (w : Validator.Fetcher) (set : List Jwk) : Prop where
  success : ∀ v' noted, v.respond parseRSAPublicKey w (.ok set) = some (v', noted) →
    (v'.fetch w).map Prod.snd = some (.answered none) → v'.publicKeys = usableKeys set
  failure : usableKeys set = [] →
    ∀ v' noted, v.respond parseRSAPublicKey w (.ok set) = some (v', noted) →
    v'.publicKeys = v.publicKeys ∧ ∃ err, (v'.fetch w).map Prod.snd = some (.answered (some err))

/-- The last entry of a kind. -/
def Last (P : Jwk → Prop) (set : List Jwk) (k : Jwk) : Prop :=
  ∃ before after, set = before ++ k :: after ∧ P k ∧ ∀ k' ∈ after, ¬P k'

/-- Whether a key has the modulus of another one and, where it is folded in a machine
integer, its exponent. -/
def WrapsTo (key key' : PublicKey) : Prop := key.N = key'.N ∧ key.E % 2 ^ 64 = key'.E

instance (key key' : PublicKey) : Decidable (WrapsTo key key') :=
  inferInstanceAs (Decidable (key.N = key'.N ∧ key.E % 2 ^ 64 = key'.E))

/-- An RSA entry of a key id that a key can be got from. -/
def Gives (parse : Jwk → Option PublicKey) (kid : GoString) (k : Jwk) : Prop :=
  k.kty = "RSA" ∧ k.kid = kid ∧ (parse k).isSome = true

section Integers

variable {bytes : List UInt8} {k : Jwk} {key key' : PublicKey}

/-- The loop keeps the integer that the bytes encode, modulo the machine integer's size. -/
theorem exponent_eq (bytes : List UInt8) : exponent bytes = BitVec.ofNat 64 (setBytes bytes) := by
  have hloop : ∀ (l : List UInt8) (n : Nat),
    l.foldl (fun e b => e * 256 + BitVec.ofNat 64 b.toNat) (BitVec.ofNat 64 n) =
      BitVec.ofNat 64 (l.foldl (fun n b => n * 256 + b.toNat) n) := by
    intro l
    induction l with
    | nil => exact fun _ => rfl
    | cons b rest ih =>
      intro n
      rw [List.foldl_cons, List.foldl_cons, ← ih]
      congr 1
      rw [BitVec.ofNat_add, BitVec.ofNat_mul]
      rfl
  exact hloop bytes 0

private theorem isSome_parse : (parseRSAPublicKey k).isSome = (encoded k).isSome := by
  rw [parseRSAPublicKey, encoded]
  cases decodeString k.n with
  | none => rfl
  | some nBytes =>
    cases decodeString k.e with
    | none => rfl
    | some eBytes => rfl

private theorem verifiable_eq_some :
    verifiable k = some key ↔ encoded k = some key ∧ Verifies key := by
  rw [verifiable, Option.filter_eq_some_iff, decide_eq_true_eq]

/-- An entry is parsed as a key that signatures can be verified with where the integers
that it encodes wrap to that key's. -/
theorem parse_eq_iff (h : encoded k = some key) (hverifies : Verifies key') :
    parseRSAPublicKey k = some key' ↔ WrapsTo key key' := by
  obtain ⟨N, E⟩ := key'
  obtain ⟨-, hlow, hhigh⟩ := hverifies
  rw [encoded] at h
  rw [parseRSAPublicKey]
  cases hn : decodeString k.n with
  | none =>
    rw [hn] at h
    cases h
  | some nBytes =>
    cases he : decodeString k.e with
    | none =>
      rw [hn, he] at h
      cases h
    | some eBytes =>
      rw [hn, he] at h
      obtain rfl := Option.some.inj h
      simp only [WrapsTo, Option.some.injEq, PublicKey.mk.injEq] at hlow hhigh ⊢
      rw [exponent_eq, BitVec.toInt_eq_toNat_cond, BitVec.toNat_ofNat]
      split_ifs
      · omega
      · omega

/-- What signatures can be verified with is parsed as it is. -/
theorem parse_of_verifiable (h : verifiable k = some key) : parseRSAPublicKey k = some key := by
  obtain ⟨hencoded, hverifies⟩ := verifiable_eq_some.mp h
  rw [parse_eq_iff hencoded hverifies]
  obtain ⟨-, hlow, hhigh⟩ := hverifies
  exact ⟨rfl, by omega⟩

private theorem gives_parse_iff {kid : GoString} :
    Gives parseRSAPublicKey kid k ↔ Gives encoded kid k := by
  rw [Gives, Gives, isSome_parse]

end Integers

section Loop

variable {parse : Jwk → Option PublicKey} {kid : GoString} {set : List Jwk} {k : Jwk}
  {keys : Fields PublicKey}

private theorem addKey_gives (h : Gives parse kid k) :
    Fields.get (addKey parse keys k) kid = parse k := by
  obtain ⟨hkty, hkid, hsome⟩ := h
  obtain ⟨key, hkey⟩ := Option.isSome_iff_exists.mp hsome
  rw [addKey, if_pos hkty, hkey]
  simp only [hkid, Fields.get_set_self]

private theorem addKey_gives_not (h : ¬Gives parse kid k) :
    Fields.get (addKey parse keys k) kid = Fields.get keys kid := by
  rw [addKey]
  split_ifs with hkty
  · cases hkey : parse k with
    | none => rfl
    | some key =>
      apply Fields.get_set_ne
      intro hkid
      exact h ⟨hkty, hkid.symm, by rw [hkey, Option.isSome_some]⟩
  · rfl

private theorem sorted_addKeys (h : Fields.Sorted keys) :
    Fields.Sorted (set.foldl (addKey parse) keys) := by
  induction set generalizing keys with
  | nil => exact h
  | cons k rest ih =>
    apply ih
    rw [addKey]
    split_ifs
    · cases parse k with
      | none => exact h
      | some key => exact Fields.sorted_set h
    · exact h

/-- The loop leaves the key of the last entry of a key id. -/
theorem get_addKeys (parse : Jwk → Option PublicKey) (kid : GoString) (set : List Jwk)
    (keys : Fields PublicKey) :
    ((∀ k ∈ set, ¬Gives parse kid k) ∧
      Fields.get (set.foldl (addKey parse) keys) kid = Fields.get keys kid) ∨
      ∃ k, Last (Gives parse kid) set k ∧
      Fields.get (set.foldl (addKey parse) keys) kid = parse k := by
  induction set generalizing keys with
  | nil => exact .inl ⟨fun _ hk => absurd hk List.not_mem_nil, rfl⟩
  | cons k rest ih =>
    rw [List.foldl_cons]
    obtain ⟨hnone, hget⟩ | ⟨k', ⟨before, after, hrest, hgives, hafter⟩, hget⟩ :=
      ih (addKey parse keys k)
    · by_cases hk : Gives parse kid k
      · right
        exact ⟨k, ⟨[], rest, rfl, hk, hnone⟩, by rw [hget, addKey_gives hk]⟩
      · left
        exact ⟨List.forall_mem_cons.mpr ⟨hk, hnone⟩, by rw [hget, addKey_gives_not hk]⟩
    · right
      exact ⟨k', ⟨k :: before, after, by rw [hrest, List.cons_append], hgives, hafter⟩, hget⟩

/-- The last usable entry of a key ID is usable. -/
theorem Last.holds {P : Jwk → Prop} (h : Last P set k) : P k := by
  obtain ⟨-, -, -, hk, -⟩ := h
  exact hk

private theorem Last.mem {P : Jwk → Prop} (h : Last P set k) : k ∈ set := by
  obtain ⟨before, after, rfl, -⟩ := h
  exact List.mem_append_right _ List.mem_cons_self

private theorem Last.imp {P Q : Jwk → Prop} (h : Last P set k) (hk : Q k) (himp : ∀ k, Q k → P k) :
    Last Q set k := by
  obtain ⟨before, after, hset, -, hafter⟩ := h
  exact ⟨before, after, hset, hk, fun k' hk' hq => hafter k' hk' (himp k' hq)⟩

/-- There is one last entry. -/
theorem Last.unique {P : Jwk → Prop} {k' : Jwk} (h : Last P set k) (h' : Last P set k') :
    k = k' := by
  obtain ⟨before, after, rfl, hk, hafter⟩ := h
  obtain ⟨before', after', hset, hk', hafter'⟩ := h'
  obtain ⟨mid, hbefore, htail⟩ | ⟨mid, hbefore, htail⟩ := List.append_eq_append_iff.mp hset
  · cases mid with
    | nil => exact (List.cons.inj htail).1
    | cons m rest =>
      obtain ⟨-, htail⟩ := List.cons.inj htail
      exact absurd hk' (hafter k' (htail ▸ List.mem_append_right _ List.mem_cons_self))
  · cases mid with
    | nil => exact (List.cons.inj htail).1.symm
    | cons m rest =>
      obtain ⟨-, htail⟩ := List.cons.inj htail
      exact absurd hk (hafter' k (htail ▸ List.mem_append_right _ List.mem_cons_self))

end Loop

section Caches

variable {v : Validator PublicKey} {w : Validator.Fetcher} {trigger : Trigger} {set : List Jwk}
  {kid : GoString} {k : Jwk}

private theorem gives_of_verifiable (h : Gives verifiable kid k) :
    Gives parseRSAPublicKey kid k := by
  obtain ⟨hkty, hkid, hsome⟩ := h
  obtain ⟨key, hkey⟩ := Option.isSome_iff_exists.mp hsome
  exact ⟨hkty, hkid, by rw [parse_of_verifiable hkey, Option.isSome_some]⟩

/-- The keys that are parsed are the usable ones where the last entry of each key id is
usable, or is taken for the last one that is. -/
theorem keys_eq_iff : set.foldl (addKey parseRSAPublicKey) [] = usableKeys set ↔
    ∀ kid k, Last (Gives parseRSAPublicKey kid) set k → (verifiable k).isSome = true ∨
      ∃ k', Last (Gives verifiable kid) set k' ∧ verifiable k' = parseRSAPublicKey k := by
  constructor
  · intro hsame kid k hlast
    right
    obtain ⟨hnone, -⟩ | ⟨k₁, hlast₁, hget₁⟩ := get_addKeys parseRSAPublicKey kid set []
    · exact absurd hlast.holds (hnone k hlast.mem)
    · obtain rfl := hlast.unique hlast₁
      have hgives : Gives parseRSAPublicKey kid k := hlast.holds
      obtain ⟨-, hget⟩ | ⟨k', hlast', hget⟩ := get_addKeys verifiable kid set []
      · rw [← usableKeys, ← hsame, hget₁] at hget
        have hsome := hgives.2.2
        rw [hget] at hsome
        cases hsome
      · rw [← usableKeys, ← hsame, hget₁] at hget
        exact ⟨k', hlast', hget.symm⟩
  · intro hlasts
    apply Fields.Sorted.ext (sorted_addKeys List.Pairwise.nil) (sorted_addKeys List.Pairwise.nil)
    intro kid
    obtain ⟨hnone, hget⟩ | ⟨k, hlast, hget⟩ := get_addKeys parseRSAPublicKey kid set []
    · obtain ⟨-, hget'⟩ | ⟨k', hlast', -⟩ := get_addKeys verifiable kid set []
      · rw [hget, hget']
      · exact absurd (gives_of_verifiable hlast'.holds) (hnone k' hlast'.mem)
    · have hwanted : ∃ k', Last (Gives verifiable kid) set k' ∧
          verifiable k' = parseRSAPublicKey k := by
        obtain husable | hwanted := hlasts kid k hlast
        · obtain ⟨key, hkey⟩ := Option.isSome_iff_exists.mp husable
          have hgives : Gives parseRSAPublicKey kid k := hlast.holds
          refine ⟨k, hlast.imp ⟨hgives.1, hgives.2.1, husable⟩ (fun _ => gives_of_verifiable), ?_⟩
          rw [hkey, parse_of_verifiable hkey]
        · exact hwanted
      obtain ⟨k', hlast', hsame⟩ := hwanted
      obtain ⟨hnone, -⟩ | ⟨k₁, hlast₁, hget₁⟩ := get_addKeys verifiable kid set []
      · exact absurd hlast'.holds (hnone k' hlast'.mem)
      · obtain rfl := hlast'.unique hlast₁
        rw [hget, hget₁, hsame]

/-- What a response with a JWKS comes to. -/
theorem respond_set (set : List Jwk) (hfetch : v.fetch w = some (trigger, .requested)) :
    v.respond parseRSAPublicKey w (.ok set) =
      if (set.foldl (addKey parseRSAPublicKey) []).isEmpty then
        some (v.setFetch (.answered (some (.fetch "no valid RSA keys found"))) w, [])
      else some ({ v with publicKeys := set.foldl (addKey parseRSAPublicKey) [] }.setFetch
        (.answered none) w,
        [.stored (set.foldl (addKey parseRSAPublicKey) [])]) := by
  simp only [Validator.respond, hfetch, keysOf]
  split_ifs
  · rfl
  · rfl

/-- A fetch caches what it is to cache where the keys that are parsed are the usable ones. -/
theorem caches_iff_keys (hfetch : v.fetch w = some (trigger, .requested)) :
    Caches v w set ↔ set.foldl (addKey parseRSAPublicKey) [] = usableKeys set := by
  have hrespond := respond_set set hfetch
  constructor
  · intro hcaches
    by_cases hempty : (set.foldl (addKey parseRSAPublicKey) []).isEmpty = true
    · -- Nothing can be decoded, so nothing is usable either.
      rw [List.isEmpty_iff] at hempty
      rw [hempty]
      apply Fields.Sorted.ext List.Pairwise.nil (sorted_addKeys List.Pairwise.nil)
      intro kid
      obtain ⟨-, hget⟩ | ⟨k, hlast, -⟩ := get_addKeys verifiable kid set []
      · exact hget.symm
      · obtain ⟨hnone, -⟩ | ⟨k', hlast', hget'⟩ := get_addKeys parseRSAPublicKey kid set []
        · exact absurd (gives_of_verifiable hlast.holds) (hnone k hlast.mem)
        · have hsome := hlast'.holds.2.2
          rw [hempty] at hget'
          rw [← hget'] at hsome
          cases hsome
    · rw [if_neg hempty] at hrespond
      have hstored := hcaches.success _ _ hrespond
      rw [Validator.fetch_setFetch hfetch, Validator.publicKeys_setFetch] at hstored
      exact hstored rfl
  · intro hsame
    constructor
    · intro v' noted hstep hanswered
      rw [hrespond] at hstep
      split_ifs at hstep with hempty
      · obtain ⟨rfl, -⟩ := Prod.mk.inj (Option.some.inj hstep)
        rw [Validator.fetch_setFetch hfetch] at hanswered
        cases hanswered
      · obtain ⟨rfl, -⟩ := Prod.mk.inj (Option.some.inj hstep)
        rw [Validator.publicKeys_setFetch, ← hsame]
    · intro hnone v' noted hstep
      rw [hrespond, hsame, hnone, List.isEmpty_nil, if_pos rfl] at hstep
      obtain ⟨rfl, -⟩ := Prod.mk.inj (Option.some.inj hstep)
      exact ⟨Validator.publicKeys_setFetch .., _, by rw [Validator.fetch_setFetch hfetch]; rfl⟩

private theorem verifiable_eq_parse_iff {k' : Jwk} (h : (encoded k).isSome = true)
    (h' : (verifiable k').isSome = true) :
    verifiable k' = parseRSAPublicKey k ↔
      ∃ key key', encoded k = some key ∧ encoded k' = some key' ∧ WrapsTo key key' := by
  obtain ⟨key, hkey⟩ := Option.isSome_iff_exists.mp h
  obtain ⟨key', hkey'⟩ := Option.isSome_iff_exists.mp h'
  obtain ⟨hencoded, hverifies⟩ := verifiable_eq_some.mp hkey'
  rw [hkey', hkey, hencoded, eq_comm, parse_eq_iff hkey hverifies]
  constructor
  · intro hwraps
    exact ⟨key, key', rfl, rfl, hwraps⟩
  · rintro ⟨_, _, h₁, h₂, hwraps⟩
    obtain rfl := Option.some.inj h₁
    obtain rfl := Option.some.inj h₂
    exact hwraps

/-- A fetch caches what it is to cache where, for each key id, the last RSA entry that
can be decoded is usable, or has the modulus and, in a machine integer, the exponent of
the last one that is. -/
theorem caches_iff (hfetch : v.fetch w = some (trigger, .requested)) : Caches v w set ↔
    ∀ kid k, Last (Gives encoded kid) set k → (verifiable k).isSome = true ∨
      ∃ k', Last (Gives verifiable kid) set k' ∧
        ∃ key key', encoded k = some key ∧ encoded k' = some key' ∧ WrapsTo key key' := by
  rw [caches_iff_keys hfetch, keys_eq_iff]
  apply forall_congr'
  intro kid
  apply forall_congr'
  intro k
  have hgives : Gives parseRSAPublicKey kid = Gives encoded kid :=
    funext (fun k => propext gives_parse_iff)
  rw [hgives]
  apply imp_congr_right
  intro hlast
  apply or_congr_right
  apply exists_congr
  intro k'
  apply and_congr_right
  intro hlast'
  exact verifiable_eq_parse_iff hlast.holds.2.2 hlast'.holds.2.2

end Caches

section Concrete

/-- A validator with a key cached, whose next attempt of a fetch has sent its request. -/
def working : Validator PublicKey :=
  { now := 1, publicKeys := [(lit "a", ⟨65537, 65537⟩)], background := .fetching .requested }

/-- An RSA entry. -/
def entry (n e : GoString) : Jwk := ⟨"RSA", "a", n, e⟩

/-- An entry without a modulus and an exponent takes the place of a working key, and an
exponent of nine bytes is cached as the 3 of its last one. -/
theorem entry_cached : ¬Caches working .background [entry "" ""] ∧
    ¬Caches working .background [entry "AQAB" "AQAAAAAAAAAD"] := by
  constructor
  · intro hcaches
    obtain ⟨hkept, -⟩ := hcaches.failure rfl _ _ rfl
    revert hkept
    decide
  · intro hcaches
    obtain ⟨hkept, -⟩ := hcaches.failure rfl _ _ rfl
    revert hkept
    decide

/-- An exponent that wraps to the one before it. -/
def wrapped : Jwk := ⟨"RSA", "d", "AQAB", "AQAAAAAAAQAB"⟩

/-- An entry that another of its key id follows, one of a curve, one that cannot be
decoded, and one whose exponent wraps to that of the one before. -/
def mixed : List Jwk :=
  [entry "" "", ⟨"EC", "b", "AQAB", "AQAB"⟩, ⟨"RSA", "c", "%", "AQAB"⟩,
    ⟨"RSA", "d", "AQAB", "AQAB"⟩, wrapped,
    entry "AQAD" "AQAB"]

/-- The usable ones are cached. -/
theorem mixed_cached : Caches working .background mixed ∧
    usableKeys mixed = [(lit "a", ⟨65539, 65537⟩), (lit "d", ⟨65537, 65537⟩)] := by
  have hfetch : working.fetch .background = some (.initial, .requested) := rfl
  refine ⟨(caches_iff hfetch).mpr fun kid k hlast => ?_, by decide⟩
  have hmem := hlast.mem
  have hgives := hlast.holds
  obtain ⟨hkty, rfl, hsome⟩ := hgives
  simp only [mixed, List.mem_cons, List.not_mem_nil, or_false] at hmem
  obtain rfl | rfl | rfl | rfl | rfl | rfl := hmem
  · -- the last entry of its key id is another one
    have hother : Last (Gives encoded "a") mixed (entry "AQAD" "AQAB") :=
      ⟨mixed.take 5, [], rfl, ⟨rfl, rfl, by decide⟩, by simp⟩
    exact absurd (hlast.unique hother) (by decide)
  · exact absurd hkty (by decide)
  · exact absurd hsome (by decide)
  · left
    decide
  · right
    refine ⟨⟨"RSA", "d", "AQAB", "AQAB"⟩,
      ⟨mixed.take 3, mixed.drop 4, rfl, ⟨rfl, rfl, by decide⟩, ?_⟩, _, _, rfl, rfl, by decide⟩
    intro k' hk'
    obtain rfl | rfl : k' = wrapped ∨ k' = entry "AQAD" "AQAB" := by simpa [mixed] using hk'
    · exact fun hgives => absurd hgives.2.2 (by decide)
    · exact fun hgives => absurd hgives.2.1 (by decide)
  · left
    decide

end Concrete

end publickeys

end oidc
