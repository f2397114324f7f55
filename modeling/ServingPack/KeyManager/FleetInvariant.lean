import ServingPack.KeyManager.Fleet
import ServingPack.Operator.Controller.ApiKeys

open golang apiserver concurrency kube

namespace secrets.fleet

/-- A Secret holds a key under a client ID. -/
def Held (s : Cluster) (name id value : GoString) : Prop :=
  ∃ secret, s.lookup .secret name = some secret ∧ secret.body.data.lookup id = some value

def Phase.Copies (s : Cluster) : Phase → Prop
  | .quiet => True
  | .read name secret => Past s .secret name secret
  | .drew name secret _ => Past s .secret name secret
  | .ready name secret _ _ => Past s .secret name secret

/-- A client ID ends in these random bytes. -/
def EndsIn (suffix : List UInt8) (id _ : GoString) : Prop :=
  ∃ idPrefix, id = idPrefix ++ hexEncode suffix

/-- A key is made of these random bytes. -/
def MadeOf (bytes : List UInt8) (_ value : GoString) : Prop := value = apiKeyText bytes

private theorem EndsIn.eq {suffix suffix' : List UInt8} {id value : GoString}
    (hlength : suffix.length = 8)
    (hlength' : suffix'.length = 8) (h : EndsIn suffix id value) (h' : EndsIn suffix' id value) :
    suffix = suffix' := by
  obtain ⟨idPrefix, rfl⟩ := h
  obtain ⟨idPrefix', heq⟩ := h'
  exact hexEncode_injective
    (List.append_inj' heq (by rw [hexEncode_length, hexEncode_length, hlength, hlength'])).2

private theorem MadeOf.eq {bytes bytes' : List UInt8} {id value : GoString}
    (hlength : bytes.length = 24)
    (hlength' : bytes'.length = 24) (h : MadeOf bytes id value) (h' : MadeOf bytes' id value) :
    bytes = bytes' :=
  apiKeyText_injective hlength hlength' (h.symm.trans h')

/-- The draws the threads hold for one use: no two are the same, and none is
in a pooled Secret yet. -/
def Unused (pool : GoString → Prop) (st : State) (φ : Nat → Phase)
    (use : Phase → Option (List UInt8))
    (length : Nat) (mark : List UInt8 → GoString → GoString → Prop) : Prop :=
  ∀ i bytes, use (φ i) = some bytes → bytes ∈ st.drawn ∧ bytes.length = length ∧
    (∀ name id value, pool name → Held st.cluster name id value → ¬mark bytes id value) ∧
    ∀ j, j ≠ i → use (φ j) ≠ some bytes

/-- The keys of the pooled Secrets, each made of its own draws. -/
structure Inv (pool : GoString → Prop) (st : State) (φ : Nat → Phase) : Prop where
  copies : ∀ i, (φ i).Copies st.cluster
  managed : ∀ name secret, st.cluster.lookup .secret name = some secret →
    hasSuffix name reconcilers.apiKeySecretSuffix = true →
    (selects controller.managedByOperator secret = true ↔ pool name)
  made : ∀ name id value, pool name → Held st.cluster name id value →
    ∃ suffix ∈ st.drawn, ∃ bytes ∈ st.drawn, suffix.length = 8 ∧ bytes.length = 24 ∧
      EndsIn suffix id value ∧ MadeOf bytes id value
  unique : ∀ name id value name' id' value', pool name → pool name' →
    Held st.cluster name id value →
    Held st.cluster name' id' value' → id = id' ∨ value = value' → name = name' ∧ id = id'
  suffixes : Unused pool st φ Phase.suffix 8 EndsIn
  bytes : Unused pool st φ Phase.bytes 24 MadeOf

section Unused

variable {pool : GoString → Prop} {st : State} {φ : Nat → Phase} {use : Phase → Option (List UInt8)}
  {length : Nat} {mark : List UInt8 → GoString → GoString → Prop}

private theorem Unused.move (h : Unused pool st φ use length mark) {i : Nat} {ψ : Phase}
    (huse : use ψ = none ∨ use ψ = use (φ i)) :
    Unused pool st (Function.update φ i ψ) use length mark := by
  have hold (j : Nat) (bytes) (hj : use (Function.update φ i ψ j) = some bytes) :
      use (φ j) = some bytes := by
    by_cases hji : j = i
    · subst j
      rw [Function.update_self] at hj
      rcases huse with hnone | hsame
      · rw [hnone] at hj
        cases hj
      · rwa [← hsame]
    · rwa [Function.update_of_ne hji] at hj
  intro j bytes hj
  obtain ⟨hdrawn, hlength, hfree, hother⟩ := h j bytes (hold j bytes hj)
  exact ⟨hdrawn, hlength, hfree, fun k hk heq => hother k hk (hold k bytes heq)⟩

private theorem Unused.shrink (h : Unused pool st φ use length mark) {s : Cluster}
    (hheld : ∀ name id value, pool name → Held s name id value → Held st.cluster name id value) :
    Unused pool { st with cluster := s } φ use length mark := by
  intro i bytes hi
  obtain ⟨hdrawn, hlength, hfree, hother⟩ := h i bytes hi
  exact ⟨hdrawn, hlength,
    fun name id value hpool hnew => hfree name id value hpool (hheld name id value hpool hnew),
    hother⟩

/-- A draw by another thread, or for another use. -/
theorem Unused.drawOther (h : Unused pool st φ use length mark) {i : Nat} {ψ : Phase}
    (huse : use ψ = use (φ i)) (drawn : List UInt8) :
    Unused pool { st with drawn := drawn :: st.drawn } (Function.update φ i ψ) use length mark := by
  intro j bytes hj
  obtain ⟨hmem, hrest⟩ := h.move (.inr huse) j bytes hj
  exact ⟨List.mem_cons_of_mem drawn hmem, hrest⟩

/-- A fresh draw is unused, as every pooled key was made of earlier ones. -/
theorem Unused.draw (h : Unused pool st φ use length mark) {i : Nat} {ψ : Phase}
    {drawn : List UInt8}
    (huse : use ψ = some drawn) (hfresh : drawn ∉ st.drawn) (hlength : drawn.length = length)
    (hfree : ∀ name id value, pool name → Held st.cluster name id value → ¬mark drawn id value) :
    Unused pool { st with drawn := drawn :: st.drawn } (Function.update φ i ψ) use length mark := by
  have hother (j : Nat) (hji : j ≠ i) : use (φ j) ≠ some drawn :=
    fun heq => hfresh (h j drawn heq).1
  intro j bytes hj
  by_cases hji : j = i
  · subst j
    rw [Function.update_self, huse, Option.some.injEq] at hj
    subst bytes
    refine ⟨List.mem_cons_self .., hlength, hfree, fun k hk => ?_⟩
    rw [Function.update_of_ne hk]
    exact hother k hk
  · rw [Function.update_of_ne hji] at hj
    obtain ⟨hmem, hlength', hfree', hother'⟩ := h j bytes hj
    refine ⟨List.mem_cons_of_mem drawn hmem, hlength', hfree', fun k hk heq => ?_⟩
    by_cases hki : k = i
    · rw [hki, Function.update_self, huse, Option.some.injEq] at heq
      exact hfresh (heq ▸ hmem)
    · rw [Function.update_of_ne hki] at heq
      exact hother' k hk heq

/-- The thread that stores its draws gives them up; those of the others stay unused. -/
theorem Unused.store (h : Unused pool st φ use length mark) {i : Nat} {drawn : List UInt8}
    (huse : use (φ i) = some drawn) (hquiet : use .quiet = none) {s : Cluster}
    {key value : GoString}
    (hheld : ∀ name id v, pool name → Held s name id v → Held st.cluster name id v ∨ id = key ∧
      v = value)
    (hmark : ∀ bytes, bytes.length = length → mark bytes key value → bytes = drawn) :
    Unused pool { st with cluster := s } (Function.update φ i .quiet) use length mark := by
  intro j bytes hj
  have hji : j ≠ i := by
    rintro rfl
    rw [Function.update_self, hquiet] at hj
    cases hj
  obtain ⟨hmem, hlength, hfree, hother⟩ := h.move (.inl hquiet) j bytes hj
  refine ⟨hmem, hlength, fun name id v hpool hnew hmarked => ?_, hother⟩
  rcases hheld name id v hpool hnew with hold | ⟨rfl, rfl⟩
  · exact hfree name id v hpool hold hmarked
  · rw [Function.update_of_ne hji] at hj
    exact (h j bytes hj).2.2.2 i hji.symm (hmark bytes hlength hmarked ▸ huse)

end Unused

section Steps

variable {pool : GoString → Prop} {st : State} {φ : Nat → Phase}

private theorem Inv.copies_update (h : Inv pool st φ) {i : Nat} {ψ : Phase}
    (hcopies : ψ.Copies st.cluster) (j : Nat) :
    (Function.update φ i ψ j).Copies st.cluster := by
  by_cases hji : j = i
  · subst j
    rwa [Function.update_self]
  · rw [Function.update_of_ne hji]
    exact h.copies j

/-- A thread that gives up draws, or keeps them, moves on. -/
theorem Inv.move (h : Inv pool st φ) {i : Nat} {ψ : Phase} (hcopies : ψ.Copies st.cluster)
    (hsuffix : ψ.suffix = none ∨ ψ.suffix = (φ i).suffix)
    (hbytes : ψ.bytes = none ∨ ψ.bytes = (φ i).bytes) :
    Inv pool st (Function.update φ i ψ) :=
  ⟨h.copies_update hcopies, h.managed, h.made, h.unique, h.suffixes.move hsuffix,
    h.bytes.move hbytes⟩

/-- The Secrets only lose keys. -/
theorem Inv.shrink (h : Inv pool st φ) {s : Cluster} (hcopies : ∀ i, (φ i).Copies s)
    (hsub : ∀ name secret, s.lookup .secret name = some secret →
      ∃ old, st.cluster.lookup .secret name = some old ∧
      secret.metadata.labels = old.metadata.labels ∧
      ∀ id value, secret.body.data.lookup id = some value → old.body.data.lookup id = some value) :
    Inv pool { st with cluster := s } φ := by
  have hheld (name id value : GoString) (_ : pool name) (hnew : Held s name id value) :
      Held st.cluster name id value := by
    obtain ⟨secret, hsecret, hid⟩ := hnew
    obtain ⟨old, hold, _, hdata⟩ := hsub name secret hsecret
    exact ⟨old, hold, hdata id value hid⟩
  refine ⟨hcopies, fun name secret hsecret hname => ?_, fun name id value hpool hnew => ?_,
    fun name id value name' id' value' hpool hpool' hnew hnew' => ?_, h.suffixes.shrink hheld,
      h.bytes.shrink hheld⟩
  · obtain ⟨old, hold, hlabels, _⟩ := hsub name secret hsecret
    rw [selects_congr hlabels]
    exact h.managed name old hold hname
  · exact h.made name id value hpool (hheld name id value hpool hnew)
  · exact h.unique name id value name' id' value' hpool hpool' (hheld name id value hpool hnew)
      (hheld name' id' value' hpool' hnew')

/-- Eight fresh random bytes after a read keep the invariant. -/
theorem Inv.drawSuffix (h : Inv pool st φ) {i : Nat} {name : GoString} {secret : Object SecretBody}
    (hi : φ i = .read name secret) {drawn : List UInt8} (hfresh : drawn ∉ st.drawn)
    (hlength : drawn.length = 8) :
    Inv pool { st with drawn := drawn :: st.drawn }
      (Function.update φ i (.drew name secret drawn)) := by
  have hcopies := h.copies i
  rw [hi] at hcopies
  refine ⟨h.copies_update hcopies, h.managed, fun name id value hpool hheld => ?_, h.unique,
    h.suffixes.draw rfl hfresh hlength (fun name id value hpool hheld hends => ?_),
    h.bytes.drawOther (by rw [hi]; rfl) drawn⟩
  · obtain ⟨suffix, hsuffix, bytes, hbytes, hrest⟩ := h.made name id value hpool hheld
    exact ⟨suffix, List.mem_cons_of_mem drawn hsuffix, bytes, List.mem_cons_of_mem drawn hbytes,
      hrest⟩
  · obtain ⟨suffix, hsuffix, _, _, hlength', _, hends', _⟩ := h.made name id value hpool hheld
    exact hfresh (EndsIn.eq hlength hlength' hends hends' ▸ hsuffix)

/-- And so do the key's own twenty-four. -/
theorem Inv.drawBytes (h : Inv pool st φ) {i : Nat} {name : GoString} {secret : Object SecretBody}
    {suffix : List UInt8} (hi : φ i = .drew name secret suffix) {drawn : List UInt8}
    (hfresh : drawn ∉ st.drawn) (hlength : drawn.length = 24) :
    Inv pool { st with drawn := drawn :: st.drawn }
      (Function.update φ i (.ready name secret suffix drawn)) := by
  have hcopies := h.copies i
  rw [hi] at hcopies
  refine ⟨h.copies_update hcopies, h.managed, fun name id value hpool hheld => ?_, h.unique,
    h.suffixes.drawOther (by rw [hi]; rfl) drawn,
    h.bytes.draw rfl hfresh hlength (fun name id value hpool hheld hmade => ?_)⟩
  · obtain ⟨suffix, hsuffix, bytes, hbytes, hrest⟩ := h.made name id value hpool hheld
    exact ⟨suffix, List.mem_cons_of_mem drawn hsuffix, bytes, List.mem_cons_of_mem drawn hbytes,
      hrest⟩
  · obtain ⟨_, _, bytes, hbytes, _, hlength', _, hmade'⟩ := h.made name id value hpool hheld
    exact hfresh (MadeOf.eq hlength hlength' hmade hmade' ▸ hbytes)

/-- A thread stores a key under a client ID, both made of its own draws. -/
theorem Inv.store (h : Inv pool st φ) {i : Nat} {name : GoString}
    {secret stored : Object (Body .secret)}
    {suffix bytes : List UInt8} (hi : φ i = .ready name secret suffix bytes) {s : Cluster}
    (hcopies : ∀ j, (φ j).Copies s) (hold : st.cluster.lookup .secret name = some secret)
    (hother : ∀ other, other ≠ name → s.lookup .secret other = st.cluster.lookup .secret other)
    (hstored : s.lookup .secret name = some stored)
    (hlabels : stored.metadata.labels = secret.metadata.labels) {idPrefix : GoString}
    (hdata : stored.body.data = secret.body.data.insert (idPrefix ++ hexEncode suffix)
      (apiKeyText bytes)) :
    Inv pool { st with cluster := s } (Function.update φ i .quiet) := by
  obtain ⟨hsuffix, hsuffixLength, hsuffixFree, _⟩ := h.suffixes i suffix (by rw [hi]; rfl)
  obtain ⟨hbytes, hbytesLength, hbytesFree, _⟩ := h.bytes i bytes (by rw [hi]; rfl)
  have hends : EndsIn suffix (idPrefix ++ hexEncode suffix) (apiKeyText bytes) := ⟨idPrefix, rfl⟩
  have hmade : MadeOf bytes (idPrefix ++ hexEncode suffix) (apiKeyText bytes) := rfl
  -- a key held now is an old one, or the one just stored
  have hheld (name' id value : GoString)
    (hnew : Held s name' id value) : Held st.cluster name' id value ∨
      name' = name ∧ id = idPrefix ++ hexEncode suffix ∧ value = apiKeyText bytes := by
    obtain ⟨found, hfound, hid⟩ := hnew
    by_cases hname : name' = name
    · subst name'
      rw [hstored, Option.some.injEq] at hfound
      subst found
      rw [hdata, GoMap.lookup_insert_eq] at hid
      split_ifs at hid with hkey
      · exact .inr ⟨rfl, hkey, (Option.some.inj hid).symm⟩
      · exact .inl ⟨secret, hold, hid⟩
    · rw [hother name' hname] at hfound
      exact .inl ⟨found, hfound, hid⟩
  refine ⟨fun j => ?_, fun name' found hfound hname => ?_, fun name' id value hpool hnew => ?_,
    fun name₁ id₁ value₁ name₂ id₂ value₂ hpool₁ hpool₂ hheld₁ hheld₂ heq => ?_, ?_, ?_⟩
  · by_cases hji : j = i
    · rw [hji, Function.update_self]
      trivial
    · rw [Function.update_of_ne hji]
      exact hcopies j
  · by_cases hsame : name' = name
    · subst name'
      rw [hstored, Option.some.injEq] at hfound
      subst found
      rw [selects_congr hlabels]
      exact h.managed name secret hold hname
    · rw [hother name' hsame] at hfound
      exact h.managed name' found hfound hname
  · rcases hheld name' id value hnew with hwas | ⟨_, rfl, rfl⟩
    · exact h.made name' id value hpool hwas
    · exact ⟨suffix, hsuffix, bytes, hbytes, hsuffixLength, hbytesLength, hends, hmade⟩
  · rcases hheld name₁ id₁ value₁ hheld₁ with hold₁ | ⟨rfl, rfl, rfl⟩ <;>
      rcases hheld name₂ id₂ value₂ hheld₂ with hold₂ | ⟨rfl, rfl, rfl⟩
    · exact h.unique name₁ id₁ value₁ name₂ id₂ value₂ hpool₁ hpool₂ hold₁ hold₂ heq
    · rcases heq with rfl | rfl
      · exact absurd ⟨idPrefix, rfl⟩ (hsuffixFree name₁ _ value₁ hpool₁ hold₁)
      · exact absurd rfl (hbytesFree name₁ id₁ _ hpool₁ hold₁)
    · rcases heq with rfl | rfl
      · exact absurd ⟨idPrefix, rfl⟩ (hsuffixFree name₂ _ value₂ hpool₂ hold₂)
      · exact absurd rfl (hbytesFree name₂ id₂ _ hpool₂ hold₂)
    · exact ⟨rfl, rfl⟩
  · exact h.suffixes.store (by rw [hi]; rfl) rfl (fun name' id value _ hnew =>
      (hheld name' id value hnew).imp_right And.right)
      (fun other hlength hends' => EndsIn.eq hlength hsuffixLength hends' hends)
  · exact h.bytes.store (by rw [hi]; rfl) rfl (fun name' id value _ hnew =>
      (hheld name' id value hnew).imp_right And.right)
      (fun other hlength hmade' => MadeOf.eq hlength hbytesLength hmade' hmade)

end Steps

end secrets.fleet
