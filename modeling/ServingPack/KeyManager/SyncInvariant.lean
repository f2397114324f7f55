import ServingPack.KeyManager.Sync

open golang apiserver concurrency kube

namespace secrets

section Changes

variable {c : Change} {before after : GoMap GoString} {cm cm' : GoMap Entry}

private theorem Listed.of_insert {data : GoMap Entry} {info : KeyInfo}
    (hlive : info.revokedAt = none) (key id : GoString) :
    Listed (data.insert key (.keyInfo info)) id ↔ id = key ∨ Listed data id := by
  unfold Listed
  rw [GoMap.lookup_insert_eq]
  by_cases h : id = key
  · simp [h, hlive]
  · simp [h]

private theorem listed_dropExpired (now : Nat) (data : GoMap Entry) (id : GoString) :
    Listed (Manager.dropExpired now data) id ↔ Listed data id := by
  unfold Listed
  rw [Manager.lookup_dropExpired]
  refine exists_congr (fun info => and_congr_left (fun hlive => ?_))
  split_ifs with hexpired
  · refine ⟨nofun, fun hlookup => ?_⟩
    rw [hlookup] at hexpired
    simp [Manager.expired, Entry.unmarshal, hlive] at hexpired
  · rfl

private theorem Change.Fits.keys (hfits : c.Fits before cm after) (hrecords : c.Records cm cm')
    (hlisted : ∀ id, id ∈ before ↔ Listed cm id) (id : GoString) : id ∈ after ↔ Listed cm' id := by
  cases c with
  | mint key =>
    obtain ⟨_, _, value, rfl⟩ := hfits
    obtain ⟨info, hlive, rfl⟩ := hrecords
    rw [Listed.of_insert hlive, Finmap.mem_insert, hlisted]
  | revoke key =>
    obtain ⟨_, rfl⟩ := hfits
    obtain ⟨now, keyInfo, rfl⟩ := hrecords
    rw [Finmap.mem_erase, hlisted, ← listed_dropExpired now cm id]
    unfold Listed
    rw [GoMap.lookup_insert_eq]
    by_cases h : id = key
    · simp [h, Manager.tombstone]
    · simp [h]

/-- No live credential has an entry that says it was revoked. -/
def Clean (keys : GoMap GoString) (data : GoMap Entry) : Prop :=
  ∀ id ∈ keys, data.lookup id = none ∨ Listed data id

private theorem Clean.change (hclean : Clean before cm) (hfits : c.Fits before cm after) :
    Clean after cm := by
  intro id hmem
  cases c with
  | mint key =>
    obtain ⟨_, hfree, value, rfl⟩ := hfits
    rcases Finmap.mem_insert.mp hmem with rfl | hold
    · exact .inl (Finmap.lookup_eq_none.mpr hfree)
    · exact hclean id hold
  | revoke key =>
    obtain ⟨_, rfl⟩ := hfits
    exact hclean id (Finmap.mem_erase.mp hmem).2

/-- A change that fits a clean state is seen in the metadata. -/
theorem Change.Records.ne (hclean : Clean before cm) (hfits : c.Fits before cm after)
    (hrecords : c.Records cm cm') : cm' ≠ cm := by
  rintro rfl
  cases c with
  | mint key =>
    obtain ⟨_, hfree, _⟩ := hfits
    obtain ⟨info, _, heq⟩ := hrecords
    rw [heq] at hfree
    exact hfree (Finmap.mem_insert.mpr (.inl rfl))
  | revoke key =>
    obtain ⟨now, keyInfo, heq⟩ := hrecords
    have hlookup : cm'.lookup key = some (.keyInfo (Manager.tombstone key now keyInfo)) := by
      rw [heq, Finmap.lookup_insert]
    rcases hclean key hfits.1 with hnone | ⟨info, hinfo, hlive⟩
    · rw [hnone] at hlookup
      cases hlookup
    · rw [hinfo, Option.some.injEq, Entry.keyInfo.injEq] at hlookup
      simp [hlookup, Manager.tombstone] at hlive

end Changes

section Invariant

variable {modelName : GoString} {s s' : Cluster} {φ : Nat → Phase}

/-- What a thread has read was stored at some time. -/
def Phase.Copies (modelName : GoString) (s : Cluster) : Phase → Prop
  | .quiet => True
  | .readSecret secret => Past s .secret (secretName modelName) secret
  | .readBoth secret cm => Past s .secret (secretName modelName) secret ∧
      Past s .configMap (configMapName modelName) cm
  | .wroteSecret cm _ _ => Past s .configMap (configMapName modelName) cm

private theorem Phase.Copies.handle {ψ : Phase} (h : ψ.Copies modelName s)
    (request : apiserver.Request Body) :
    ψ.Copies modelName (s.handle request).2 := by
  cases ψ with
  | quiet => trivial
  | readSecret secret =>
    have hpast : Past s .secret (secretName modelName) secret := h
    exact hpast.handle request
  | readBoth secret cm => exact ⟨Past.handle h.1 request, Past.handle h.2 request⟩
  | wroteSecret cm before after =>
    have hpast : Past s .configMap (configMapName modelName) cm := h
    exact hpast.handle request

/-- Some thread has written the Secret and cannot write the ConfigMap it read any more. -/
def Doomed (cm : Object ConfigMapBody) (φ : Nat → Phase) : Prop :=
  ∃ i read before after, φ i = .wroteSecret read before after ∧
    read.metadata.resourceVersion ≠ cm.metadata.resourceVersion

/-- The Secret against the ConfigMap: two threads are between their writes, so
that one of them is doomed once the other writes; or one is, and its write will
make them agree; or none is, and they agree. -/
def Settled (secret : GoMap GoString) (cm : Object ConfigMapBody) (φ : Nat → Phase) : Prop :=
  (∃ i j, i ≠ j ∧ (φ i).Pending ∧ (φ j).Pending) ∨
  (∃ i before after, φ i = .wroteSecret cm before after ∧ (∀ j, j ≠ i → ¬(φ j).Pending) ∧
    (∀ id, id ∈ secret ↔ id ∈ after) ∧ ∀ id, id ∈ before ↔ Listed cm.body.data id) ∨
  ((∀ i, ¬(φ i).Pending) ∧ ∀ id, id ∈ secret ↔ Listed cm.body.data id)

/-- The threads between their writes have read the stored ConfigMap, and its
revocations agree with the Secret. -/
structure Tidy (secret : GoMap GoString) (cm : Object ConfigMapBody) (φ : Nat → Phase) : Prop where
  clean : Clean secret cm.body.data
  pending : ∀ i read before after, φ i = .wroteSecret read before after → read = cm ∧
    Clean before cm.body.data
  settled : Settled secret cm φ

structure Inv (modelName : GoString) (s : Cluster) (φ : Nat → Phase) : Prop where
  copies : ∀ i, (φ i).Copies modelName s
  consistent : ∀ secret cm, s.lookup .secret (secretName modelName) = some secret →
    s.lookup .configMap (configMapName modelName) = some cm → Doomed cm φ ∨
      Tidy secret.body.data cm φ

/-- A thread that is not between its writes, before and after, moves on. -/
theorem Inv.move (h : Inv modelName s φ) {i : Nat} (hi : ¬(φ i).Pending) {ψ : Phase}
    (hψ : ¬ψ.Pending)
    (hcopies : ψ.Copies modelName s) : Inv modelName s (Function.update φ i ψ) := by
  have hwrote (j : Nat)
    (read before after) : Function.update φ i ψ j = .wroteSecret read before after ↔
      φ j = .wroteSecret read before after := by
    by_cases hj : j = i
    · subst j
      rw [Function.update_self]
      constructor
      · rintro rfl
        exact absurd trivial hψ
      · intro heq
        rw [heq] at hi
        exact absurd trivial hi
    · rw [Function.update_of_ne hj]
  have hpending (j : Nat) : (Function.update φ i ψ j).Pending ↔ (φ j).Pending := by
    by_cases hj : j = i
    · subst j
      rw [Function.update_self]
      exact iff_of_false hψ hi
    · rw [Function.update_of_ne hj]
  constructor
  · intro j
    by_cases hj : j = i
    · subst j
      simpa only [Function.update_self] using hcopies
    · simpa only [Function.update_of_ne hj] using h.copies j
  · intro secret cm hsecret hcm
    rcases h.consistent secret cm hsecret hcm with hdoomed | htidy
    · left
      simpa only [Doomed, hwrote] using hdoomed
    · right
      exact ⟨htidy.clean, by simpa only [hwrote] using htidy.pending,
        by simpa only [Settled, hwrote, hpending] using htidy.settled⟩

private theorem Change.Fits.ne {c : Change} {before after : GoMap GoString} {cm : GoMap Entry}
    (hfits : c.Fits before cm after) : after ≠ before := by
  rintro rfl
  cases c with
  | mint id =>
    obtain ⟨hnew, _, key, heq⟩ := hfits
    rw [heq] at hnew
    exact hnew (Finmap.mem_insert.mpr (.inl rfl))
  | revoke id =>
    obtain ⟨hmem, heq⟩ := hfits
    rw [heq] at hmem
    exact Finmap.notMem_erase_self hmem

/-- One more thread between its writes: it is doomed, or the first one, or the second. -/
theorem Tidy.wroteSecret {i : Nat} {secret object : GoMap GoString} {cm : Object ConfigMapBody}
    {c : Change}
    (h : Tidy secret cm φ) (hi : ¬(φ i).Pending) (hfits : c.Fits secret cm.body.data object) :
    Tidy object cm (Function.update φ i (.wroteSecret cm secret object)) := by
  have hself : Function.update φ i (.wroteSecret cm secret object) i =
      .wroteSecret cm secret object :=
    Function.update_self ..
  have hother (j : Nat)
      (hj : j ≠ i) : Function.update φ i (.wroteSecret cm secret object) j = φ j :=
    Function.update_of_ne hj ..
  have hne (j : Nat) (hj : (φ j).Pending) : j ≠ i := fun heq => hi (heq ▸ hj)
  refine ⟨h.clean.change hfits, fun j read before after hj => ?_, ?_⟩
  · by_cases hji : j = i
    · rw [hji, hself, Phase.wroteSecret.injEq] at hj
      obtain ⟨rfl, rfl, _⟩ := hj
      exact ⟨rfl, h.clean⟩
    · rw [hother j hji] at hj
      exact h.pending j read before after hj
  · rcases h.settled with ⟨j, k, hjk, hj, hk⟩ | ⟨j, before, after, hj, _⟩ | ⟨hnone, hsynced⟩
    · refine .inl ⟨j, k, hjk, ?_, ?_⟩
      · rwa [hother j (hne j hj)]
      · rwa [hother k (hne k hk)]
    · have hpending : (φ j).Pending := by
        rw [hj]
        trivial
      refine .inl ⟨i, j, (hne j hpending).symm, ?_, ?_⟩
      · rw [hself]
        trivial
      · rwa [hother j (hne j hpending)]
    · refine .inr (.inl ⟨i, secret, object, hself, fun j hj => ?_, fun _ => Iff.rfl, hsynced⟩)
      rw [hother j hj]
      exact hnone j

private theorem Doomed.update {i : Nat} {cm : Object ConfigMapBody} (h : Doomed cm φ)
    (hi : ¬(φ i).Pending) (ψ : Phase) :
    Doomed cm (Function.update φ i ψ) := by
  obtain ⟨j, read, before, after, hj, hstale⟩ := h
  have hji : j ≠ i := by
    rintro rfl
    rw [hj] at hi
    exact hi trivial
  exact ⟨j, read, before, after, by rwa [Function.update_of_ne hji], hstale⟩

/-- Writing the Secret leaves the thread between its writes. -/
theorem Inv.writeSecret (h : Inv modelName s φ) {i : Nat} {secret object : Object SecretBody}
    {cm : Object ConfigMapBody} (hphase : φ i = .readBoth secret cm)
    (hmetadata : object.metadata = secret.metadata)
    {c : Change} (hfits : c.Fits secret.body.data cm.body.data object.body.data) :
    Inv modelName (s.update .secret (secretName modelName) object).2
      (Function.update φ i (next (.readBoth secret cm)
        (.api (.update .secret (secretName modelName) object))
        (s.update .secret (secretName modelName) object).1)) := by
  have hcopies := h.copies i
  rw [hphase] at hcopies
  have hquiet : ¬(φ i).Pending := by
    rw [hphase]
    exact id
  rcases s.update_cases .secret (secretName modelName) object
    with ⟨hsame, e, he⟩ | ⟨existing, hexisting, hversion, heq⟩
  · rw [hsame, he]
    exact h.move hquiet id trivial
  -- the version is the one that was read, so the stored Secret is the copy
  obtain rfl : existing = secret := hcopies.1.2 existing hexisting (by rw [← hversion, hmetadata])
  have hne : updated (B := Body) existing object ≠ existing := by
    intro hsame
    have hbody := congrArg Object.body hsame
    exact hfits.ne (congrArg SecretBody.data hbody)
  have hframe : (s.handle (.update .secret (secretName modelName) object)).2.lookup .configMap
      (configMapName modelName) = s.lookup .configMap (configMapName modelName) :=
    s.handle_frame _ (by simp [apiserver.Request.target])
  have hstored := s.lookup_replace_of_ne (secretName modelName)
    (s.updated_uid_le hexisting object) hne
  have hcopies' (j : Nat) := (h.copies j).handle (.update .secret (secretName modelName) object)
  simp only [ApiServer.handle, heq] at hframe hcopies' ⊢
  constructor
  · intro j
    by_cases hj : j = i
    · subst j
      have hcm := hcopies' i
      rw [hphase] at hcm
      rw [Function.update_self]
      exact hcm.2
    · simpa only [Function.update_of_ne hj] using hcopies' j
  · intro stored current hlookup hcurrent
    rw [hframe] at hcurrent
    have hdata : stored.body.data = object.body.data := by
      rcases hstored with hnone | hsome
      · rw [hnone] at hlookup
        cases hlookup
      · rw [hsome] at hlookup
        obtain rfl := Option.some.inj hlookup
        rfl
    rw [hdata]
    by_cases hcopy : cm = current
    · subst cm
      exact (h.consistent existing current hexisting hcurrent).imp
        (fun hdoomed => hdoomed.update hquiet _)
        (fun htidy => htidy.wroteSecret hquiet hfits)
    · exact .inl ⟨i, cm, _, _, Function.update_self ..,
        fun heqv => hcopy (hcopies.2.2 current hcurrent heqv.symm).symm⟩

/-- The metadata of the last change: every other thread between its writes is now doomed. -/
theorem Tidy.wroteConfigMap {i : Nat} {secret before after : GoMap GoString}
    {cm stored : Object ConfigMapBody}
    {c : Change} (h : Tidy secret cm φ) (hi : φ i = .wroteSecret cm before after)
    (hfits : c.Fits before cm.body.data after) (hrecords : c.Records cm.body.data stored.body.data)
    (hversion : stored.metadata.resourceVersion ≠ cm.metadata.resourceVersion) :
    Doomed stored (Function.update φ i .quiet) ∨
    Tidy secret stored (Function.update φ i .quiet) := by
  have hi' : (φ i).Pending := by
    rw [hi]
    trivial
  have hdoomed (j : Nat) (hji : j ≠ i)
      (hj : (φ j).Pending) : Doomed stored (Function.update φ i .quiet) := by
    match hφ : φ j with
    | .wroteSecret read b a =>
      obtain ⟨rfl, _⟩ := h.pending j read b a hφ
      exact ⟨j, read, b, a, by rwa [Function.update_of_ne hji], hversion.symm⟩
    | .quiet | .readSecret _ | .readBoth _ _ =>
      rw [hφ] at hj
      exact hj.elim
  rcases h.settled with ⟨j, k, hjk, hj, hk⟩ | ⟨j, b, a, hj, halone, hafter, hbefore⟩ | ⟨hnone, _⟩
  · by_cases hji : j = i
    · exact .inl (hdoomed k (hji ▸ hjk.symm) hk)
    · exact .inl (hdoomed j hji hj)
  · obtain rfl : i = j := by
      by_contra hne
      exact halone i hne hi'
    rw [hi, Phase.wroteSecret.injEq] at hj
    obtain ⟨_, rfl, rfl⟩ := hj
    have hsynced : ∀ id, id ∈ secret ↔ Listed stored.body.data id := fun id =>
      (hafter id).trans (hfits.keys hrecords hbefore id)
    have hquiet (j : Nat) : ¬(Function.update φ i .quiet j).Pending := by
      by_cases hj : j = i
      · rw [hj, Function.update_self]
        exact id
      · rw [Function.update_of_ne hj]
        exact halone j hj
    refine .inr ⟨fun id hid => .inr ((hsynced id).mp hid), fun j read b a hj => ?_,
      .inr (.inr ⟨hquiet, hsynced⟩)⟩
    have hpending := hquiet j
    rw [hj] at hpending
    exact absurd trivial hpending
  · exact absurd hi' (hnone i)

/-- The write that follows the Secret's records its change, so Secret and ConfigMap agree again.
-/
theorem Inv.writeConfigMap (h : Inv modelName s φ) {i : Nat} {cm object : Object ConfigMapBody}
    {before after : GoMap GoString} (hphase : φ i = .wroteSecret cm before after)
    (hmetadata : object.metadata = cm.metadata) {c : Change}
    (hfits : c.Fits before cm.body.data after) (hrecords : c.Records cm.body.data object.body.data)
    (hcurrent : ∀ current : Object ConfigMapBody, s.lookup .configMap (configMapName modelName) =
      some current →
      object.metadata.resourceVersion = current.metadata.resourceVersion) :
    Inv modelName (s.update .configMap (configMapName modelName) object).2
      (Function.update φ i .quiet) := by
  have hread := h.copies i
  rw [hphase] at hread
  have hcopies' (j : Nat) := (h.copies j).handle
    (.update .configMap (configMapName modelName) object)
  have hframe : (s.handle (.update .configMap (configMapName modelName) object)).2.lookup .secret
      (secretName modelName) = s.lookup .secret (secretName modelName) :=
    s.handle_frame _ (by simp [apiserver.Request.target])
  constructor
  · intro j
    by_cases hj : j = i
    · subst j
      rw [Function.update_self]
      trivial
    · rw [Function.update_of_ne hj]
      exact hcopies' j
  intro secret stored hsecret hstored
  change (s.update .configMap (configMapName modelName) object).2.lookup .secret _ = _ at hframe
  rw [hframe] at hsecret
  cases hlookup : s.lookup .configMap (configMapName modelName) with
  | none =>
    rcases s.update_cases .configMap (configMapName modelName) object
      with ⟨hsame, _⟩ | ⟨existing, hexisting, _⟩
    · rw [hsame, hlookup] at hstored
      cases hstored
    · rw [hlookup] at hexisting
      cases hexisting
  | some current =>
    obtain rfl : current = cm :=
      hread.2 current hlookup (by rw [← hmetadata, hcurrent current hlookup])
    have heq := s.update_of_version hlookup (hcurrent current hlookup)
      (by rw [hmetadata]; exact List.Subset.refl _)
    rw [heq] at hstored
    have hother (j : Nat) (hj : j ≠ i) : Function.update φ i .quiet j = φ j :=
      Function.update_of_ne hj ..
    rcases h.consistent secret current hsecret hlookup with ⟨j, read, b, a, hj, hstale⟩ | htidy
    · -- this thread's copy is current, so another one is doomed, and stays so
      have hji : j ≠ i := by
        rintro rfl
        rw [hphase, Phase.wroteSecret.injEq] at hj
        exact hstale (by rw [hj.1])
      have hold := h.copies j
      rw [hj] at hold
      refine .inl ⟨j, read, b, a, by rwa [hother j hji], ?_⟩
      rcases s.replace_cases (configMapName modelName) current (s.updated_uid_le hlookup object)
        with
        ⟨_, hrep⟩ | ⟨_, _, hrep⟩ | ⟨_, _, hrep⟩
      · rw [hrep, hlookup] at hstored
        obtain rfl := Option.some.inj hstored
        exact hstale
      · rw [hrep, ApiServer.lookup_remove] at hstored
        cases hstored
      · rw [hrep, ApiServer.lookup_put] at hstored
        obtain rfl := Option.some.inj hstored
        exact hold.1.ne
    · have hne : updated (B := Body) current object ≠ current := by
        intro hsame
        have hbody := congrArg Object.body hsame
        exact hrecords.ne (htidy.pending i current before after hphase).2 hfits
          (congrArg ConfigMapBody.data hbody)
      rcases s.lookup_replace_of_ne (configMapName modelName) (s.updated_uid_le hlookup object) hne
        with hnone | hsome
      · rw [hnone] at hstored
        cases hstored
      · rw [hsome] at hstored
        obtain rfl := Option.some.inj hstored
        exact htidy.wroteConfigMap hphase hfits hrecords hread.1.ne'

end Invariant

end secrets
