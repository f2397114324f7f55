import ServingPack.KeyManager.LifecycleInvariant

open golang apiserver concurrency kube

namespace secrets.lifecycle

section Answered

variable {modelName : GoString} {s : State} {i : Nat} {history : History Body}

private theorem answered_keys
    (hkeys : s.keys modelName ≠ secretData history.current (secretName modelName))
    (hentries : metadata history.current (configMapName modelName) = s.entries modelName) :
    s.answered modelName i history = { s with
      history := history
      secretWrites := ⟨i, secretName modelName, s.keys modelName,
        secretData history.current (secretName modelName)⟩ :: s.secretWrites } := by
  rw [State.answered, hentries, addWrite, addWrite, if_neg hkeys, if_pos rfl]

private theorem answered_entries
    (hkeys : secretData history.current (secretName modelName) = s.keys modelName)
    (hentries : s.entries modelName ≠ metadata history.current (configMapName modelName)) :
    s.answered modelName i history = { s with
      history := history
      metadataWrites := ⟨i, configMapName modelName, s.entries modelName,
        metadata history.current (configMapName modelName)⟩ :: s.metadataWrites } := by
  rw [State.answered, hkeys, addWrite, addWrite, if_neg hentries, if_pos rfl]

private theorem answered_data :
    (s.answered modelName i history).entries modelName = metadata history.current
    (configMapName modelName) := rfl

end Answered

section Secret

variable {m : Manager} {modelName : GoString} {s s' : State} {φ : Nat → Phase} {i : Nat}

/-- A change of the Secret: the keys it adds are new. -/
structure KeysWritten (modelName : GoString) (s s' : State) (added : GoString → GoString → Prop) :
    Prop where
  tasks : s'.tasks = s.tasks
  begins : s'.begins = s.begins
  metadataWrites : s'.metadataWrites = s.metadataWrites
  drawn : s'.drawn = s.drawn
  clock : s'.clock = s.clock
  created : s'.created = s.created
  revoked : s'.revoked = s.revoked
  entries : s'.entries modelName = s.entries modelName
  stored : ∀ id key, Stored s' id key ↔ Stored s id key ∨ added id key
  fresh : ∀ id key, added id key → ¬Known s id
  gone : ∀ id, id ∈ s'.keys modelName → id ∈ s.keys modelName ∨ ∃ key, added id key

variable {added : GoString → GoString → Prop}

private theorem KeysWritten.recorded (h : KeysWritten modelName s s' added) {id : GoString}
    {creator : Creator} :
    Recorded s' id creator ↔ Recorded s id creator := by
  rw [Recorded, Recorded, h.metadataWrites, h.tasks]

private theorem KeysWritten.buried (h : KeysWritten modelName s s' added) {id : GoString}
    {info : KeyInfo} :
    Buried s' id info ↔ Buried s id info := by
  rw [Buried, Buried, h.metadataWrites, h.tasks]

private theorem KeysWritten.begunBy (h : KeysWritten modelName s s' added) {id : GoString}
    {t : Nat} :
    BegunBy s' id t ↔ BegunBy s id t := by
  rw [BegunBy, BegunBy, h.tasks, h.begins]

private theorem KeysWritten.known (h : KeysWritten modelName s s' added) {id : GoString} :
    Known s' id ↔ Known s id ∨ ∃ key, added id key := by
  simp only [Known, h.stored, exists_or]

private theorem KeysWritten.onward (h : KeysWritten modelName s s' added)
    (hpast : ∀ kind name object, Past s.cluster kind name object → Past s'.cluster kind name object)
    (hsuperseded : ∀ cm, Past s.cluster .configMap (configMapName modelName) cm →
      Superseded s.cluster .configMap (configMapName modelName) cm →
      Superseded s'.cluster .configMap (configMapName modelName) cm) : Onward modelName s s' where
  clock := h.clock.ge
  drawn := by rw [h.drawn]; exact List.Subset.refl _
  tasks i task htask := by rwa [h.tasks]
  begins i began hbegan := by rwa [h.begins]
  past := hpast
  superseded := hsuperseded
  stored id key hstored := (h.stored id key).mpr (.inl hstored)
  recorded id creator hrecorded := h.recorded.mpr hrecorded
  buried id info hburied := h.buried.mpr hburied
  gone id hknown hgone hmem := by
    rcases h.gone id hmem with hold | ⟨key, hadded⟩
    · exact hgone hold
    · exact h.fresh id key hadded hknown

/-- The ledger over a change of the Secret. -/
theorem KeysWritten.ledger (h : KeysWritten modelName s s' added) (hledger : Ledger modelName s)
    (hmade : ∀ id key, added id key →
      ∃ suffix ∈ s.drawn, suffix.length = 8 ∧ ∃ idPrefix, id = idPrefix ++ hexEncode suffix)
    (hlive : ∀ id key, added id key → (s'.keys modelName).lookup id = some key)
    (hkept : ∀ id key, (s.keys modelName).lookup id = some key → Known s id → ¬Begun s id →
      (s'.keys modelName).lookup id = some key) : Ledger modelName s' := by
  refine ⟨?_, ?_, fun id hid => ?_, fun id hid => ?_, fun id key hstored hbegun => ?_,
    fun id entry hid => ?_,
    fun id creator hrecorded => ?_, fun id info hburied => ?_, fun p hp => ?_, fun id hid => ?_⟩
  · rw [h.metadataWrites, h.tasks]
    exact hledger.authors
  · rw [h.begins, h.tasks, h.clock]
    exact hledger.begins
  · rw [h.drawn]
    rcases h.known.mp hid with hold | ⟨key, hadded⟩
    · exact hledger.made id hold
    · exact hmade id key hadded
  · exact h.known.mpr ((h.gone id hid).imp_left (hledger.keys id))
  · rcases (h.stored id key).mp hstored with hold | hadded
    · have hbegun' : ¬Begun s id := by
        rwa [Begun, h.tasks] at hbegun
      exact hkept id key (hledger.live id key hold hbegun') ⟨key, hold⟩ hbegun'
    · exact hlive id key hadded
  · rw [h.entries] at hid
    obtain ⟨hknown, info, rfl, hclientID, hburied⟩ := hledger.entries id entry hid
    exact ⟨h.known.mpr (.inl hknown), info, rfl, hclientID,
      fun hrevoked => h.buried.mpr (hburied hrevoked)⟩
  · rw [h.entries]
    refine (hledger.recorded id creator (h.recorded.mp hrecorded)).imp_right
      (fun hnone => hnone.imp_right ?_)
    exact fun ⟨info, hburied⟩ => ⟨info, h.buried.mpr hburied⟩
  · obtain ⟨hknown, hgone, hkept, hnames, honly⟩ := hledger.buried id info (h.buried.mp hburied)
    refine ⟨h.known.mpr (.inl hknown),
      fun hmem => ?_, by simpa only [h.entries, h.clock, h.begunBy] using hkept,
      fun creator hr => hnames creator (h.recorded.mp hr),
        fun info' hb => honly info' (h.buried.mp hb)⟩
    rcases h.gone id hmem with hold | ⟨key, hadded⟩
    · exact hgone hold
    · exact h.fresh id key hadded hknown
  · rw [h.created] at hp
    exact (hledger.created p hp).imp (fun hs => (h.stored _ _).mpr (.inl hs)) h.recorded.mpr
  · rw [h.revoked] at hid
    exact (hledger.revoked id hid).imp (fun _ hb => h.buried.mpr hb)

/-- An update of the Secret from a copy: nothing has changed and an error is
reported, or the copy was current and its new data are stored. -/
theorem secret_updated {reads : Kind → Bool} {secret : Object SecretBody} {data : GoMap GoString}
    {history : History Body} {a : apiserver.Answer
      (.update Kind.secret (secretName modelName) { secret with body.data := data })}
    (hinv : Inv m modelName s φ) (hpast : Past s.cluster .secret (secretName modelName) secret)
    (hobserved : Observed (fun _ => False) reads s.history
      (.update Kind.secret (secretName modelName) { secret with body.data := data }) a history) :
    (secretData history.current (secretName modelName) = s.keys modelName ∧ ∃ e, a = .error e) ∨
    (s.keys modelName = secret.body.data ∧
      secretData history.current (secretName modelName) = data) := by
  have hexec : Exec (fun _ => False) s.cluster _ a history.current :=
    hobserved.exec_of_target (by simp [apiserver.Request.target])
  rcases hexec.update_copy secret hinv.unfinished hpast.2 rfl rfl with
    ⟨hsame, herror⟩ | ⟨hlookup, object, hobject, hbody⟩
  · exact .inl ⟨secretData_congr hsame, herror⟩
  · refine .inr ⟨secretData_of_lookup hlookup, ?_⟩
    rw [secretData_of_lookup hobject]
    exact congrArg SecretBody.data hbody

/-- `CreateKey` stores its key. -/
theorem Inv.store (hinv : Inv m modelName s φ) {creator : Creator} {description : GoString}
    {secret : Object SecretBody}
    {cm : Object ConfigMapBody} {suffix bytes : List UInt8} {reads : Kind → Bool}
    {history : History Body}
    (hi : φ i = some (.call (.create creator description), .drewKey secret cm suffix bytes))
    {a : apiserver.Answer (.update Kind.secret (secretName modelName) { secret with
      body.data := secret.body.data.insert (m.clientID modelName creator suffix)
        (apiKeyText bytes) })}
    (hobserved : Observed (fun _ => False) reads s.history
      (.update Kind.secret (secretName modelName) { secret with
      body.data := secret.body.data.insert (m.clientID modelName creator suffix)
        (apiKeyText bytes) }) a history) :
    Inv m modelName (s.answered modelName i history)
      (Function.update φ i (some (.call (.create creator description),
      next (.call (.create creator description)) (.drewKey secret cm suffix bytes)
        (.api (.update .secret (secretName modelName) { secret with
          body.data := secret.body.data.insert (m.clientID modelName creator suffix)
            (apiKeyText bytes) })) a))) := by
  obtain ⟨htask, hsecret, hcm, hfree⟩ := hinv.handled i _ _ hi
  obtain ⟨hdrawn, hlength, hunused, _⟩ := hinv.suffixes i suffix (by rw [hi]; rfl)
  obtain ⟨hnew, hnone⟩ := hfree creator description rfl
  have hexec := hobserved.exec_of_target (by simp [apiserver.Request.target])
  have hentries : metadata history.current (configMapName modelName) = s.entries modelName :=
    entries_of_frame modelName hobserved (by simp [apiserver.Request.target])
  rcases secret_updated hinv hsecret hobserved with ⟨hsame, e, rfl⟩ | ⟨hold, hdata⟩
  · exact hinv.unchanged hobserved hsame hentries hi trivial (.inl rfl) (fun h => h.elim)
  generalize hid : m.clientID modelName creator suffix = id at hobserved hexec hnew hnone hdata ⊢
  generalize hkey : apiKeyText bytes = key at hobserved hexec hdata ⊢
  have hunknown : ¬Known s id := by
    rw [← hid, Manager.clientID]
    exact hunused _
  have hchange : s.keys modelName ≠ secretData history.current (secretName modelName) := by
    intro heq
    rw [hold, hdata] at heq
    rw [heq] at hnew
    exact hnew (Finmap.mem_insert.mpr (.inl rfl))
  rw [answered_keys hchange hentries]
  generalize hs' : ({ s with history := history, secretWrites := _ } : State) = s'
  have hkeys' : s'.keys modelName = secret.body.data.insert id key := by
    rw [← hs']
    exact hdata
  have hwritten : KeysWritten modelName s s' (fun id' key' => id' = id ∧ key' = key) := by
    refine ⟨by rw [← hs'], by rw [← hs'], by rw [← hs'], by rw [← hs'], by rw [← hs'], by rw [← hs'], by rw [← hs'],
      by rw [← hs']; exact hentries, fun id' key' => ?_, fun id' key' hadded => by rwa [hadded.1], fun id' hmem => ?_⟩
    · rw [← hs', Stored, Stored]
      simp only [List.mem_cons, exists_eq_or_imp, hold, hdata]
      rw [or_comm]
      refine or_congr Iff.rfl ⟨?_, ?_⟩
      · rintro ⟨hbefore, hafter⟩
        rw [GoMap.lookup_insert_eq] at hafter
        split_ifs at hafter with heq
        · exact ⟨heq, (Option.some.inj hafter).symm⟩
        · rw [hbefore] at hafter
          cases hafter
      · rintro ⟨rfl, rfl⟩
        exact ⟨Finmap.lookup_eq_none.mpr hnew, Finmap.lookup_insert ..⟩
    · rw [hkeys', Finmap.mem_insert] at hmem
      rw [hold]
      exact hmem.symm.imp_right (fun heq => ⟨key, heq, rfl⟩)
  have honward : Onward modelName s s' := by
    refine hwritten.onward (fun _ _ _ hp => ?_) (fun cm hp hs => ?_)
    · rw [← hs']
      exact hp.exec hexec
    · rw [← hs']
      exact hs.exec hp hexec
  have hledger : Ledger modelName s' := by
    refine hwritten.ledger hinv.ledger (fun id' key' hadded => ?_) (fun id' key' hadded => ?_)
      (fun id' key' hlookup hknown _ => ?_)
    · exact ⟨suffix, hdrawn, hlength,
        m.clientIDPrefix modelName creator, by rw [hadded.1, ← hid]; rfl⟩
    · rw [hkeys', hadded.1, hadded.2]
      exact Finmap.lookup_insert ..
    · have hne : id' ≠ id := fun heq => hunknown (heq ▸ hknown)
      rw [hkeys', GoMap.lookup_insert_eq, if_neg hne, ← hold]
      exact hlookup
  have hstored : Stored s' id key := (hwritten.stored id key).mpr (.inr ⟨rfl, rfl⟩)
  refine hinv.step honward ?_ ?_ hledger
    (fun j task stage _ _ id' info hb => .inl (hwritten.buried.mp hb))
    (fun task stage heq => ?_) (fun id' hknown => ?_) ?_ (fun id' stage heq _ => ?_)
  · rw [← hs']
    exact hinv.coherent.observed hobserved
  · rw [← hs']
    exact hexec.unfinished hinv.unfinished
  · rw [Option.some.injEq, Prod.mk.injEq] at heq
    obtain ⟨rfl, rfl⟩ := heq
    refine ⟨honward.tasks i _ htask, ?_⟩
    cases a with
    | error e => trivial
    | ok stored =>
      refine ⟨honward.past .configMap _ cm hcm, fun creator' description' htask' => ?_⟩
      obtain ⟨rfl, rfl⟩ := Operation.create.inj (Task.call.inj htask')
      rw [hid, hkey]
      refine ⟨hnone, hstored, fun info hburied => ?_⟩
      exact absurd (hinv.ledger.buried id info (hwritten.buried.mp hburied)).known hunknown
  · refine (hwritten.known.mp hknown).imp_right ?_
    rintro ⟨key', heq, _⟩
    exact ⟨m.clientIDPrefix modelName creator, suffix, by rw [hi]; rfl, by rw [heq, ← hid]; rfl⟩
  · cases a with
    | error e => exact .inl rfl
    | ok stored => exact .inl rfl
  · rw [Option.some.injEq, Prod.mk.injEq] at heq
    cases heq.1

/-- `RevokeKey` takes its key away. -/
theorem Inv.erase (hinv : Inv m modelName s φ) {id : GoString} {secret : Object SecretBody}
    {cm : Object ConfigMapBody} {reads : Kind → Bool} {history : History Body}
    (hi : φ i = some (.call (.revoke id), .readBoth secret cm)) (hmem : id ∈ secret.body.data)
    {a : apiserver.Answer (.update Kind.secret (secretName modelName) { secret with
      body.data := secret.body.data.erase id })}
    (hobserved : Observed (fun _ => False) reads s.history
      (.update Kind.secret (secretName modelName) { secret with
      body.data := secret.body.data.erase id }) a history) :
    Inv m modelName (s.answered modelName i history) (Function.update φ i (some (.call (.revoke id),
      next (.call (.revoke id)) (.readBoth secret cm)
        (.api (.update .secret (secretName modelName) { secret with
        body.data := secret.body.data.erase id })) a))) := by
  obtain ⟨htask, hsecret, hcm⟩ := hinv.handled i _ _ hi
  have hexec : Exec (fun _ => False) s.cluster _ a history.current :=
    hobserved.exec_of_target (by simp [apiserver.Request.target])
  have hentries : metadata history.current (configMapName modelName) = s.entries modelName :=
    entries_of_frame modelName hobserved (by simp [apiserver.Request.target])
  rcases secret_updated hinv hsecret hobserved with ⟨hsame, e, rfl⟩ | ⟨hold, hdata⟩
  · exact hinv.unchanged hobserved hsame hentries hi trivial (.inl rfl) (fun h => h.elim)
  have hpresent : id ∈ s.keys modelName := by rwa [hold]
  have hchange : s.keys modelName ≠ secretData history.current (secretName modelName) := by
    intro heq
    rw [heq, hdata] at hpresent
    exact (Finmap.mem_erase.mp hpresent).1 rfl
  rw [answered_keys hchange hentries]
  generalize hs' : ({ s with history := history, secretWrites := _ } : State) = s'
  have hkeys' : s'.keys modelName = secret.body.data.erase id := by
    rw [← hs']
    exact hdata
  have hwritten : KeysWritten modelName s s' (fun _ _ => False) := by
    refine ⟨by rw [← hs'], by rw [← hs'], by rw [← hs'], by rw [← hs'], by rw [← hs'], by rw [← hs'], by rw [← hs'],
      by rw [← hs']; exact hentries, fun id' key' => ?_, fun _ _ hadded => hadded.elim, fun id' hmem' => .inl ?_⟩
    · rw [← hs', Stored, Stored]
      simp only [List.mem_cons, exists_eq_or_imp, hold, hdata, or_false]
      apply or_iff_right
      rintro ⟨hbefore, hafter⟩
      have hthere := (Finmap.mem_erase.mp (Finmap.mem_of_lookup_eq_some hafter)).2
      exact Finmap.lookup_eq_none.mp hbefore hthere
    · rw [hkeys'] at hmem'
      rw [hold]
      exact (Finmap.mem_erase.mp hmem').2
  have hknown (id' : GoString) (hid' : Known s' id') : Known s id' :=
    (hwritten.known.mp hid').resolve_right (fun h => h.choose_spec)
  have honward : Onward modelName s s' := by
    refine hwritten.onward (fun _ _ _ hp => ?_) (fun cm hp hs => ?_)
    · rw [← hs']
      exact hp.exec hexec
    · rw [← hs']
      exact hs.exec hp hexec
  have hledger : Ledger modelName s' := by
    refine hwritten.ledger hinv.ledger (fun _ _ hadded => hadded.elim)
      (fun _ _ hadded => hadded.elim)
      (fun id' key' hlookup _ hbegun => ?_)
    -- other keys stay, and this one's revocation has begun
    have hne : id' ≠ id := fun heq => hbegun (heq ▸ List.mem_of_getElem? htask)
    rw [hkeys', Finmap.lookup_erase_ne hne, ← hold]
    exact hlookup
  refine hinv.step honward ?_ ?_ hledger
    (fun j task stage _ _ id' info hb => .inl (hwritten.buried.mp hb))
    (fun task stage heq => ?_) (fun id' hid' => .inl (hknown id' hid')) ?_
      (fun id' stage heq _ => .inr ?_)
  · rw [← hs']
    exact hinv.coherent.observed hobserved
  · rw [← hs']
    exact hexec.unfinished hinv.unfinished
  · rw [Option.some.injEq, Prod.mk.injEq] at heq
    obtain ⟨rfl, rfl⟩ := heq
    refine ⟨honward.tasks i _ htask, ?_⟩
    cases a with
    | error e => trivial
    | ok stored =>
      refine ⟨honward.past .configMap _ cm hcm, fun id' htask' => ?_⟩
      obtain rfl := Operation.revoke.inj (Task.call.inj htask')
      refine ⟨honward.known (hinv.ledger.keys id hpresent), ?_, fun info hburied => ?_⟩
      · rw [hkeys']
        exact fun hmem' => (Finmap.mem_erase.mp hmem').1 rfl
      · exact (hinv.ledger.buried id info (hwritten.buried.mp hburied)).gone hpresent
  · cases a with
    | error e => exact .inl rfl
    | ok stored => exact .inl rfl
  · -- nobody else has taken this key away, since it was still there
    rw [Option.some.injEq, Prod.mk.injEq] at heq
    obtain rfl := Operation.revoke.inj (Task.call.inj heq.1)
    intro j stage' hj herasing
    obtain ⟨_, hholds⟩ := hinv.handled j _ _ hj
    exact (hholds.gone herasing) hpresent

end Secret

section ConfigMap

variable {m : Manager} {modelName : GoString} {s s' : State} {φ : Nat → Phase} {i : Nat}

/-- An update of the ConfigMap from a copy, as one of the Secret. -/
theorem configMap_updated {reads : Kind → Bool} {cm : Object ConfigMapBody} {data : GoMap Entry}
    {history : History Body} {a : apiserver.Answer
      (.update Kind.configMap (configMapName modelName) { cm with body.data := data })}
    (hinv : Inv m modelName s φ) (hpast : Past s.cluster .configMap (configMapName modelName) cm)
    (hobserved : Observed (fun _ => False) reads s.history
      (.update Kind.configMap (configMapName modelName) { cm with body.data := data }) a history) :
    (metadata history.current (configMapName modelName) = s.entries modelName ∧ ∃ e, a = .error e) ∨
    (s.cluster.lookup .configMap (configMapName modelName) = some cm ∧
      metadata history.current (configMapName modelName) = data) := by
  have hexec : Exec (fun _ => False) s.cluster _ a history.current :=
    hobserved.exec_of_target (by simp [apiserver.Request.target])
  rcases hexec.update_copy cm hinv.unfinished hpast.2 rfl rfl
    with ⟨hsame, herror⟩ | ⟨hlookup, object, hobject, hbody⟩
  · exact .inl ⟨metadata_congr hsame, herror⟩
  · refine .inr ⟨hlookup, ?_⟩
    rw [metadata_of_lookup hobject]
    exact congrArg ConfigMapBody.data hbody

/-- A change of the ConfigMap: the entries and the tombstones it adds. -/
structure EntriesWritten (modelName : GoString) (s s' : State)
    (recorded : GoString → Creator → Prop) (buried : GoString → KeyInfo → Prop) : Prop where
  tasks : s'.tasks = s.tasks
  begins : s'.begins = s.begins
  secretWrites : s'.secretWrites = s.secretWrites
  drawn : s'.drawn = s.drawn
  clock : s'.clock = s.clock
  created : s'.created = s.created
  revoked : s'.revoked = s.revoked
  keys : s'.keys modelName = s.keys modelName
  authors : ∀ w ∈ s'.metadataWrites, w.request < s.tasks.length
  recorded : ∀ id creator, Recorded s' id creator ↔ Recorded s id creator ∨ recorded id creator
  buried : ∀ id info, Buried s' id info ↔ Buried s id info ∨ buried id info

variable {recorded : GoString → Creator → Prop} {buried : GoString → KeyInfo → Prop}

private theorem EntriesWritten.stored (h : EntriesWritten modelName s s' recorded buried)
    {id key : GoString} :
    Stored s' id key ↔ Stored s id key := by
  rw [Stored, Stored, h.secretWrites]

private theorem EntriesWritten.known (h : EntriesWritten modelName s s' recorded buried)
    {id : GoString} :
    Known s' id ↔ Known s id := by
  simp only [Known, h.stored]

private theorem EntriesWritten.begunBy (h : EntriesWritten modelName s s' recorded buried)
    {id : GoString} {t : Nat} :
    BegunBy s' id t ↔ BegunBy s id t := by
  rw [BegunBy, BegunBy, h.tasks, h.begins]

private theorem EntriesWritten.begun (h : EntriesWritten modelName s s' recorded buried)
    {id : GoString} :
    Begun s' id ↔ Begun s id := by
  rw [Begun, Begun, h.tasks]

private theorem EntriesWritten.onward (h : EntriesWritten modelName s s' recorded buried)
    (hpast : ∀ kind name object, Past s.cluster kind name object → Past s'.cluster kind name object)
    (hsuperseded : ∀ cm, Past s.cluster .configMap (configMapName modelName) cm →
      Superseded s.cluster .configMap (configMapName modelName) cm →
      Superseded s'.cluster .configMap (configMapName modelName) cm) : Onward modelName s s' where
  clock := h.clock.ge
  drawn := by rw [h.drawn]; exact List.Subset.refl _
  tasks i task htask := by rwa [h.tasks]
  begins i began hbegan := by rwa [h.begins]
  past := hpast
  superseded := hsuperseded
  stored id key hstored := h.stored.mpr hstored
  recorded id creator hrecorded := (h.recorded id creator).mpr (.inl hrecorded)
  buried id info hburied := (h.buried id info).mpr (.inl hburied)
  gone id _ hgone := by rwa [h.keys]

/-- The ledger over a change of the ConfigMap. -/
theorem EntriesWritten.ledger (h : EntriesWritten modelName s s' recorded buried)
    (hledger : Ledger modelName s)
    (hentries : ∀ id entry, (s'.entries modelName).lookup id = some entry → Known s id ∧
      ∃ info, entry = .keyInfo info ∧ info.clientID = id ∧
      (info.revokedAt ≠ none → Buried s' id info))
    (hrecorded : ∀ id creator, Recorded s' id creator →
      (∃ info, (s'.entries modelName).lookup id = some (.keyInfo info) ∧ Names info creator) ∨
      (s'.entries modelName).lookup id = none ∧ ∃ info, Buried s' id info)
    (hburied : ∀ id info, Buried s' id info → Tomb modelName s' id info) : Ledger modelName s' := by
  refine ⟨?_, ?_, fun id hid => ?_, fun id hid => ?_, fun id key hstored hbegun => ?_,
    fun id entry hid => ?_, hrecorded,
    hburied, fun p hp => ?_, fun id hid => ?_⟩
  · rw [h.tasks]
    exact h.authors
  · rw [h.begins, h.tasks, h.clock]
    exact hledger.begins
  · rw [h.drawn]
    exact hledger.made id (h.known.mp hid)
  · rw [h.keys] at hid
    exact h.known.mpr (hledger.keys id hid)
  · rw [h.keys]
    exact hledger.live id key (h.stored.mp hstored) (fun hb => hbegun (h.begun.mpr hb))
  · exact (hentries id entry hid).imp_left h.known.mpr
  · rw [h.created] at hp
    exact (hledger.created p hp).imp h.stored.mpr (fun hr => (h.recorded _ _).mpr (.inl hr))
  · rw [h.revoked] at hid
    exact (hledger.revoked id hid).imp (fun info hb => (h.buried id info).mpr (.inl hb))

section Written

variable {reads : Kind → Bool} {cm : Object ConfigMapBody} {data : GoMap Entry}
  {history : History Body} {task : Task} {stage stage' : Stage} {a : apiserver.Answer
    (.update (B := Body) .configMap (configMapName modelName) { cm with body.data := data })}

/-- What a write of the ConfigMap puts on record. -/
theorem entriesWritten (hinv : Inv m modelName s φ) (hi : φ i = some (task, stage))
    (hkeys : secretData history.current (secretName modelName) = s.keys modelName)
    (hchange : s.entries modelName ≠ metadata history.current (configMapName modelName)) :
    EntriesWritten modelName s (s.answered modelName i history)
      (fun id creator => ∃ description, task = .call (.create creator description) ∧
        (s.entries modelName).lookup id = none ∧
        id ∈ metadata history.current (configMapName modelName))
      (fun id info => task = .call (.revoke id) ∧
        (metadata history.current (configMapName modelName)).lookup id = some (.keyInfo info)) := by
  obtain ⟨htask, _⟩ := hinv.handled i _ _ hi
  have hthread (task' : Task) : s.tasks[i]? = some task' ↔ task = task' := by
    rw [htask, Option.some.injEq]
  rw [answered_entries hkeys hchange]
  refine ⟨rfl, rfl, rfl, rfl, rfl, rfl, rfl, hkeys, fun w hw => ?_, fun id creator => ?_,
    fun id info => ?_⟩
  · rcases List.mem_cons.mp hw with rfl | hold
    · exact (List.getElem?_eq_some_iff.mp htask).1
    · exact hinv.ledger.authors w hold
  · simp only [Recorded, List.mem_cons, exists_eq_or_imp, hthread]
    exact or_comm
  · simp only [Buried, List.mem_cons, exists_eq_or_imp, hthread]
    exact or_comm

/-- A thread has changed the ConfigMap: all that was read of it before is outdated. -/
theorem Inv.written (hinv : Inv m modelName s φ) (hi : φ i = some (task, stage))
    (hobserved : Observed (fun _ => False) reads s.history
      (.update Kind.configMap (configMapName modelName) { cm with body.data := data }) a history)
    (hkeys : secretData history.current (secretName modelName) = s.keys modelName)
    (hchange : s.entries modelName ≠ metadata history.current (configMapName modelName))
    (hledger : Ledger modelName (s.answered modelName i history))
    (herasing : ∀ id, task = .call (.revoke id) → stage.Erasing)
    (hholds : stage'.Holds m modelName (s.answered modelName i history) task)
      (hsuffix : stage'.suffix = none)
    (hended : ¬stage'.Erasing) :
    Inv m modelName (s.answered modelName i history)
      (Function.update φ i (some (task, stage'))) := by
  have hexec : Exec (fun _ => False) s.cluster _ a history.current :=
    hobserved.exec_of_target (by simp [apiserver.Request.target])
  have hwritten := entriesWritten hinv hi hkeys hchange
  generalize hs' : s.answered modelName i history = s' at hwritten hledger hholds ⊢
  have honward : Onward modelName s s' := by
    refine hwritten.onward (fun _ _ _ hp => ?_) (fun cm hp hs => ?_)
    · rw [← hs']
      exact hp.exec hexec
    · rw [← hs']
      exact hs.exec hp hexec
  refine hinv.step honward ?_ ?_ hledger (fun j task' stage'' hji hj id info hb => ?_)
    (fun task' stage'' heq => ?_)
    (fun id hknown => .inl (hwritten.known.mp hknown)) (.inl hsuffix)
      (fun id stage'' heq herasing' => ?_)
  · rw [← hs']
    exact hinv.coherent.observed hobserved
  · rw [← hs']
    exact hexec.unfinished hinv.unfinished
  · rcases (hwritten.buried id info).mp hb with hold | ⟨htask, _⟩
    · exact .inl hold
    refine .inr ⟨fun copy hcopy => ?_, ?_⟩
    · rw [← hs']
      exact hcopy.superseded hexec (fun hsame => hchange (metadata_congr hsame).symm)
    · rintro rfl herasing'
      subst htask
      exact hji (hinv.alone j i id _ _ hj hi herasing' (herasing id rfl))
  · rw [Option.some.injEq, Prod.mk.injEq] at heq
    obtain ⟨rfl, rfl⟩ := heq
    exact ⟨honward.tasks i _ (hinv.handled i _ _ hi).1, hholds⟩
  · rw [Option.some.injEq, Prod.mk.injEq] at heq
    obtain ⟨rfl, rfl⟩ := heq
    exact absurd herasing' hended

/-- `CreateKey` records its key. -/
theorem Inv.record (hinv : Inv m modelName s φ) {creator : Creator} {description : GoString}
    {suffix bytes : List UInt8} {info : KeyInfo} {data : GoMap Entry}
    (hi : φ i = some (.call (.create creator description), .stored cm suffix bytes))
    (hclientID : info.clientID = m.clientID modelName creator suffix) (hnames : Names info creator)
    (hlive : info.revokedAt = none)
    (hdata : data = cm.body.data.insert (m.clientID modelName creator suffix) (.keyInfo info))
    {a : apiserver.Answer
      (.update (B := Body) .configMap (configMapName modelName) { cm with body.data := data })}
    (hobserved : Observed (fun _ => False) reads s.history
      (.update Kind.configMap (configMapName modelName) { cm with body.data := data }) a history) :
    Inv m modelName (s.answered modelName i history)
      (Function.update φ i (some (.call (.create creator description),
      next (.call (.create creator description)) (.stored cm suffix bytes)
        (.api (.update .configMap (configMapName modelName) { cm with body.data := data }))
          a))) := by
  obtain ⟨htask, hcm, hminted⟩ := hinv.handled i _ _ hi
  obtain ⟨hnone, hstored, houtdated⟩ := hminted creator description rfl
  have hkeys : secretData history.current (secretName modelName) = s.keys modelName :=
    keys_of_frame modelName hobserved (by simp [apiserver.Request.target])
  rcases configMap_updated hinv hcm hobserved with ⟨hsame, e, rfl⟩ | ⟨hlookup, hafter⟩
  · exact hinv.unchanged hobserved hkeys hsame hi trivial (.inl rfl) (fun h => h.elim)
  generalize hid : m.clientID modelName creator suffix =
    id at hnone hstored houtdated hclientID hdata
  have hbefore : s.entries modelName = cm.body.data := metadata_of_lookup hlookup
  have hfree : (s.entries modelName).lookup id = none := by
    rw [hbefore]
    exact Finmap.lookup_eq_none.mpr hnone
  -- the copy is current, so no revocation of this key has come in between
  have hunburied (info' : KeyInfo) : ¬Buried s id info' :=
    fun hb => houtdated info' hb cm hlookup rfl
  have hentry : (metadata history.current (configMapName modelName)).lookup id =
      some (.keyInfo info) := by
    rw [hafter, hdata]
    exact Finmap.lookup_insert ..
  have hother {id' : GoString} (hne : id' ≠ id) :
      (metadata history.current (configMapName modelName)).lookup id' =
        (s.entries modelName).lookup id' := by
    rw [hafter, hdata, hbefore, GoMap.lookup_insert_eq, if_neg hne]
  have hchange : s.entries modelName ≠ metadata history.current (configMapName modelName) := by
    intro heq
    rw [heq, hentry] at hfree
    cases hfree
  have hwritten := entriesWritten hinv hi hkeys hchange
  have hburied {id' : GoString} {info' : KeyInfo}
    (hb : Buried (s.answered modelName i history) id' info') :
      Buried s id' info' := by
    obtain hold | ⟨htask', _⟩ := (hwritten.buried id' info').mp hb
    · exact hold
    · cases htask'
  have hne {id' : GoString} {info' : KeyInfo} (hb : Buried s id' info') : id' ≠ id :=
    fun heq => hunburied info' (heq ▸ hb)
  have hrecorded {id' : GoString} {creator' : Creator}
    (hr : Recorded (s.answered modelName i history) id' creator') :
      Recorded s id' creator' ∧ id' ≠ id ∨ id' = id ∧ creator' = creator := by
    rcases (hwritten.recorded id' creator').mp hr with hold | ⟨_, htask', hwas, his⟩
    · refine .inl ⟨hold, fun heq => ?_⟩
      subst heq
      rcases hinv.ledger.recorded id' creator' hold with ⟨_, hthere, _⟩ | ⟨_, info', hb⟩
      · rw [hfree] at hthere
        cases hthere
      · exact hunburied info' hb
    · obtain ⟨rfl, _⟩ := Operation.create.inj (Task.call.inj htask')
      refine .inr ⟨by_contra (fun hother' => ?_), rfl⟩
      rw [← Finmap.lookup_isSome, hother hother', hwas] at his
      cases his
  have hledger : Ledger modelName (s.answered modelName i history) := by
    refine hwritten.ledger hinv.ledger (fun id' entry hid' => ?_) (fun id' creator' hr => ?_)
      (fun id' info' hb => ?_)
    · by_cases heq : id' = id
      · rw [heq, answered_data, hentry] at hid'
        obtain rfl := Option.some.inj hid'
        exact ⟨heq ▸ ⟨_, hstored⟩, info, rfl, hclientID.trans heq.symm,
          fun hrevoked => absurd hlive hrevoked⟩
      · rw [answered_data, hother heq] at hid'
        obtain ⟨hknown, info', hinfo', hid, hrevoked⟩ := hinv.ledger.entries id' entry hid'
        exact ⟨hknown, info', hinfo', hid, fun h => (hwritten.buried _ _).mpr (.inl (hrevoked h))⟩
    · rw [answered_data]
      rcases hrecorded hr with ⟨hold, heq⟩ | ⟨rfl, rfl⟩
      · rw [hother heq]
        refine (hinv.ledger.recorded id' creator' hold).imp_right (fun hgone => hgone.imp_right ?_)
        exact fun hb => hb.imp (fun info' hb => (hwritten.buried _ _).mpr (.inl hb))
      · exact .inl ⟨info, hentry, hnames⟩
    · have hold := hburied hb
      obtain ⟨hknown, hgone, hkept, htomb, honly⟩ := hinv.ledger.buried id' info' hold
      refine ⟨hwritten.known.mpr hknown, by rwa [hwritten.keys], ?_, fun creator' hr => ?_,
        fun info'' hb' => honly info'' (hburied hb')⟩
      · simpa only [answered_data, hother (hne hold), hwritten.clock, hwritten.begunBy] using hkept
      · exact htomb creator' ((hrecorded hr).resolve_right (fun h => hne hold h.1)).1
  refine hinv.written hi hobserved hkeys hchange hledger (fun _ heq => (by cases heq)) ?_ ?_ ?_
  · cases a with
    | error e => trivial
    | ok stored =>
      intro creator' description' htask'
      obtain ⟨rfl, rfl⟩ := Operation.create.inj (Task.call.inj htask')
      rw [hid]
      exact ⟨hwritten.stored.mpr hstored, (hwritten.recorded id creator).mpr
        (.inr ⟨description, rfl, hfree, Finmap.mem_of_lookup_eq_some hentry⟩)⟩
  · cases a with
    | error e => rfl
    | ok stored => rfl
  · cases a with
    | error e => exact fun h => h
    | ok stored => exact fun h => h

/-- The entries once a tombstone is written: it is there, and the tombstones of keys that were
revoked long ago are not. -/
structure TombWritten (modelName : GoString) (s s' : State) (id : GoString) (now : Nat)
    (tomb : KeyInfo) : Prop where
  entry : (s'.entries modelName).lookup id = some (.keyInfo tomb)
  other : ∀ id', id' ≠ id → (s'.entries modelName).lookup id' =
    if ((s.entries modelName).lookup id').any (Manager.expired now) then none
      else (s.entries modelName).lookup id'
  recorded : ∀ id' creator, Recorded s' id' creator → Recorded s id' creator
  buried : ∀ id' info, Buried s' id' info ↔ Buried s id' info ∧ id' ≠ id ∨ id' = id ∧ info = tomb

section Tomb

variable {id : GoString} {now : Nat} {tomb : KeyInfo}

/-- Each entry is under the client ID of a key that was minted. -/
theorem TombWritten.entries (h : TombWritten modelName s s' id now tomb)
    (hledger : Ledger modelName s)
    (hknown : Known s id) (hclientID : tomb.clientID = id) {id' : GoString} {entry : Entry}
    (hentry : (s'.entries modelName).lookup id' = some entry) : Known s id' ∧
      ∃ info, entry = .keyInfo info ∧ info.clientID = id' ∧
      (info.revokedAt ≠ none → Buried s' id' info) := by
  by_cases heq : id' = id
  · subst heq
    rw [h.entry] at hentry
    obtain rfl := Option.some.inj hentry
    exact ⟨hknown, tomb, rfl, hclientID, fun _ => (h.buried _ _).mpr (.inr ⟨rfl, rfl⟩)⟩
  · rw [h.other id' heq] at hentry
    split_ifs at hentry
    obtain ⟨hknown', info, hinfo, hclientID', hrevoked⟩ := hledger.entries id' entry hentry
    exact ⟨hknown', info, hinfo, hclientID', fun hr => (h.buried _ _).mpr (.inl ⟨hrevoked hr, heq⟩)⟩

/-- A key whose entry is gone was revoked. -/
theorem TombWritten.recordedOr (h : TombWritten modelName s s' id now tomb)
    (hledger : Ledger modelName s)
    (hnames : ∀ creator, Recorded s id creator → Names tomb creator) {id' : GoString}
    {creator : Creator} (hrecorded : Recorded s' id' creator) :
    (∃ info, (s'.entries modelName).lookup id' = some (.keyInfo info) ∧ Names info creator) ∨
      (s'.entries modelName).lookup id' = none ∧ ∃ info, Buried s' id' info := by
  have hold := h.recorded id' creator hrecorded
  by_cases heq : id' = id
  · subst heq
    exact .inl ⟨tomb, h.entry, hnames creator hold⟩
  rw [h.other id' heq]
  rcases hledger.recorded id' creator hold with ⟨info, hinfo, hnames'⟩ | ⟨hnone, info, hb⟩
  · rw [hinfo]
    split_ifs with hexpired
    · -- only what a revocation left is ever dropped
      obtain ⟨_, info', hinfo', _, hrevoked⟩ := hledger.entries id' _ hinfo
      obtain rfl := Entry.keyInfo.inj hinfo'
      refine .inr ⟨rfl, info, (h.buried _ _).mpr (.inl ⟨hrevoked (fun hlive => ?_), heq⟩)⟩
      simp [Manager.expired, Entry.unmarshal, hlive] at hexpired
    · exact .inl ⟨info, rfl, hnames'⟩
  · rw [hnone]
    exact .inr ⟨by simp, info, (h.buried _ _).mpr (.inl ⟨hb, heq⟩)⟩

/-- A tombstone from before is there until its retention is over. -/
theorem TombWritten.kept (h : TombWritten modelName s s' id now tomb) (hclock : s'.clock = s.clock)
    (hnow : now ≤ s.clock)
    {id' : GoString} (hne : id' ≠ id) {info : KeyInfo} {t : Nat} (ht : info.revokedAt = some t)
    (hkept : (s.entries modelName).lookup id' = some (.keyInfo info) ∨
      (s.entries modelName).lookup id' = none ∧ t + revokedKeyRetention < s.clock) :
    (s'.entries modelName).lookup id' = some (.keyInfo info) ∨
      (s'.entries modelName).lookup id' = none ∧ t + revokedKeyRetention < s'.clock := by
  rw [h.other id' hne, hclock]
  rcases hkept with hthere | ⟨hnone, hlong⟩
  · rw [hthere]
    split_ifs with hexpired
    · refine .inr ⟨rfl, ?_⟩
      simp only [Option.any_some, Manager.expired, Entry.unmarshal, Option.bind_some, ht,
        decide_eq_true_eq] at hexpired
      omega
    · exact .inl rfl
  · rw [hnone]
    exact .inr ⟨by simp, hlong⟩

/-- The ledger over a tombstone. -/
theorem TombWritten.ledger (h : TombWritten modelName s s' id now tomb)
    (hledger : Ledger modelName s)
    (hwritten : EntriesWritten modelName s s' recorded buried) (hnow : now ≤ s.clock)
    (hknown : Known s id)
    (hgone : id ∉ s.keys modelName) (hbegun : BegunBy s id now) (hclientID : tomb.clientID = id)
    (hrevokedAt : tomb.revokedAt = some now)
    (hnames : ∀ creator, Recorded s id creator → Names tomb creator) :
    Ledger modelName s' := by
  refine hwritten.ledger hledger (fun id' entry => h.entries hledger hknown hclientID)
    (fun id' creator => h.recordedOr hledger hnames) (fun id' info hb => ?_)
  rcases (h.buried id' info).mp hb with ⟨hold, hne⟩ | ⟨rfl, rfl⟩
  · obtain ⟨hknown', hgone', ⟨t, ht, hbegun', hkept⟩, hnames', honly⟩ :=
      hledger.buried id' info hold
    refine ⟨hwritten.known.mpr hknown', by rwa [hwritten.keys],
      ⟨t, ht, hwritten.begunBy.mpr hbegun', h.kept hwritten.clock hnow hne ht hkept⟩,
      fun creator hr => hnames' creator (h.recorded _ _ hr), fun info' hb' => ?_⟩
    rcases (h.buried id' info').mp hb' with ⟨hold', _⟩ | ⟨heq, _⟩
    · exact honly info' hold'
    · exact absurd heq hne
  · refine ⟨hwritten.known.mpr
      hknown, by rwa [hwritten.keys], ⟨now, hrevokedAt, hwritten.begunBy.mpr hbegun,
      .inl h.entry⟩, fun creator hr => hnames creator (h.recorded _ _ hr), fun info' hb' => ?_⟩
    rcases (h.buried id' info').mp hb' with ⟨_, hne⟩ | ⟨_, heq⟩
    · exact absurd rfl hne
    · exact heq

end Tomb

/-- Where the ConfigMap changes, what a revocation of a key without a tombstone writes is one. -/
theorem tombWritten (hinv : Inv m modelName s φ) {id : GoString} {now : Nat} {tomb : KeyInfo}
    (hi : φ i = some (.call (.revoke id), stage)) (hunburied : ∀ info, ¬Buried s id info)
    (hkeys : secretData history.current (secretName modelName) = s.keys modelName)
    (hchange : s.entries modelName ≠ metadata history.current (configMapName modelName))
    (hafter : metadata history.current (configMapName modelName) =
      (Manager.dropExpired now (s.entries modelName)).insert id (.keyInfo tomb)) :
    TombWritten modelName s (s.answered modelName i history) id now tomb := by
  have hwritten := entriesWritten hinv hi hkeys hchange
  have hentry : (metadata history.current (configMapName modelName)).lookup id =
      some (.keyInfo tomb) := by
    rw [hafter]
    exact Finmap.lookup_insert ..
  refine ⟨?_, fun id' hne => ?_, fun id' creator hr => ?_,
    fun id' info => ⟨fun hb => ?_, fun hb => ?_⟩⟩
  · rw [answered_data]
    exact hentry
  · rw [answered_data, hafter, GoMap.lookup_insert_eq, if_neg hne, Manager.lookup_dropExpired]
  · obtain hold | ⟨_, htask', _⟩ := (hwritten.recorded id' creator).mp hr
    · exact hold
    · cases htask'
  · rcases (hwritten.buried id' info).mp hb with hold | ⟨htask', hthere⟩
    · exact .inl ⟨hold, fun heq => hunburied info (heq ▸ hold)⟩
    · obtain rfl := Operation.revoke.inj (Task.call.inj htask')
      rw [hentry] at hthere
      exact .inr ⟨rfl, (Entry.keyInfo.inj (Option.some.inj hthere)).symm⟩
  · rcases hb with ⟨hold, _⟩ | ⟨rfl, rfl⟩
    · exact (hwritten.buried _ _).mpr (.inl hold)
    · exact (hwritten.buried _ _).mpr (.inr ⟨rfl, hentry⟩)

/-- `RevokeKey` leaves a tombstone, and drops those of keys revoked long ago. -/
theorem Inv.bury (hinv : Inv m modelName s φ) {id : GoString} {now : Nat} {data : GoMap Entry}
    (hi : φ i = some (.call (.revoke id), .timed cm now))
    (hdata : data = (Manager.dropExpired now cm.body.data).insert id
      (.keyInfo (Manager.tombstone id now
      (((cm.body.data.lookup id).bind Entry.unmarshal).getD Manager.zeroKeyInfo))))
    {a : apiserver.Answer
      (.update (B := Body) .configMap (configMapName modelName) { cm with body.data := data })}
    (hobserved : Observed (fun _ => False) reads s.history
      (.update Kind.configMap (configMapName modelName) { cm with body.data := data }) a history) :
    Inv m modelName (s.answered modelName i history) (Function.update φ i (some (.call (.revoke id),
      next (.call (.revoke id)) (.timed cm now)
        (.api (.update .configMap (configMapName modelName) { cm with body.data := data }))
          a))) := by
  obtain ⟨_, hnow, hcm, hrevoking⟩ := hinv.handled i _ _ hi
  obtain ⟨hbegun, hknown, hgone, hunburied⟩ := hrevoking id rfl
  have hkeys : secretData history.current (secretName modelName) = s.keys modelName :=
    keys_of_frame modelName hobserved (by simp [apiserver.Request.target])
  rcases configMap_updated hinv hcm hobserved with ⟨hsame, e, rfl⟩ | ⟨hlookup, hafter⟩
  · exact hinv.unchanged hobserved hkeys hsame hi trivial (.inl rfl) (fun h => h.elim)
  have hbefore : s.entries modelName = cm.body.data := metadata_of_lookup hlookup
  rw [← hbefore] at hdata
  generalize htomb : Manager.tombstone id now
    (((s.entries modelName).lookup id).bind Entry.unmarshal |>.getD
    Manager.zeroKeyInfo) = tomb at hdata
  have hrevokedAt : tomb.revokedAt = some now := by
    rw [← htomb]
    rfl
  have hchange : s.entries modelName ≠ metadata history.current (configMapName modelName) := by
    intro heq
    have hentry : (s.entries modelName).lookup id = some (.keyInfo tomb) := by
      rw [heq, hafter, hdata]
      exact Finmap.lookup_insert ..
    obtain ⟨_, info, hinfo, _, hrevoked⟩ := hinv.ledger.entries id _ hentry
    obtain rfl := Entry.keyInfo.inj hinfo
    exact hunburied tomb (hrevoked (by rw [hrevokedAt]; exact Option.some_ne_none _))
  -- the tombstone names whom the entry named
  have hnames (creator : Creator) (hr : Recorded s id creator) : Names tomb creator := by
    rcases hinv.ledger.recorded id creator hr with ⟨info, hinfo, hnames⟩ | ⟨_, info, hb⟩
    · rw [hinfo] at htomb
      rw [← htomb]
      exact ⟨hnames.username, hnames.subject, hnames.groups⟩
    · exact absurd hb (hunburied info)
  have htombs := tombWritten hinv hi hunburied hkeys hchange (hafter.trans hdata)
  have hledger := htombs.ledger hinv.ledger
    (entriesWritten hinv hi hkeys hchange) hnow hknown hgone hbegun
    (by rw [← htomb]; rfl) hrevokedAt hnames
  refine hinv.written hi hobserved hkeys hchange hledger (fun _ _ => trivial) ?_ ?_ ?_
  · cases a with
    | error e => trivial
    | ok stored =>
      intro id' htask'
      obtain rfl := Operation.revoke.inj (Task.call.inj htask')
      exact ⟨tomb, (htombs.buried _ _).mpr (.inr ⟨rfl, rfl⟩)⟩
  · cases a with
    | error e => rfl
    | ok stored => rfl
  · cases a with
    | error e => exact fun h => h
    | ok stored => exact fun h => h

end Written

end ConfigMap

end secrets.lifecycle
