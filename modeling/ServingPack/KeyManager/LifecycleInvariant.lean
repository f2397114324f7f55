import ServingPack.KeyManager.Lifecycle

open golang apiserver concurrency kube

namespace secrets.lifecycle

/-- A key that `CreateKey` has stored. -/
def Stored (s : State) (id key : GoString) : Prop :=
  ∃ w ∈ s.secretWrites, w.before.lookup id = none ∧ w.after.lookup id = some key

def Known (s : State) (id : GoString) : Prop := ∃ key, Stored s id key

/-- A `CreateKey` for this user has written the metadata of the key. -/
def Recorded (s : State) (id : GoString) (creator : Creator) : Prop :=
  ∃ w ∈ s.metadataWrites, ∃ description,
    s.tasks[w.request]? = some (.call (.create creator description)) ∧
    w.before.lookup id = none ∧ id ∈ w.after

/-- What a tombstone stands for: a key that is gone for good, whose owner is named
as long as the retention lasts. -/
structure Tomb (modelName : GoString) (s : State) (id : GoString) (info : KeyInfo) : Prop where
  known : Known s id
  gone : id ∉ s.keys modelName
  kept : ∃ t, info.revokedAt = some t ∧ BegunBy s id t ∧
    ((s.entries modelName).lookup id = some (.keyInfo info) ∨
    (s.entries modelName).lookup id = none ∧ t + revokedKeyRetention < s.clock)
  names : ∀ creator, Recorded s id creator → Names info creator
  only : ∀ info', Buried s id info' → info' = info

/-- The model's Secret and ConfigMap against what was written and returned. -/
structure Ledger (modelName : GoString) (s : State) : Prop where
  authors : ∀ w ∈ s.metadataWrites, w.request < s.tasks.length
  begins : s.begins.length = s.tasks.length ∧ ∀ began ∈ s.begins, began ≤ s.clock
  made : ∀ id, Known s id → ∃ suffix ∈ s.drawn, suffix.length = 8 ∧
    ∃ idPrefix, id = idPrefix ++ hexEncode suffix
  keys : ∀ id ∈ s.keys modelName, Known s id
  live : ∀ id key, Stored s id key → ¬Begun s id → (s.keys modelName).lookup id = some key
  entries : ∀ id entry, (s.entries modelName).lookup id = some entry → Known s id ∧
    ∃ info, entry = .keyInfo info ∧ info.clientID = id ∧ (info.revokedAt ≠ none → Buried s id info)
  recorded : ∀ id creator, Recorded s id creator →
    (∃ info, (s.entries modelName).lookup id = some (.keyInfo info) ∧ Names info creator) ∨
    (s.entries modelName).lookup id = none ∧ ∃ info, Buried s id info
  buried : ∀ id info, Buried s id info → Tomb modelName s id info
  created : ∀ p ∈ s.created, Stored s p.1.clientID p.1.apiKey ∧ Recorded s p.1.clientID p.2
  revoked : ∀ id ∈ s.revoked, ∃ info, Buried s id info

/-- The random part a call holds and has not stored yet. -/
def Stage.suffix : Stage → Option (List UInt8)
  | .drew _ _ suffix => some suffix
  | .drewKey _ _ suffix _ => some suffix
  | _ => none

def Phase.suffix (φ : Phase) : Option (List UInt8) := φ.bind (fun p => p.2.suffix)

/-- A `RevokeKey` has taken the key away and not left its tombstone yet. -/
def Stage.Erasing : Stage → Prop
  | .erased _ => True
  | .timed _ _ => True
  | _ => False

/-- What a task knows in its stage. -/
def Stage.Holds (m : Manager) (modelName : GoString) (s : State) (task : Task) : Stage → Prop
  | .ready => True
  | .readSecret secret => Past s.cluster .secret (secretName modelName) secret
  | .readBoth secret cm => Past s.cluster .secret (secretName modelName) secret ∧
      Past s.cluster .configMap (configMapName modelName) cm
  | .drew secret cm suffix => Past s.cluster .secret (secretName modelName) secret ∧
      Past s.cluster .configMap (configMapName modelName) cm ∧ ∀ creator description,
      task = .call (.create creator description) →
        m.clientID modelName creator suffix ∉ secret.body.data ∧
        m.clientID modelName creator suffix ∉ cm.body.data
  | .drewKey secret cm suffix _ => Past s.cluster .secret (secretName modelName) secret ∧
      Past s.cluster .configMap (configMapName modelName) cm ∧ ∀ creator description,
      task = .call (.create creator description) →
        m.clientID modelName creator suffix ∉ secret.body.data ∧
        m.clientID modelName creator suffix ∉ cm.body.data
  | .stored cm suffix bytes =>
      Past s.cluster .configMap (configMapName modelName) cm ∧ ∀ creator description,
      task = .call (.create creator description) →
        m.clientID modelName creator suffix ∉ cm.body.data ∧
        Stored s (m.clientID modelName creator suffix) (apiKeyText bytes) ∧
        ∀ info, Buried s (m.clientID modelName creator suffix) info →
          Superseded s.cluster .configMap (configMapName modelName) cm
  | .recorded suffix bytes => ∀ creator description, task = .call (.create creator description) →
      Stored s (m.clientID modelName creator suffix) (apiKeyText bytes) ∧
        Recorded s (m.clientID modelName creator suffix) creator
  | .erased cm => Past s.cluster .configMap (configMapName modelName) cm ∧
      ∀ id, task = .call (.revoke id) →
      Known s id ∧ id ∉ s.keys modelName ∧ ∀ info, ¬Buried s id info
  | .timed cm now => now ≤ s.clock ∧ Past s.cluster .configMap (configMapName modelName) cm ∧
      ∀ id, task = .call (.revoke id) → BegunBy s id now ∧ Known s id ∧ id ∉ s.keys modelName ∧
        ∀ info, ¬Buried s id info
  | .buried => ∀ id, task = .call (.revoke id) → ∃ info, Buried s id info
  | .foundSecret existing => Past s.cluster .secret (secretName modelName) existing
  | .foundConfigMap existing => Past s.cluster .configMap (configMapName modelName) existing

structure Inv (m : Manager) (modelName : GoString) (s : State) (φ : Nat → Phase) : Prop where
  coherent : s.history.Coherent
  unfinished : s.cluster.Unfinished
  ledger : Ledger modelName s
  handled : ∀ i task stage, φ i = some (task, stage) → s.tasks[i]? = some task ∧
    stage.Holds m modelName s task
  suffixes : ∀ i suffix, (φ i).suffix = some suffix → suffix ∈ s.drawn ∧ suffix.length = 8 ∧
    (∀ idPrefix, ¬Known s (idPrefix ++ hexEncode suffix)) ∧ ∀ j, j ≠ i → (φ j).suffix ≠ some suffix
  alone : ∀ i j id stage stage', φ i = some (.call (.revoke id), stage) →
    φ j = some (.call (.revoke id), stage') →
    stage.Erasing → stage'.Erasing → i = j

section Records

variable {modelName : GoString} {s s' : State} {id key : GoString} {creator : Creator}
  {info : KeyInfo}

/-- A key that was revoked had begun to be made. -/
theorem Buried.begun (h : Buried s id info) : Begun s id := by
  obtain ⟨w, _, htask, _⟩ := h
  exact List.mem_of_getElem? htask

/-- A longer log has the shorter one's entries at the same places. -/
theorem getElem?_of_initial {α : Type} {l l' : List α} (h : l <+: l') {i : Nat} {a : α}
    (ha : l[i]? = some a) :
    l'[i]? = some a := by
  obtain ⟨rest, rfl⟩ := h
  rw [List.getElem?_append_left (List.getElem?_eq_some_iff.mp ha).1, ha]

/-- Nothing new is on record. Tasks may have begun. -/
structure SameRecords (s s' : State) : Prop where
  tasks : s.tasks <+: s'.tasks
  begins : s.begins <+: s'.begins
  authors : ∀ w ∈ s.metadataWrites, w.request < s.tasks.length
  secretWrites : s'.secretWrites = s.secretWrites
  metadataWrites : s'.metadataWrites = s.metadataWrites

/-- A step that adds no task, no beginning and no write leaves the records as they are. -/
theorem SameRecords.of_eq (h : Ledger modelName s) (htasks : s'.tasks = s.tasks)
    (hbegins : s'.begins = s.begins) (hsecretWrites : s'.secretWrites = s.secretWrites)
    (hmetadataWrites : s'.metadataWrites = s.metadataWrites) :
    SameRecords s s' :=
  ⟨by rw [htasks], by rw [hbegins], h.authors, hsecretWrites, hmetadataWrites⟩

private theorem SameRecords.author (h : SameRecords s s') {w : Write Entry}
    (hw : w ∈ s.metadataWrites) :
    s'.tasks[w.request]? = s.tasks[w.request]? := by
  rw [List.getElem?_eq_getElem (h.authors w hw)]
  exact getElem?_of_initial h.tasks (List.getElem?_eq_getElem (h.authors w hw))

private theorem SameRecords.stored (h : SameRecords s s') : Stored s' id key ↔ Stored s id key := by
  rw [Stored, Stored, h.secretWrites]

/-- With the same records, the same keys are known. -/
theorem SameRecords.known (h : SameRecords s s') : Known s' id ↔ Known s id := by
  simp only [Known, h.stored]

private theorem SameRecords.recorded (h : SameRecords s s') :
    Recorded s' id creator ↔ Recorded s id creator := by
  rw [Recorded, Recorded, h.metadataWrites]
  exact exists_congr (fun w => and_congr_right (fun hw => by rw [h.author hw]))

/-- And the same keys are revoked. -/
theorem SameRecords.buried (h : SameRecords s s') : Buried s' id info ↔ Buried s id info := by
  rw [Buried, Buried, h.metadataWrites]
  exact exists_congr (fun w => and_congr_right (fun hw => by rw [h.author hw]))

private theorem SameRecords.begun (h : SameRecords s s') (hbegun : Begun s id) : Begun s' id :=
  h.tasks.subset hbegun

private theorem SameRecords.begunBy (h : SameRecords s s') {t : Nat} (hbegun : BegunBy s id t) :
    BegunBy s' id t := by
  obtain ⟨i, began, htask, hbegan, hle⟩ := hbegun
  exact ⟨i, began, getElem?_of_initial h.tasks htask, getElem?_of_initial h.begins hbegan, hle⟩

/-- The ledger is kept while neither the data nor the records change. -/
theorem Ledger.congr (h : Ledger modelName s) (hsame : SameRecords s s')
    (hkeys : s'.keys modelName = s.keys modelName)
    (hentries : s'.entries modelName = s.entries modelName) (hdrawn : s.drawn ⊆ s'.drawn)
    (hclock : s.clock ≤ s'.clock)
    (hbegins : s'.begins.length = s'.tasks.length ∧ ∀ began ∈ s'.begins, began ≤ s'.clock)
    (hcreated : ∀ p ∈ s'.created, p ∈ s.created ∨ Stored s p.1.clientID p.1.apiKey ∧
      Recorded s p.1.clientID p.2)
    (hrevoked : ∀ id ∈ s'.revoked, id ∈ s.revoked ∨ ∃ info, Buried s id info) :
    Ledger modelName s' := by
  refine ⟨?_, ?_, fun id hid => ?_, fun id hid => ?_, fun id key hstored hbegun => ?_,
    fun id entry hid => ?_,
    fun id creator hrecorded => ?_, fun id info hburied => ?_, fun p hp => ?_, fun id hid => ?_⟩
  · rw [hsame.metadataWrites]
    exact fun w hw => (h.authors w hw).trans_le hsame.tasks.length_le
  · exact hbegins
  · obtain ⟨suffix, hsuffix, hrest⟩ := h.made id (hsame.known.mp hid)
    exact ⟨suffix, hdrawn hsuffix, hrest⟩
  · rw [hkeys] at hid
    exact hsame.known.mpr (h.keys id hid)
  · rw [hkeys]
    exact h.live id key (hsame.stored.mp hstored) (fun hb => hbegun (hsame.begun hb))
  · rw [hentries] at hid
    obtain ⟨hknown, info, rfl, hclientID, hburied⟩ := h.entries id entry hid
    exact ⟨hsame.known.mpr hknown, info, rfl, hclientID,
      fun hrevoked => hsame.buried.mpr (hburied hrevoked)⟩
  · rw [hentries]
    refine (h.recorded id creator (hsame.recorded.mp hrecorded)).imp_right
      (fun hnone => hnone.imp_right ?_)
    exact fun ⟨info, hburied⟩ => ⟨info, hsame.buried.mpr hburied⟩
  · obtain ⟨hknown, hgone, ⟨t, ht, hbegun, hkept⟩, hnames, honly⟩ :=
      h.buried id info (hsame.buried.mp hburied)
    refine ⟨hsame.known.mpr hknown, by rwa [hkeys], ⟨t, ht, hsame.begunBy hbegun, ?_⟩,
      fun creator hr => hnames creator (hsame.recorded.mp hr),
        fun info' hb => honly info' (hsame.buried.mp hb)⟩
    rw [hentries]
    exact hkept.imp_right (fun hgone => hgone.imp_right (fun hlt => hlt.trans_le hclock))
  · rcases hcreated p hp with hold | hnew
    · exact (h.created p hold).imp hsame.stored.mpr hsame.recorded.mpr
    · exact hnew.imp hsame.stored.mpr hsame.recorded.mpr
  · rcases hrevoked id hid with hold | hnew
    · exact (h.revoked id hold).imp (fun _ hb => hsame.buried.mpr hb)
    · exact hnew.imp (fun _ hb => hsame.buried.mpr hb)

end Records

section Steps

variable {m : Manager} {modelName : GoString} {s s' : State} {φ : Nat → Phase} {i : Nat}
  {task : Task} {stage : Stage}

/-- What every step keeps of what tasks rely on. -/
structure Onward (modelName : GoString) (s s' : State) : Prop where
  clock : s.clock ≤ s'.clock
  drawn : s.drawn ⊆ s'.drawn
  tasks : ∀ (i : Nat) task, s.tasks[i]? = some task → s'.tasks[i]? = some task
  begins : ∀ (i : Nat) (began : Nat), s.begins[i]? = some began → s'.begins[i]? = some began
  past : ∀ kind name object, Past s.cluster kind name object → Past s'.cluster kind name object
  superseded : ∀ cm, Past s.cluster .configMap (configMapName modelName) cm →
    Superseded s.cluster .configMap (configMapName modelName) cm →
    Superseded s'.cluster .configMap (configMapName modelName) cm
  stored : ∀ id key, Stored s id key → Stored s' id key
  recorded : ∀ id creator, Recorded s id creator → Recorded s' id creator
  buried : ∀ id info, Buried s id info → Buried s' id info
  gone : ∀ id, Known s id → id ∉ s.keys modelName → id ∉ s'.keys modelName

/-- A key that is known stays known. -/
theorem Onward.known (h : Onward modelName s s') {id : GoString} (hknown : Known s id) :
    Known s' id :=
  hknown.imp (fun key hkey => h.stored id key hkey)

private theorem Onward.begunBy (h : Onward modelName s s') {id : GoString} {t : Nat}
    (hbegun : BegunBy s id t) : BegunBy s' id t := by
  obtain ⟨i, began, htask, hbegan, hle⟩ := hbegun
  exact ⟨i, began, h.tasks i _ htask, h.begins i _ hbegan, hle⟩

/-- A new tombstone is no surprise to a task: what it has read is outdated by it, and
it is not about to write another one for that key. -/
def Unsurprised (modelName : GoString) (s s' : State) (task : Task) (stage : Stage) : Prop :=
  ∀ id info, Buried s' id info → Buried s id info ∨
    (∀ cm, Past s.cluster .configMap (configMapName modelName) cm →
      Superseded s'.cluster .configMap (configMapName modelName) cm) ∧
    (task = .call (.revoke id) → ¬stage.Erasing)

/-- What a call has read stays true while others write, unless the write is one its stage rules
out. -/
theorem Stage.Holds.onward (h : stage.Holds m modelName s task) (honward : Onward modelName s s')
    (hnew : Unsurprised modelName s s' task stage) : stage.Holds m modelName s' task := by
  have hunburied {id : GoString} (htask : task = .call (.revoke id)) (herasing : stage.Erasing)
      (hold : ∀ info, ¬Buried s id info) (info : KeyInfo) : ¬Buried s' id info := by
    intro hburied
    rcases hnew id info hburied with hwas | ⟨_, hother⟩
    · exact hold info hwas
    · exact hother htask herasing
  cases stage with
  | ready => trivial
  | readSecret secret => exact honward.past .secret _ secret h
  | readBoth secret cm => exact h.imp (honward.past _ _ _) (honward.past _ _ _)
  | drew secret cm suffix => exact ⟨honward.past _ _ _ h.1, honward.past _ _ _ h.2.1, h.2.2⟩
  | drewKey secret cm suffix bytes =>
    exact ⟨honward.past _ _ _ h.1, honward.past _ _ _ h.2.1, h.2.2⟩
  | stored cm suffix bytes =>
    refine ⟨honward.past _ _ _ h.1, fun creator description htask => ?_⟩
    obtain ⟨hfree, hstored, houtdated⟩ := h.2 creator description htask
    refine ⟨hfree, honward.stored _ _ hstored, fun info hburied => ?_⟩
    rcases hnew _ info hburied with hwas | ⟨hall, _⟩
    · exact honward.superseded cm h.1 (houtdated info hwas)
    · exact hall cm h.1
  | recorded suffix bytes =>
    exact fun creator description htask => (h creator description htask).imp (honward.stored _ _)
      (honward.recorded _ _)
  | erased cm =>
    refine ⟨honward.past _ _ _ h.1, fun id htask => ?_⟩
    obtain ⟨hknown, hgone, hburied⟩ := h.2 id htask
    exact ⟨honward.known hknown, honward.gone id hknown hgone, hunburied htask trivial hburied⟩
  | timed cm now =>
    refine ⟨h.1.trans honward.clock, honward.past _ _ _ h.2.1, fun id htask => ?_⟩
    obtain ⟨hbegun, hknown, hgone, hburied⟩ := h.2.2 id htask
    exact ⟨honward.begunBy hbegun, honward.known hknown, honward.gone id hknown hgone,
      hunburied htask trivial hburied⟩
  | buried => exact fun id htask => (h id htask).imp (fun _ hb => honward.buried _ _ hb)
  | foundSecret existing => exact honward.past .secret _ existing h
  | foundConfigMap existing => exact honward.past .configMap _ existing h

/-- A key is gone once its revocation has taken it away. -/
theorem Stage.Holds.gone {id : GoString} (h : stage.Holds m modelName s (.call (.revoke id)))
    (herasing : stage.Erasing) :
    id ∉ s.keys modelName := by
  cases stage with
  | erased cm => exact (h.2 id rfl).2.1
  | timed cm now => exact (h.2.2 id rfl).2.2.1
  | _ => exact herasing.elim

/-- The random part that one thread holds is in no key stored by the others. -/
theorem suffix_eq {suffix suffix' : List UInt8} {idPrefix idPrefix' : GoString}
    (hlength : suffix.length = 8) (hlength' : suffix'.length = 8)
    (h : idPrefix ++ hexEncode suffix = idPrefix' ++ hexEncode suffix') :
    suffix = suffix' :=
  hexEncode_injective (List.append_inj' h
    (by rw [hexEncode_length, hexEncode_length, hlength, hlength'])).2

/-- One thread moves on; new keys are of its own random part. -/
theorem Inv.step (hinv : Inv m modelName s φ) (honward : Onward modelName s s')
    (hcoherent : s'.history.Coherent)
    (hunfinished : s'.cluster.Unfinished) (hledger : Ledger modelName s') {ψ : Phase}
    (hothers : ∀ j task stage, j ≠ i → φ j = some (task, stage) →
      Unsurprised modelName s s' task stage)
    (hholds : ∀ task stage, ψ = some (task, stage) → s'.tasks[i]? = some task ∧
      stage.Holds m modelName s' task)
    (hknown : ∀ id, Known s' id → Known s id ∨ ∃ idPrefix suffix, (φ i).suffix = some suffix ∧
      id = idPrefix ++ hexEncode suffix)
    (hsuffix : ψ.suffix = none ∨ ψ.suffix = (φ i).suffix ∧ ∀ id, Known s' id → Known s id)
    (halone : ∀ id stage, ψ = some (.call (.revoke id), stage) → stage.Erasing →
      (∃ stage', φ i = some (.call (.revoke id), stage') ∧ stage'.Erasing) ∨
      ∀ j stage', φ j = some (.call (.revoke id), stage') → ¬stage'.Erasing) :
    Inv m modelName s' (Function.update φ i ψ) := by
  have hother {j : Nat} (hji : j ≠ i) : Function.update φ i ψ j = φ j :=
    Function.update_of_ne hji ..
  have hself : Function.update φ i ψ i = ψ := Function.update_self ..
  refine ⟨hcoherent, hunfinished, hledger, fun j task stage hj => ?_, fun j suffix hj => ?_,
    fun j k id stage stage' hj hk herasing herasing' => ?_⟩
  · by_cases hji : j = i
    · rw [hji, hself] at hj
      rw [hji]
      exact hholds task stage hj
    · rw [hother hji] at hj
      obtain ⟨htask, hold⟩ := hinv.handled j task stage hj
      exact ⟨honward.tasks j task htask, hold.onward honward (hothers j task stage hji hj)⟩
  · -- the threads that hold a random part are those that held it before
    have hwas (k : Nat) (other : List UInt8) (hk : (Function.update φ i ψ k).suffix = some other) :
        (φ k).suffix = some other := by
      by_cases hki : k = i
      · rw [hki, hself] at hk
        rw [hki]
        rcases hsuffix with hnone | ⟨hsame, _⟩
        · rw [hnone] at hk
          cases hk
        · rwa [← hsame]
      · rwa [hother hki] at hk
    obtain ⟨hdrawn, hlength, hfree, hdistinct⟩ := hinv.suffixes j suffix (hwas j suffix hj)
    refine ⟨honward.drawn hdrawn, hlength, fun idPrefix hid => ?_,
      fun k hkj hk => hdistinct k hkj (hwas k suffix hk)⟩
    rcases hknown _ hid with hold | ⟨idPrefix', suffix', hi, heq⟩
    · exact hfree idPrefix hold
    by_cases hji : j = i
    · rw [hji, hself] at hj
      rcases hsuffix with hnone | ⟨_, hback⟩
      · rw [hnone] at hj
        cases hj
      · exact hfree idPrefix (hback _ hid)
    · obtain rfl := suffix_eq hlength (hinv.suffixes i suffix' hi).2.1 heq
      exact hdistinct i (Ne.symm hji) hi
  · by_cases hji : j = i <;> by_cases hki : k = i
    · rw [hji, hki]
    · rw [hji, hself] at hj
      rw [hother hki] at hk
      rcases halone id stage hj herasing with ⟨old, hi, hold⟩ | hnone
      · exact hji.trans (hinv.alone i k id old stage' hi hk hold herasing')
      · exact absurd herasing' (hnone k stage' hk)
    · rw [hother hji] at hj
      rw [hki, hself] at hk
      rcases halone id stage' hk herasing' with ⟨old, hi, hold⟩ | hnone
      · exact (hinv.alone j i id stage old hj hi herasing hold).trans hki.symm
      · exact absurd herasing (hnone j stage hj)
    · rw [hother hji] at hj
      rw [hother hki] at hk
      exact hinv.alone j k id stage stage' hj hk herasing herasing'

/-- A step that changes neither the data nor the records. -/
theorem SameRecords.onward (h : SameRecords s s') (hclock : s.clock ≤ s'.clock)
    (hdrawn : s.drawn ⊆ s'.drawn) (hkeys : s'.keys modelName = s.keys modelName)
    (hpast : ∀ kind name object, Past s.cluster kind name object → Past s'.cluster kind name object)
    (hsuperseded : ∀ cm, Past s.cluster .configMap (configMapName modelName) cm →
      Superseded s.cluster .configMap (configMapName modelName) cm →
      Superseded s'.cluster .configMap (configMapName modelName) cm) : Onward modelName s s' where
  clock := hclock
  drawn := hdrawn
  tasks i task htask := getElem?_of_initial h.tasks htask
  begins i began hbegan := getElem?_of_initial h.begins hbegan
  past := hpast
  superseded := hsuperseded
  stored id key hstored := h.stored.mpr hstored
  recorded id creator hrecorded := h.recorded.mpr hrecorded
  buried id info hburied := h.buried.mpr hburied
  gone id _ hgone := by rwa [hkeys]

/-- A thread moves on while neither the data nor the records change. -/
theorem Inv.quiet (hinv : Inv m modelName s φ) (s' : State) (hsame : SameRecords s s')
    (hkeys : s'.keys modelName = s.keys modelName)
    (hentries : s'.entries modelName = s.entries modelName) (hdrawn : s.drawn ⊆ s'.drawn)
    (hbegins : s'.begins.length = s'.tasks.length ∧ ∀ began ∈ s'.begins, began ≤ s'.clock)
    (hclock : s.clock ≤ s'.clock)
    (hcreated : s'.created = s.created) (hrevoked : s'.revoked = s.revoked)
    (hcoherent : s'.history.Coherent) (hunfinished : s'.cluster.Unfinished)
    (hpast : ∀ kind name object, Past s.cluster kind name object → Past s'.cluster kind name object)
    (hsuperseded : ∀ cm, Past s.cluster .configMap (configMapName modelName) cm →
      Superseded s.cluster .configMap (configMapName modelName) cm →
      Superseded s'.cluster .configMap (configMapName modelName) cm) {stage' : Stage} (hi :
      φ i = some (task, stage))
    (hholds : stage'.Holds m modelName s' task)
    (hsuffix : stage'.suffix = none ∨ stage'.suffix = stage.suffix)
    (herasing : stage'.Erasing → stage.Erasing) :
    Inv m modelName s' (Function.update φ i (some (task, stage'))) := by
  have hknown (id : GoString) (hid : Known s' id) : Known s id := hsame.known.mp hid
  refine hinv.step (hsame.onward hclock hdrawn hkeys hpast hsuperseded) hcoherent
    hunfinished ?_ (fun j task' stage'' _ _ id info hb => .inl (hsame.buried.mp hb))
      (fun task' stage'' heq => ?_)
    (fun id hid => .inl (hknown id hid)) ?_ (fun id stage'' heq herasing'' => ?_)
  · exact hinv.ledger.congr hsame hkeys hentries hdrawn hclock hbegins
      (by rw [hcreated]; exact fun p hp => .inl hp) (by rw [hrevoked]; exact fun id hid => .inl hid)
  · rw [Option.some.injEq, Prod.mk.injEq] at heq
    obtain ⟨rfl, rfl⟩ := heq
    exact ⟨getElem?_of_initial hsame.tasks (hinv.handled i task stage hi).1, hholds⟩
  · rw [hi]
    exact hsuffix.imp id (fun heq => ⟨heq, hknown⟩)
  · rw [Option.some.injEq, Prod.mk.injEq] at heq
    obtain ⟨rfl, rfl⟩ := heq
    exact .inl ⟨stage, hi, herasing herasing''⟩

/-- A thread moves on and nothing else happens. -/
theorem Inv.move (hinv : Inv m modelName s φ) {stage' : Stage} (hi : φ i = some (task, stage))
    (hholds : stage'.Holds m modelName s task)
    (hsuffix : stage'.suffix = none ∨ stage'.suffix = stage.suffix)
    (herasing : stage'.Erasing → stage.Erasing) :
    Inv m modelName s (Function.update φ i (some (task, stage'))) :=
  hinv.quiet s (.of_eq hinv.ledger rfl rfl rfl rfl) rfl rfl (List.Subset.refl _) hinv.ledger.begins
    (Nat.le_refl _) rfl rfl hinv.coherent hinv.unfinished (fun _ _ _ hp => hp)
    (fun _ _ hs => hs) hi hholds hsuffix herasing

section Answered

variable {history : History Body} {request : apiserver.Request Body} {a : apiserver.Answer request}
  {reads : Kind → Bool}

private theorem answered_same
    (hkeys : secretData history.current (secretName modelName) = s.keys modelName)
    (hentries : metadata history.current (configMapName modelName) = s.entries modelName) :
    s.answered modelName i history = { s with history := history } := by
  rw [State.answered, hkeys, hentries, addWrite, addWrite, if_pos rfl, if_pos rfl]

/-- A request that leaves the data as it was. -/
theorem Inv.unchanged (hinv : Inv m modelName s φ)
    (hobserved : Observed (fun _ => False) reads s.history request a history)
    (hkeys : secretData history.current (secretName modelName) = s.keys modelName)
    (hentries : metadata history.current (configMapName modelName) = s.entries modelName)
    {stage' : Stage} (hi : φ i = some (task, stage))
    (hholds : stage'.Holds m modelName { s with history := history } task)
    (hsuffix : stage'.suffix = none ∨ stage'.suffix = stage.suffix) (herasing : stage'.Erasing →
      stage.Erasing) :
    Inv m modelName (s.answered modelName i history)
      (Function.update φ i (some (task, stage'))) := by
  rw [answered_same hkeys hentries]
  refine hinv.quiet { s with history := history }
    (.of_eq hinv.ledger rfl rfl rfl rfl) hkeys hentries
    (List.Subset.refl _) hinv.ledger.begins
      (Nat.le_refl _) rfl rfl (hinv.coherent.observed hobserved) ?_
    (fun _ _ _ hp => Past.observed hp hobserved) (fun cm hpast hs => ?_) hi hholds hsuffix herasing
  · cases hobserved with
    | direct hexec => exact hexec.unfinished hinv.unfinished
    | cachedGet => exact hinv.unfinished
    | cachedList => exact hinv.unfinished
  · cases hobserved with
    | direct hexec => exact hs.exec hpast hexec
    | cachedGet => exact hs
    | cachedList => exact hs

/-- A request on anything but the model's Secret leaves its keys. -/
theorem keys_of_frame (modelName : GoString)
    (hobserved : Observed (fun _ => False) reads s.history request a history)
    (htarget : request.target ≠ some (.secret, secretName modelName)) :
    secretData history.current (secretName modelName) = s.keys modelName :=
  secretData_congr (hobserved.frame htarget)

/-- A request on anything but the model's ConfigMap leaves its entries. -/
theorem entries_of_frame (modelName : GoString)
    (hobserved : Observed (fun _ => False) reads s.history request a history)
    (htarget : request.target ≠ some (.configMap, configMapName modelName)) :
    metadata history.current (configMapName modelName) = s.entries modelName :=
  metadata_congr (hobserved.frame htarget)

end Answered

end Steps

end secrets.lifecycle
