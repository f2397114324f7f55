import ServingPack.KeyManager.Requests

open golang apiserver concurrency kube models secrets

namespace api

section Grows

/-- Requests and writes stay on record. -/
structure Grows (s s' : State) : Prop where
  requests : ∀ (i : Nat) h, s.requests[i]? = some h → s'.requests[i]? = some h
  secretWrites : s.secretWrites ⊆ s'.secretWrites
  metadataWrites : s.metadataWrites ⊆ s'.metadataWrites

variable {s s' : State} {name id key username : GoString} {info : KeyInfo}

private theorem Grows.refl (s : State) : Grows s s :=
  ⟨fun _ _ h => h, List.Subset.refl _, List.Subset.refl _⟩

private theorem grows_answered (s : State) (i : Nat) (cluster : Cluster)
    (request : apiserver.Request Body) :
    Grows s (s.answered i cluster request) := by
  unfold State.answered
  split
  · exact ⟨fun _ _ h => h, List.subset_cons_self .., List.Subset.refl _⟩
  · exact ⟨fun _ _ h => h, List.Subset.refl _, List.subset_cons_self ..⟩
  · exact ⟨fun _ _ h => h, List.Subset.refl _, List.Subset.refl _⟩

@[simp] theorem answered_cluster (s : State) (i : Nat) (cluster : Cluster)
    (request : apiserver.Request Body) :
    (s.answered i cluster request).cluster = cluster := by
  unfold State.answered
  split <;> rfl

@[simp] theorem answered_requests (s : State) (i : Nat) (cluster : Cluster)
    (request : apiserver.Request Body) :
    (s.answered i cluster request).requests = s.requests := by
  unfold State.answered
  split <;> rfl

/-- A key that a request minted stays one it minted. -/
theorem Minted.mono (h : Minted s name id key username) (hgrows : Grows s s') :
    Minted s' name id key username := by
  obtain ⟨w, hw, hname, hbefore, hafter, hd, body, hreq, hrest⟩ := h
  exact ⟨w, hgrows.secretWrites hw, hname, hbefore, hafter, hd, body, hgrows.requests _ hd hreq,
    hrest⟩

private theorem Recorded.mono (h : Recorded s name info) (hgrows : Grows s s') :
    Recorded s' name info := by
  obtain ⟨w, hw, hrest⟩ := h
  exact ⟨w, hgrows.metadataWrites hw, hrest⟩

end Grows

/-- An entry under its own client ID, on record, and if it is live the key was
minted for its creator. -/
structure Genuine (s : State) (modelName id : GoString) (info : KeyInfo) : Prop where
  clientID : info.clientID = id
  recorded : Recorded s (configMapName modelName) info
  minted : info.revokedAt = none → ∃ key, Minted s (secretName modelName) id key info.creator

def AllGenuine (s : State) (modelName : GoString) (data : GoMap Entry) : Prop :=
  ∀ id info, data.lookup id = some (.keyInfo info) → Genuine s modelName id info

/-- What a request may have done to a Secret. -/
inductive Justified (m : Manager) (s : State) (h : Handled) (name : GoString)
    (before after : GoMap GoString) : Prop where
  | unchanged (heq : after = before)
  | minted {body : CreateKeyRequest} {suffix : List UInt8} {key : GoString}
    (hreq : h.request = .createKey (some body))
      (hname : name = secretName body.modelName)
        (hgranted : Granted h.cache h.user.groups body.modelName)
      (hlength : suffix.length = 8)
        (hnew : m.clientID body.modelName h.user.creator suffix ∉ before)
      (heq : after = before.insert (m.clientID body.modelName h.user.creator suffix) key)
  | revoked {ns modelName id key : GoString} (hreq : h.request = .deleteKey ns modelName id)
      (hname : name = secretName modelName) (hminted : Minted s name id key h.user.username)
      (heq : after = before.erase id)

/-- What a request knows in its stage. -/
def Stage.Holds (s : State) (i : Nat) (h : Handled) : Stage → Prop
  | .begun => True
  | .listed all => ∀ modelName cm, (configMapName modelName, cm) ∈ all →
      AllGenuine s modelName cm.body.data
  | .ready => True
  | .readSecret secret => ∀ modelName, h.request.modelName = some modelName →
      Past s.cluster .secret (secretName modelName) secret
  | .readBoth secret cm => ∀ modelName, h.request.modelName = some modelName →
      Past s.cluster .secret (secretName modelName) secret ∧
        Past s.cluster .configMap (configMapName modelName) cm
  | .wroteSecret cm before after => ∀ modelName, h.request.modelName = some modelName →
      Past s.cluster .configMap (configMapName modelName) cm ∧
      ⟨i, secretName modelName, before, after⟩ ∈ s.secretWrites

/-- A request that changes keys may do so: its user may use the model, or owns the key. -/
def Entitled (s : State) (h : Handled) (stage : Stage) : Prop :=
  stage = .begun ∨ (∀ body, h.request = .createKey (some body) →
    Granted h.cache h.user.groups body.modelName) ∧
    ∀ ns modelName id, h.request = .deleteKey ns modelName id →
      ∃ key, Minted s (secretName modelName) id key h.user.username

structure Inv (m : Manager) (s : State) (φ : Nat → Phase) : Prop where
  handled : ∀ i h stage, φ i = some (h, stage) →
    s.requests[i]? = some h ∧ stage.Holds s i h ∧ Entitled s h stage
  writes : ∀ w ∈ s.secretWrites, ∃ h, s.requests[w.request]? = some h ∧
    Justified m s h w.name w.before w.after ∧
    ∀ id key, w.before.lookup id = some key → ∃ username, Minted s w.name id key username
  minted : ∀ modelName id key, (secretData s.cluster (secretName modelName)).lookup id = some key →
    ∃ username, Minted s (secretName modelName) id key username
  genuine : ∀ modelName, AllGenuine s modelName (metadata s.cluster (configMapName modelName))
  unfinished : s.cluster.Unfinished
  cache : ∃ fleet : Fleet, s.cache = fleet.cache

section Mono

variable {m : Manager} {s s' : State} {i : Nat} {h : Handled} {stage : Stage}

private theorem Genuine.mono {modelName id : GoString} {info : KeyInfo}
    (hg : Genuine s modelName id info) (hgrows : Grows s s') :
    Genuine s' modelName id info :=
  ⟨hg.clientID, hg.recorded.mono hgrows,
    fun hlive => (hg.minted hlive).imp (fun _ hm => hm.mono hgrows)⟩

/-- Genuine entries stay genuine as the history grows. -/
theorem AllGenuine.mono {modelName : GoString} {data : GoMap Entry}
    (hg : AllGenuine s modelName data) (hgrows : Grows s s') : AllGenuine s' modelName data :=
  fun id info hid => (hg id info hid).mono hgrows

/-- A write that its request accounts for stays accounted for. -/
theorem Justified.mono {name : GoString} {before after : GoMap GoString}
    (hj : Justified m s h name before after)
    (hgrows : Grows s s') : Justified m s' h name before after := by
  cases hj with
  | unchanged heq => exact .unchanged heq
  | minted hreq hname hgranted hlength hnew heq =>
    exact .minted hreq hname hgranted hlength hnew heq
  | revoked hreq hname hminted heq => exact .revoked hreq hname (hminted.mono hgrows) heq

/-- A request that may act may still act later: groups and cache are those of its own time. -/
theorem Entitled.mono (he : Entitled s h stage) (hgrows : Grows s s') : Entitled s' h stage :=
  he.imp id (fun hrest => ⟨hrest.1, fun ns modelName id hreq =>
    (hrest.2 ns modelName id hreq).imp (fun _ hm => hm.mono hgrows)⟩)

/-- What a request has read stays a past version while others write. -/
theorem Stage.Holds.mono (hh : stage.Holds s i h) (hgrows : Grows s s')
    (hpast : ∀ kind name object, Past s.cluster kind name object →
      Past s'.cluster kind name object) :
    stage.Holds s' i h := by
  cases stage with
  | begun => trivial
  | listed all => exact fun modelName cm hmem => AllGenuine.mono (hh modelName cm hmem) hgrows
  | ready => trivial
  | readSecret secret => exact fun modelName hM => hpast _ _ _ (hh modelName hM)
  | readBoth secret cm =>
    exact fun modelName hM => (hh modelName hM).imp (hpast _ _ _) (hpast _ _ _)
  | wroteSecret cm before after =>
    exact fun modelName hM => (hh modelName hM).imp (hpast _ _ _) (fun hw => hgrows.secretWrites hw)

end Mono

section Steps

variable {m : Manager} {s s' : State} {φ : Nat → Phase} {i : Nat} {h : Handled}
  {stage stage' : Stage}

/-- One request moves on, and the rest of the invariant is kept. -/
theorem Inv.advance (hinv : Inv m s φ) (hgrows : Grows s s') (hrequests : s'.requests[i]? = some h)
    (hpast : ∀ kind name object, Past s.cluster kind name object → Past s'.cluster kind name object)
    (hholds : stage'.Holds s' i h) (hentitled : Entitled s' h stage')
    (hwrites : ∀ w ∈ s'.secretWrites, w ∈ s.secretWrites ∨ ∃ h, s'.requests[w.request]? = some h ∧
      Justified m s' h w.name w.before w.after ∧
      ∀ id key, w.before.lookup id = some key → ∃ username, Minted s' w.name id key username)
    (hminted : ∀ modelName id key, (secretData s'.cluster (secretName modelName)).lookup id =
      some key →
      ∃ username, Minted s' (secretName modelName) id key username)
    (hgenuine : ∀ modelName,
      AllGenuine s' modelName (metadata s'.cluster (configMapName modelName)))
    (hunfinished : s'.cluster.Unfinished) (hcache : s'.cache = s.cache) :
    Inv m s' (Function.update φ i (some (h, stage'))) := by
  refine ⟨fun j hj stagej hφ => ?_, fun w hw => ?_, hminted, hgenuine,
    hunfinished, by rw [hcache]; exact hinv.cache⟩
  · by_cases hji : j = i
    · subst j
      rw [Function.update_self, Option.some.injEq, Prod.mk.injEq] at hφ
      obtain ⟨rfl, rfl⟩ := hφ
      exact ⟨hrequests, hholds, hentitled⟩
    · rw [Function.update_of_ne hji] at hφ
      obtain ⟨hreq, hold, hent⟩ := hinv.handled j hj stagej hφ
      exact ⟨hgrows.requests j hj hreq, hold.mono hgrows hpast, hent.mono hgrows⟩
  · rcases hwrites w hw with hold | hnew
    · obtain ⟨hd, hreq, hjustified, hbefore⟩ := hinv.writes w hold
      exact ⟨hd, hgrows.requests _ hd hreq, hjustified.mono hgrows,
        fun id key hid => (hbefore id key hid).imp (fun _ hm => hm.mono hgrows)⟩
    · exact hnew

/-- A step that changes nothing but the request's stage. -/
theorem Inv.move (hinv : Inv m s φ) (hi : φ i = some (h, stage)) (hholds : stage'.Holds s i h)
    (hentitled : Entitled s h stage') : Inv m s (Function.update φ i (some (h, stage'))) :=
  hinv.advance (Grows.refl s) (hinv.handled i h stage hi).1 (fun _ _ _ hp => hp) hholds hentitled
    (fun _ hw => .inl hw) hinv.minted hinv.genuine hinv.unfinished rfl

/-- A request updates the Secret of its model from the copy it read. -/
theorem Inv.writeSecret (hinv : Inv m s φ) {secret : Object SecretBody} {cm : Object ConfigMapBody}
    (hi : φ i = some (h, .readBoth secret cm)) {modelName : GoString}
    (hmodel : h.request.modelName = some modelName) {data : GoMap GoString}
    (hjustified : ∀ s', Grows s s' → Justified m s' h (secretName modelName) secret.body.data data)
    (hmade : ∀ s', ⟨i, secretName modelName, secret.body.data, data⟩ ∈ s'.secretWrites →
      s'.requests[i]? = some h →
      ∀ id key, data.lookup id = some key → secret.body.data.lookup id = some key ∨
        ∃ username, Minted s' (secretName modelName) id key username)
    {a : apiserver.Answer
      (.update Kind.secret (secretName modelName) { secret with body.data := data })} {cluster :
    Cluster}
    (hexec : Exec (fun _ => False) s.cluster
      (.update Kind.secret (secretName modelName) { secret with body.data := data })
      a cluster) :
    Inv m (s.answered i cluster
      (.update .secret (secretName modelName) { secret with body.data := data }))
      (Function.update φ i (some (h, next h (.readBoth secret cm)
        (.api (.update .secret (secretName modelName) { secret with body.data := data })) a))) := by
  obtain ⟨hreq, hholds, hentitled⟩ := hinv.handled i h _ hi
  obtain ⟨hsecret, hcm⟩ := hholds modelName hmodel
  have hgrows := grows_answered s i cluster
    (.update .secret (secretName modelName) { secret with body.data := data })
  have hpast : ∀ kind name (object : Object (Body kind)), Past s.cluster kind name object →
      Past cluster kind name object :=
    fun _ _ _ hp => hp.exec hexec
  have hframe (name : GoString) : metadata cluster name = metadata s.cluster name :=
    exec_metadata hexec (by simp [apiserver.Request.target])
  generalize hs' : s.answered i cluster
    (.update .secret (secretName modelName) { secret with body.data := data }) = s' at hgrows ⊢
  have hcluster : s'.cluster = cluster := by rw [← hs']; rfl
  have hrequests : s'.requests[i]? = some h := by rw [← hs']; exact hreq
  have hlist : s'.secretWrites =
    ⟨i, secretName modelName, secretData s.cluster (secretName modelName),
      secretData cluster (secretName modelName)⟩ :: s.secretWrites := by rw [← hs']; rfl
  have hbefore (id key : GoString)
    (hid : (secretData s.cluster (secretName modelName)).lookup id = some key) :
      ∃ username, Minted s' (secretName modelName) id key username :=
    (hinv.minted modelName id key hid).imp (fun _ hm => hm.mono hgrows)
  have hother (modelName' : GoString) (hne : modelName' ≠ modelName) :
      secretData cluster (secretName modelName') =
        secretData s.cluster (secretName modelName') := by
    refine exec_secretData hexec (fun heq => hne ?_)
    exact (secretName_injective (Prod.mk.inj (Option.some.inj heq)).2).symm
  -- what is stored afterwards: the copy's new data, or what was there
  have hafter : (secretData cluster (secretName modelName) =
    secretData s.cluster (secretName modelName) ∧ ∃ e, a = .error e) ∨
      (secretData s.cluster (secretName modelName) = secret.body.data ∧
        secretData cluster (secretName modelName) = data) := by
    rcases hexec.update_copy secret hinv.unfinished hsecret.2 rfl rfl with
      ⟨hsame, herror⟩ | ⟨hlookup, object, hobject, hbody⟩
    · exact .inl ⟨secretData_congr hsame, herror⟩
    · refine .inr ⟨secretData_of_lookup hlookup, ?_⟩
      rw [secretData_of_lookup hobject]
      exact congrArg SecretBody.data hbody
  have hwrite : (secretData s.cluster (secretName modelName) = secret.body.data ∧
      secretData cluster (secretName modelName) = data) →
        ⟨i, secretName modelName, secret.body.data, data⟩ ∈ s'.secretWrites := by
    rintro ⟨hold, hnew⟩
    rw [hlist, hold, hnew]
    exact List.mem_cons_self ..
  have hstage : (next h (.readBoth secret cm)
      (.api (.update .secret (secretName modelName) { secret with body.data := data })) a).Holds s'
        i h := by
    cases a with
    | error e => exact hholds.mono hgrows (by rw [hcluster]; exact hpast)
    | ok stored =>
      rcases hafter with ⟨_, e, herror⟩ | hdata
      · cases herror
      · intro modelName' hmodel'
        obtain rfl := Option.some.inj (hmodel.symm.trans hmodel')
        rw [hcluster]
        exact ⟨hpast _ _ _ hcm, hwrite hdata⟩
  refine hinv.advance hgrows hrequests (by rw [hcluster]; exact hpast) hstage ?_
    (fun w hw => ?_) ?_ ?_ ?_ ?_
  · rcases hentitled with hbegun | hrest
    · cases hbegun
    · exact Entitled.mono (.inr hrest) hgrows
  · rw [hlist, List.mem_cons] at hw
    rcases hw with rfl | hold
    · refine .inr ⟨h, hrequests, ?_, hbefore⟩
      rcases hafter with ⟨hsame, _⟩ | ⟨hold, hnew⟩
      · exact .unchanged hsame
      · dsimp only
        rw [hold, hnew]
        exact hjustified s' hgrows
    · exact .inl hold
  · intro modelName' id key hid
    rw [hcluster] at hid
    by_cases hname : modelName' = modelName
    · subst modelName'
      rcases hafter with ⟨hsame, _⟩ | hdata
      · rw [hsame] at hid
        exact hbefore id key hid
      · rw [hdata.2] at hid
        rcases hmade s' (hwrite hdata) hrequests id key hid with hold | hnew
        · exact hbefore id key (by rwa [hdata.1])
        · exact hnew
    · rw [hother modelName' hname] at hid
      exact (hinv.minted modelName' id key hid).imp (fun _ hm => hm.mono hgrows)
  · intro modelName'
    rw [hcluster, hframe]
    exact (hinv.genuine modelName').mono hgrows
  · rw [hcluster]
    exact hexec.unfinished hinv.unfinished
  · rw [← hs']
    rfl

/-- A request updates the metadata of its model from the copy it read. -/
theorem Inv.writeMetadata (hinv : Inv m s φ) {cm : Object ConfigMapBody}
    {before after : GoMap GoString}
    (hi : φ i = some (h, .wroteSecret cm before after)) {modelName : GoString}
    (hmodel : h.request.modelName = some modelName) {data : GoMap Entry}
    (hgenuine : ∀ s', Grows s s' →
      ⟨i, configMapName modelName, cm.body.data, data⟩ ∈ s'.metadataWrites →
      AllGenuine s' modelName cm.body.data → AllGenuine s' modelName data)
    {a : apiserver.Answer
      (.update Kind.configMap (configMapName modelName) { cm with body.data := data })} {cluster :
    Cluster}
    (hexec : Exec (fun _ => False) s.cluster
      (.update .configMap (configMapName modelName) { cm with body.data := data })
      a cluster) :
    Inv m (s.answered i cluster
      (.update .configMap (configMapName modelName) { cm with body.data := data }))
      (Function.update φ i (some (h, .ready))) := by
  obtain ⟨hreq, hholds, hentitled⟩ := hinv.handled i h _ hi
  obtain ⟨hcm, _⟩ := hholds modelName hmodel
  have hgrows := grows_answered s i cluster
    (.update .configMap (configMapName modelName) { cm with body.data := data })
  have hframe (name : GoString) : secretData cluster name = secretData s.cluster name :=
    exec_secretData hexec (by simp [apiserver.Request.target])
  generalize hs' : s.answered i cluster
    (.update .configMap (configMapName modelName) { cm with body.data := data }) = s'
    at hgrows ⊢
  have hcluster : s'.cluster = cluster := by rw [← hs']; rfl
  refine hinv.advance hgrows (by rw [← hs']; exact hreq) ?_ trivial ?_
    (fun w hw => .inl ?_) ?_ ?_ ?_ ?_
  · rw [hcluster]
    exact fun _ _ _ hp => hp.exec hexec
  · rcases hentitled with hbegun | hrest
    · cases hbegun
    · exact Entitled.mono (.inr hrest) hgrows
  · rw [← hs'] at hw
    exact hw
  · intro modelName' id key hid
    rw [hcluster, hframe] at hid
    exact (hinv.minted modelName' id key hid).imp (fun _ hm => hm.mono hgrows)
  · intro modelName'
    rw [hcluster]
    by_cases hname : modelName' = modelName
    · subst modelName'
      have hold := (hinv.genuine modelName).mono hgrows
      rcases hexec.update_copy cm hinv.unfinished hcm.2 rfl rfl with
        ⟨hsame, _⟩ | ⟨hlookup, object, hobject, hbody⟩
      · rwa [metadata_congr hsame]
      · have hdata : metadata cluster (configMapName modelName) = data := by
          rw [metadata_of_lookup hobject]
          exact congrArg ConfigMapBody.data hbody
        rw [metadata_of_lookup hlookup] at hold
        rw [hdata]
        refine hgenuine s' hgrows ?_ hold
        rw [← hs']
        refine List.mem_cons.mpr (.inl ?_)
        rw [metadata_of_lookup hlookup, hdata]
    · have hother : metadata cluster (configMapName modelName') =
          metadata s.cluster (configMapName modelName') := by
        refine exec_metadata hexec (fun heq => hname ?_)
        exact (configMapName_injective (Prod.mk.inj (Option.some.inj heq)).2).symm
      rw [hother]
      exact (hinv.genuine modelName').mono hgrows
  · rw [hcluster]
    exact hexec.unfinished hinv.unfinished
  · rw [← hs']
    rfl

end Steps

end api
