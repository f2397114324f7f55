import ServingPack.KeyManager.Calls
import ServingPack.KeyManager.ClientID
import ServingPack.KeyManager.RequestInvariant

open golang apiserver concurrency kube models secrets

namespace api

section Handlers

variable {m : Manager} {h : Handled}

/-- A request ends with keys only if it has listed them, and then with those of its user. -/
def Ends (r : Response) (φ : Phase) : Prop :=
  ∃ h stage, φ = some (h, stage) ∧ ∀ keys, r = .keys keys → ∃ all, stage = .listed all ∧
    keys = (liveKeys ((all.filter isMetadata).flatMap (fun cm => parseConfigMapKeys cm.2))).filter
      (fun key => key.creator = h.user.username)

private theorem ends_of_attempts {r : Response} {φ : Phase}
    (hφ : ∃ stage, φ = some (h, stage) ∧ stage.Attempts)
    (hr : ∀ keys, r ≠ .keys keys) : Ends r φ := by
  obtain ⟨stage, hstage, _⟩ := hφ
  exact ⟨h, stage, hstage, fun keys hkeys => absurd hkeys (hr keys)⟩

private theorem follows_getKeys (hreq : h.request = .getKeys) :
    (protocol m).Follows (some (h, .begun)) (getKeys h.user) Ends := by
  refine ⟨⟨h, _, rfl, .list hreq⟩, ?_⟩
  rintro (e | all)
  · exact ⟨h, _, rfl, nofun⟩
  · refine ⟨h, .listed all, rfl, fun keys hkeys => ⟨all, rfl, ?_⟩⟩
    exact (Response.keys.inj hkeys).symm

private theorem follows_createKey {body : CreateKeyRequest}
    (hreq : h.request = .createKey (some body)) {stage : Stage}
    (hstage : stage.Attempts) : (protocol m).Follows (some (h, stage))
      ((m.createKey body.modelName h.user.creator body.description).run.bind (fun
        | .error _ => .pure internalServerError
        | .ok result => .pure (.created result))) Ends := by
  have hthen : ∀ (r : Except StatusError CreateKeyResult) φ,
    (∃ stage' : Stage, φ = some (h, stage') ∧ stage'.Attempts) →
      (protocol m).Follows φ (match r with
        | .error _ => .pure internalServerError
        | .ok result => .pure (.created result)) Ends := by
    rintro (e | result) φ hφ
    · exact ends_of_attempts hφ nofun
    · exact ends_of_attempts hφ nofun
  refine Protocol.Follows.bind ?_ hthen
  unfold Manager.createKey
  split_ifs
  · exact ⟨stage, rfl, hstage⟩
  · refine follows_retry (I := fun φ => ∃ stage', φ = some (h, stage') ∧
      stage'.Attempts) ?_ _ ⟨stage, rfl, hstage⟩
    rintro φ ⟨stage', rfl, hstage'⟩
    exact follows_createKeyOnce hreq hstage'

/-- What `deleteKey` does with the key it has found. -/
def deleteFound (user : UserInfo) (modelName clientID : GoString) : Option KeyInfo → Handling
  | none => .pure (.error 404 "not found")
  | some found =>
    if found.creator = user.username then
      (Manager.revokeKey modelName clientID).run.bind (fun
        | .error _ => .pure internalServerError
        | .ok _ => .pure .noContent)
    else .pure (.error 403 "forbidden: key belongs to another user")

private theorem follows_deleteKey {ns modelName clientID : GoString}
    (hreq : h.request = .deleteKey ns modelName clientID) :
    (protocol m).Follows (some (h, .begun)) (deleteKey h.user ns modelName clientID) Ends := by
  refine ⟨⟨h, _, rfl, .check hreq⟩, ?_⟩
  rintro (e | cm)
  · exact ⟨h, _, rfl, by simp [internalServerError]⟩
  change (protocol m).Follows (some (h, if h.owns cm then .ready else .begun))
    (deleteFound h.user modelName clientID (findKey (liveKeys (parseConfigMapKeys cm)) ns clientID))
      Ends
  have howns : h.owns cm = (findKey (liveKeys (parseConfigMapKeys cm)) ns clientID).any
      (fun found => found.creator = h.user.username) := by
    simp only [Handled.owns, hreq]
  cases hfound : findKey (liveKeys (parseConfigMapKeys cm)) ns clientID with
  | none => exact ⟨h, _, rfl, by simp⟩
  | some found =>
    rw [deleteFound]
    split_ifs with howner hcreator
    · refine Protocol.Follows.bind (?_ : (protocol m).Follows _ _ (fun _ φ =>
        ∃ stage' : Stage, φ = some (h, stage') ∧ stage'.Attempts)) ?_
      rotate_left
      · rintro (e | result) φ hφ
        · exact ends_of_attempts hφ (by simp [internalServerError])
        · exact ends_of_attempts hφ (by simp)
      refine follows_retry (I := fun φ => ∃ stage' : Stage, φ = some (h, stage') ∧
        stage'.Attempts) ?_ _
        ⟨Stage.ready, rfl, trivial⟩
      rintro φ ⟨stage', rfl, hstage'⟩
      exact follows_revokeKeyOnce hreq hstage'
    · exact ⟨h, _, rfl, by simp⟩
    · rw [howns, hfound] at howner
      simp_all
    · exact ⟨h, _, rfl, by simp⟩

private theorem granted_of_filter {fleet : Fleet} {groups : List GoString} {modelName : GoString}
    (hany : (filterModelsForUser fleet.cache groups).any (fun info => info.name = modelName) =
      true) :
    Granted fleet.cache groups modelName := by
  obtain ⟨info, hinfo, hname⟩ := List.any_eq_true.mp hany
  rw [mem_filterModelsForUser] at hinfo
  have hname' : info.name = modelName := of_decide_eq_true hname
  exact ⟨info, hinfo.1, hname', hinfo.2,
    fun other hother hsame => Fleet.cache_unique hinfo.1 hother (hsame.trans hname'.symm)⟩

/-- A request begins in a stage that its user is entitled to. -/
theorem follows_handle (s : State) (h : Handled) (hcache : ∃ fleet : Fleet, h.cache = fleet.cache) :
    ∃ stage, (∀ i, stage.Holds s i h) ∧ Entitled s h stage ∧
      (protocol m).Follows (some (h, stage)) (handle m h.cache (some h.user) h.request) Ends := by
  have hend (r : Response)
      (hr : ∀ keys, r ≠ .keys keys) : (protocol m).Follows (some (h, .begun)) (.pure r) Ends :=
    ⟨h, _, rfl, fun keys hkeys => absurd hkeys (hr keys)⟩
  match hreq : h.request with
  | .getMe => exact ⟨.begun, fun _ => trivial, .inl rfl, hend _ nofun⟩
  | .getModels => exact ⟨.begun, fun _ => trivial, .inl rfl, hend _ nofun⟩
  | .getKeys => exact ⟨.begun, fun _ => trivial, .inl rfl, follows_getKeys hreq⟩
  | .createKey none => exact ⟨.begun, fun _ => trivial, .inl rfl, hend _ nofun⟩
  | .createKey (some body) =>
    by_cases hany : (filterModelsForUser h.cache h.user.groups).any
      (fun info => info.name = body.modelName) = true
    · refine ⟨.ready, fun _ => trivial,
        .inr ⟨fun body' hreq' => ?_, fun ns modelName id hreq' => ?_⟩, ?_⟩
      · rw [hreq, ApiRequest.createKey.injEq, Option.some.injEq] at hreq'
        subst body'
        obtain ⟨fleet, hfleet⟩ := hcache
        rw [hfleet] at hany ⊢
        exact granted_of_filter hany
      · rw [hreq] at hreq'
        cases hreq'
      · simp only [handle, createKey, hany, if_true]
        exact follows_createKey hreq trivial
    · refine ⟨.begun, fun _ => trivial, .inl rfl, ?_⟩
      simp only [handle, createKey, hany]
      exact hend _ nofun
  | .deleteKey ns modelName clientID =>
    exact ⟨.begun, fun _ => trivial, .inl rfl, follows_deleteKey hreq⟩

end Handlers

section Keeps

variable {m : Manager} {s s' : State} {φ : Nat → Phase} {i : Nat} {h : Handled} {stage : Stage}

private theorem Inv.listed (hinv : Inv m s φ) {all : List (GoString × Object ConfigMapBody)}
    (hall : all = s.cluster.list .configMap ∅) : (Stage.listed all).Holds s i h := by
  intro modelName cm hmem
  rw [hall, ApiServer.mem_list] at hmem
  have hgenuine := hinv.genuine modelName
  rwa [metadata_of_lookup hmem.1] at hgenuine

/-- A request that owns its key has the entry for it, live and under its user's name. -/
theorem Inv.owned (hinv : Inv m s φ) {ns modelName clientID : GoString} {cm : Object ConfigMapBody}
    (hreq : h.request = .deleteKey ns modelName clientID)
    (hcm : s.cluster.lookup .configMap (configMapName modelName) = some cm)
    (howns : h.owns cm = true) :
    ∃ key, Minted s (secretName modelName) clientID key h.user.username := by
  simp only [Handled.owns, hreq, Option.any_eq_true] at howns
  obtain ⟨found, hfound, hcreator⟩ := howns
  obtain ⟨hmem, hclientID⟩ := findKey_eq_some hfound
  rw [mem_liveKeys, mem_parseConfigMapKeys] at hmem
  obtain ⟨⟨id, hid⟩, hlive⟩ := hmem
  have hgenuine := hinv.genuine modelName id found (by rw [metadata_of_lookup hcm]; exact hid)
  obtain ⟨key, hkey⟩ := hgenuine.minted hlive
  rw [← hgenuine.clientID, hclientID, of_decide_eq_true hcreator] at hkey
  exact ⟨key, hkey⟩

private theorem Entitled.of_attempts (he : Entitled s h stage) (hstage : stage.Attempts)
    (stage' : Stage) :
    Entitled s h stage' := by
  rcases he with rfl | hrest
  · exact hstage.elim
  · exact .inr hrest

/-- A request that changes no key is entitled to any stage. -/
theorem entitled_of_getKeys (hreq : h.request = .getKeys) (stage : Stage) : Entitled s h stage := by
  refine .inr ⟨fun body hreq' => ?_, fun ns modelName id hreq' => ?_⟩
  · rw [hreq] at hreq'
    cases hreq'
  · rw [hreq] at hreq'
    cases hreq'

/-- `GET /v1/keys` lists the ConfigMaps. -/
theorem Inv.list (hinv : Inv m s φ) (hi : φ i = some (h, .begun)) (hreq : h.request = .getKeys)
    {a : Answer (.api (.list .configMap ∅))}
    (hexec : Respond i s (.api (.list .configMap ∅)) a s') :
    Inv m s' (Function.update φ i (some (h, next h .begun (.api (.list .configMap ∅)) a))) := by
  cases hexec with
  | server hexec =>
    obtain ⟨rfl, hall⟩ := hexec.list
    cases a with
    | error e => exact hinv.move hi trivial (.inl rfl)
    | ok all => exact hinv.move hi (hinv.listed (hall all rfl)) (entitled_of_getKeys hreq _)

/-- `DELETE` reads the ConfigMap that has its key's entry, and may go on if its user owns it. -/
theorem Inv.check (hinv : Inv m s φ) (hi : φ i = some (h, .begun))
    {ns modelName clientID : GoString} (hreq : h.request = .deleteKey ns modelName clientID)
    {a : Answer (.api (.get .configMap (configMapName modelName)))}
    (hexec : Respond i s (.api (.get .configMap (configMapName modelName))) a s') :
    Inv m s' (Function.update φ i
      (some (h, next h .begun (.api (.get .configMap (configMapName modelName))) a))) := by
  cases hexec with
  | server hexec =>
    obtain ⟨rfl, hcm⟩ := hexec.get
    cases a with
    | error e => exact hinv.move hi trivial (.inl rfl)
    | ok cm =>
      change Inv m s (Function.update φ i (some (h, if h.owns cm then .ready else .begun)))
      split_ifs with howns
      · refine hinv.move hi trivial (.inr ⟨fun body hreq' => ?_, fun ns' modelName' id hreq' => ?_⟩)
        · rw [hreq] at hreq'
          cases hreq'
        · rw [hreq, ApiRequest.deleteKey.injEq] at hreq'
          obtain ⟨rfl, rfl, rfl⟩ := hreq'
          exact hinv.owned hreq (hcm cm rfl) howns
      · exact hinv.move hi trivial (.inl rfl)

/-- An attempt reads its model's Secret, from any stage of the one before. -/
theorem Inv.readSecret (hinv : Inv m s φ) (hi : φ i = some (h, stage)) {modelName : GoString}
    (hreq : h.request.modelName = some modelName) (hstage : stage.Attempts)
    {a : Answer (.api (.get .secret (secretName modelName)))}
    (hexec : Respond i s (.api (.get .secret (secretName modelName))) a s') :
    Inv m s' (Function.update φ i
      (some (h, next h stage (.api (.get .secret (secretName modelName))) a))) := by
  obtain ⟨_, hholds, hentitled⟩ := hinv.handled i h stage hi
  cases hexec with
  | server hexec =>
    obtain ⟨rfl, hsecret⟩ := hexec.get
    cases a with
    | error e =>
      have hnext : next h stage (.api (.get .secret (secretName modelName))) (.error e) =
          stage := by
        cases stage <;> rfl
      rw [hnext]
      exact hinv.move hi hholds hentitled
    | ok secret =>
      have hnext : next h stage (.api (.get .secret (secretName modelName))) (.ok secret) =
          .readSecret secret := by
        cases stage <;> rfl
      rw [hnext]
      refine hinv.move hi (fun modelName' hreq' => ?_) (hentitled.of_attempts hstage _)
      obtain rfl := Option.some.inj (hreq.symm.trans hreq')
      exact Past.of_lookup (hsecret secret rfl)

private theorem Inv.readConfigMap (hinv : Inv m s φ) {secret : Object SecretBody}
    (hi : φ i = some (h, .readSecret secret))
    {modelName : GoString} (hreq : h.request.modelName = some modelName)
    {a : Answer (.api (.get .configMap (configMapName modelName)))}
    (hexec : Respond i s (.api (.get .configMap (configMapName modelName))) a s') :
    Inv m s' (Function.update φ i
      (some (h, next h (.readSecret secret)
        (.api (.get .configMap (configMapName modelName))) a))) := by
  obtain ⟨_, hholds, hentitled⟩ := hinv.handled i h _ hi
  cases hexec with
  | server hexec =>
    obtain ⟨rfl, hcm⟩ := hexec.get
    cases a with
    | error e => exact hinv.move hi hholds hentitled
    | ok cm =>
      refine hinv.move hi (fun modelName' hreq' => ?_) (hentitled.of_attempts trivial _)
      obtain rfl := Option.some.inj (hreq.symm.trans hreq')
      exact ⟨hholds modelName hreq, Past.of_lookup (hcm cm rfl)⟩

/-- A Secret that gets a key under a new client ID has it from the request that the write is of. -/
theorem Inv.mint (hinv : Inv m s φ) {body : CreateKeyRequest} {secret : Object SecretBody}
    {cm : Object ConfigMapBody}
    {suffix : List UInt8} {key : GoString} (hi : φ i = some (h, .readBoth secret cm))
    (hreq : h.request = .createKey (some body)) (hlength : suffix.length = 8)
    (hnew : m.clientID body.modelName h.user.creator suffix ∉ secret.body.data)
    {q : apiserver.Request Body} (hq : q = .update .secret (secretName body.modelName)
      { secret with body.data := secret.body.data.insert (m.clientID body.modelName h.user.creator suffix) key })
    {a : Answer (.api q)} (hexec : Respond i s (.api q) a s') :
    Inv m s' (Function.update φ i (some (h, next h (.readBoth secret cm) (.api q) a))) := by
  subst hq
  obtain ⟨_, _, hentitled⟩ := hinv.handled i h _ hi
  cases hexec with
  | server hexec =>
    have hgranted : Granted h.cache h.user.groups body.modelName := by
      rcases hentitled with hbegun | hrest
      · cases hbegun
      · exact hrest.1 body hreq
    have hmodel : h.request.modelName = some body.modelName := by rw [hreq]; rfl
    refine hinv.writeSecret hi hmodel (fun s' _ => .minted hreq rfl hgranted hlength hnew rfl)
      (fun s' hwrite hrequest id value hid => ?_) hexec
    rw [GoMap.lookup_insert_eq] at hid
    split_ifs at hid with hsame
    · refine .inr ⟨h.user.username, _, hwrite, rfl, ?_, ?_, h, body, hrequest, rfl, hreq, rfl⟩
      · rw [hsame]
        exact Finmap.lookup_eq_none.mpr hnew
      · rw [GoMap.lookup_insert_eq, if_pos hsame]
        exact hid
    · exact .inl hid

/-- The entry that a request records is of the key it has just minted. -/
theorem Inv.record (hinv : Inv m s φ) {body : CreateKeyRequest} {cm : Object ConfigMapBody}
    {before : GoMap GoString} {id key : GoString} {info : KeyInfo}
    (hi : φ i = some (h, .wroteSecret cm before (before.insert id key)))
    (hreq : h.request = .createKey (some body)) (hnew : id ∉ before)
    (hclientID : info.clientID = id)
    (hcreator : info.creator = h.user.username) {q : apiserver.Request Body}
    (hq : q = .update .configMap (configMapName body.modelName)
      { cm with body.data := cm.body.data.insert id (.keyInfo info) })
    {a : Answer (.api q)} (hexec : Respond i s (.api q) a s') :
    Inv m s' (Function.update φ i
      (some (h, next h (.wroteSecret cm before (before.insert id key)) (.api q) a))) := by
  subst hq
  cases hexec with
  | server hexec =>
    have hmodel : h.request.modelName = some body.modelName := by rw [hreq]; rfl
    refine hinv.writeMetadata hi hmodel (fun s' hgrows hwrite hold id' info' hid' => ?_) hexec
    rw [GoMap.lookup_insert_eq] at hid'
    split_ifs at hid' with hsame
    · obtain rfl : info = info' := Entry.keyInfo.inj (Option.some.inj hid')
      refine ⟨hclientID.trans hsame.symm, ⟨_, hwrite, rfl, ?_⟩, fun _ => ⟨key, ?_⟩⟩
      · rw [hclientID]
        exact Finmap.lookup_insert ..
      · obtain ⟨hrequest, hholds', _⟩ := hinv.handled i h _ hi
        refine Minted.mono ⟨_, (hholds' body.modelName hmodel).2, rfl, ?_, ?_, h, body, hrequest,
          hcreator.symm, hreq, rfl⟩ hgrows
        · rw [hsame]
          exact Finmap.lookup_eq_none.mpr hnew
        · rw [hsame]
          exact Finmap.lookup_insert ..
    · exact hold id' info' hid'

/-- A request that gets to the Secret owns the key that it takes out. -/
theorem Inv.revoke (hinv : Inv m s φ) {ns modelName id : GoString} {secret : Object SecretBody}
    {cm : Object ConfigMapBody}
    (hi : φ i = some (h, .readBoth secret cm)) (hreq : h.request = .deleteKey ns modelName id)
    {q : apiserver.Request Body} (hq : q = .update .secret (secretName modelName)
      { secret with body.data := secret.body.data.erase id })
    {a : Answer (.api q)} (hexec : Respond i s (.api q) a s') :
    Inv m s' (Function.update φ i (some (h, next h (.readBoth secret cm) (.api q) a))) := by
  subst hq
  obtain ⟨_, _, hentitled⟩ := hinv.handled i h _ hi
  cases hexec with
  | server hexec =>
    have hmodel : h.request.modelName = some modelName := by rw [hreq]; rfl
    obtain ⟨key, hminted⟩ : ∃ key, Minted s (secretName modelName) id key h.user.username := by
      rcases hentitled with hbegun | hrest
      · cases hbegun
      · exact hrest.2 ns modelName id hreq
    refine hinv.writeSecret hi hmodel (fun s' hgrows => .revoked hreq rfl (hminted.mono hgrows) rfl)
      (fun s' _ _ id' value hid' => .inl ?_) hexec
    rw [GoMap.lookup_erase_eq] at hid'
    split_ifs at hid'
    exact hid'

/-- A tombstone is an entry under its own client ID, and of a key that is not live. -/
theorem Inv.bury (hinv : Inv m s φ) {ns modelName id : GoString} {cm : Object ConfigMapBody}
    {before after : GoMap GoString} {now : Nat} (hi : φ i = some (h, .wroteSecret cm before after))
    (hreq : h.request = .deleteKey ns modelName id)
    {q : apiserver.Request Body} (hq : q = .update .configMap (configMapName modelName) { cm with
      body.data := (Manager.dropExpired now cm.body.data).insert id
        (.keyInfo (Manager.tombstone id now
        (((cm.body.data.lookup id).bind Entry.unmarshal).getD Manager.zeroKeyInfo))) })
    {a : Answer (.api q)} (hexec : Respond i s (.api q) a s') :
    Inv m s' (Function.update φ i
      (some (h, next h (.wroteSecret cm before after) (.api q) a))) := by
  subst hq
  cases hexec with
  | server hexec =>
    have hmodel : h.request.modelName = some modelName := by rw [hreq]; rfl
    refine hinv.writeMetadata hi hmodel (fun s' hgrows hwrite hold id' info' hid' => ?_) hexec
    rw [GoMap.lookup_insert_eq] at hid'
    split_ifs at hid' with hsame
    · obtain rfl := Entry.keyInfo.inj (Option.some.inj hid')
      refine ⟨hsame.symm, ⟨_, hwrite, rfl, ?_⟩, nofun⟩
      exact Finmap.lookup_insert ..
    · rw [Manager.dropExpired, GoMap.lookup_eraseAll] at hid'
      split_ifs at hid'
      exact hold id' info' hid'

/-- Every call that a request may make keeps the invariant. -/
theorem Inv.exec (hinv : Inv m s φ) {q : Request} {a : Answer q} (hi : φ i = some (h, stage))
    (hallowed : Allowed m h stage q) (hexec : Respond i s q a s') :
    Inv m s' (Function.update φ i (some (h, next h stage q a))) := by
  obtain ⟨_, hholds, hentitled⟩ := hinv.handled i h stage hi
  cases hallowed with
  | list hreq => exact hinv.list hi hreq hexec
  | check hreq => exact hinv.check hi hreq hexec
  | readSecret hreq hstage => exact hinv.readSecret hi hreq hstage hexec
  | readConfigMap hreq => exact hinv.readConfigMap hi hreq hexec
  | rand =>
    cases hexec with
    | rand bytes => exact hinv.move hi hholds hentitled
    | randFailed e => exact hinv.move hi hholds hentitled
  | now =>
    cases hexec with
    | now seconds => exact hinv.move hi hholds hentitled
  | mint hreq hlength hnew => exact hinv.mint hi hreq hlength hnew rfl hexec
  | record hreq hnew _ hclientID hcreator =>
    exact hinv.record hi hreq hnew hclientID hcreator rfl hexec
  | revoke hreq => exact hinv.revoke hi hreq rfl hexec
  | bury hreq => exact hinv.bury hi hreq rfl hexec

/-- What others do keeps the invariant. -/
theorem Inv.background (hinv : Inv m s φ) (hgrows : Grows s s')
    (hwrites : s'.secretWrites = s.secretWrites)
    (hpast : ∀ kind name object, Past s.cluster kind name object → Past s'.cluster kind name object)
    (huntouched : Untouched s.cluster s'.cluster) (hunfinished : s'.cluster.Unfinished)
    (hcache : ∃ fleet : Fleet, s'.cache = fleet.cache) : Inv m s' φ := by
  refine ⟨fun i h stage hi => ?_, fun w hw => ?_, fun modelName id key hid => ?_,
    fun modelName => ?_, hunfinished, hcache⟩
  · obtain ⟨hreq, hholds, hentitled⟩ := hinv.handled i h stage hi
    exact ⟨hgrows.requests i h hreq, hholds.mono hgrows hpast, hentitled.mono hgrows⟩
  · rw [hwrites] at hw
    obtain ⟨h, hreq, hjustified, hbefore⟩ := hinv.writes w hw
    exact ⟨h, hgrows.requests _ h hreq, hjustified.mono hgrows,
      fun id key hid => (hbefore id key hid).imp (fun _ hm => hm.mono hgrows)⟩
  · rcases (huntouched modelName).1 with hsame | hnone
    · rw [hsame] at hid
      exact (hinv.minted modelName id key hid).imp (fun _ hm => hm.mono hgrows)
    · rw [hnone, Finmap.lookup_empty] at hid
      cases hid
  · rcases (huntouched modelName).2 with hsame | hnone
    · rw [hsame]
      exact (hinv.genuine modelName).mono hgrows
    · rw [hnone]
      intro id info hid
      rw [Finmap.lookup_empty] at hid
      cases hid

/-- Every request, answer, Sync and failure keeps the invariant, and a handler ends in a stage
that says what became of its request. -/
theorem keeps : (protocol m).Keeps (machine m) Initial none (fun r φ => Ends r φ) (Inv m) where
  init s hs := by
    refine ⟨nofun, ?_, fun modelName id key hid => ?_, fun modelName id info hid => ?_,
      hs.unfinished, hs.cache⟩
    · rw [hs.secretWrites]
      exact nofun
    · rw [hs.secrets, Finmap.lookup_empty] at hid
      cases hid
    · rw [hs.metadata, Finmap.lookup_empty] at hid
      cases hid
  start i s φ p s' hinv hidle hstart := by
    obtain ⟨rfl, user, request, rfl, rfl⟩ := hstart
    obtain ⟨stage, hholds, hentitled, hfollows⟩ :=
      follows_handle (m := m) s ⟨user, request, s.cache⟩ hinv.cache
    have hgrows : Grows s { s with requests := s.requests ++ [⟨user, request, s.cache⟩] } :=
      ⟨fun i h hi => by rwa [List.getElem?_append_left (List.getElem?_eq_some_iff.mp hi).1],
        List.Subset.refl _, List.Subset.refl _⟩
    refine ⟨some (⟨user, request, s.cache⟩, stage), ?_, hfollows⟩
    refine hinv.advance hgrows (List.getElem?_concat_length ..) (fun _ _ _ hp => hp)
      ((hholds _).mono hgrows (fun _ _ _ hp => hp)) (hentitled.mono hgrows) (fun _ hw => .inl hw)
      (fun modelName id key hid => ?_) (fun modelName => ?_) hinv.unfinished rfl
    · exact (hinv.minted modelName id key hid).imp (fun _ hm => hm.mono hgrows)
    · exact (hinv.genuine modelName).mono hgrows
  exec i s φ q a s' hinv hallowed hexec := by
    obtain ⟨h, stage, hi, hallowed⟩ := hallowed
    have hkept := hinv.exec hi hallowed hexec
    simpa only [protocol, hi, Option.map_some] using hkept
  finish i s φ r s' hinv hpost hfinish := by
    obtain rfl : s' = s := hfinish
    refine ⟨fun j h stage hj => ?_, hinv.writes, hinv.minted, hinv.genuine, hinv.unfinished,
      hinv.cache⟩
    by_cases hji : j = i
    · rw [hji, Function.update_self] at hj
      cases hj
    · rw [Function.update_of_ne hji] at hj
      exact hinv.handled j h stage hj
  env s φ s' hinv henv := by
    cases henv with
    | sync fleet =>
      exact hinv.background ⟨fun _ _ h => h, List.Subset.refl _,
        List.Subset.refl _⟩ rfl (fun _ _ _ hp => hp)
        (fun _ => ⟨.inl rfl, .inl rfl⟩) hinv.unfinished ⟨fleet, rfl⟩
    | others q huntouched =>
      exact hinv.background ⟨fun _ _ h => h, List.Subset.refl _,
        List.Subset.refl _⟩ rfl (fun _ _ _ hp => hp.handle q)
        huntouched (hinv.unfinished.handle q) hinv.cache

/-- A call that does not write a ConfigMap leaves its data as it was. -/
theorem Respond.metadata_eq {q : Request} {a : Answer q} {name : GoString}
    (hexec : Respond i s q a s')
    (htarget : ∀ request, q = .api request → request.target ≠ some (.configMap, name)) :
    metadata s'.cluster name = metadata s.cluster name := by
  cases hexec with
  | server hexec =>
    rw [answered_cluster]
    exact exec_metadata hexec (htarget _ rfl)
  | rand => rfl
  | randFailed => rfl
  | now => rfl

/-- A step keeps the creators of the entries it keeps. -/
theorem Inv.creators (hinv : Inv m s φ) {q : Request} {a : Answer q} (hi : φ i = some (h, stage))
    (hallowed : Allowed m h stage q) (hexec : Respond i s q a s') {modelName id : GoString}
    {info info' : KeyInfo}
    (hinfo : (metadata s.cluster (configMapName modelName)).lookup id = some (.keyInfo info))
    (hinfo' : (metadata s'.cluster (configMapName modelName)).lookup id = some (.keyInfo info')) :
    info'.creator = info.creator := by
  have hsame (heq : metadata s'.cluster (configMapName modelName) =
    metadata s.cluster (configMapName modelName)) :
      info'.creator = info.creator := by
    rw [heq, hinfo, Option.some.injEq, Entry.keyInfo.injEq] at hinfo'
    rw [hinfo']
  have hupdate {name : GoString} {cm : Object ConfigMapBody} {data : GoMap Entry}
      {a : apiserver.Answer (.update Kind.configMap name { cm with body.data := data })}
        {cluster : Cluster}
      (hpast : Past s.cluster .configMap name cm)
      (hexec : Exec (fun _ => False) s.cluster
        (.update Kind.configMap name { cm with body.data := data }) a cluster)
      (hcluster : s'.cluster = cluster)
      (hkept : ∀ info, cm.body.data.lookup id = some (.keyInfo info) →
        data.lookup id = some (.keyInfo info') → info'.creator = info.creator) :
          info'.creator = info.creator := by
    by_cases hname : configMapName modelName = name
    · subst name
      rcases hexec.update_copy cm hinv.unfinished hpast.2 rfl rfl with
        ⟨hunchanged, _⟩ | ⟨hlookup, object, hobject, hbody⟩
      · exact hsame (by rw [hcluster]; exact metadata_congr hunchanged)
      · rw [metadata_of_lookup hlookup] at hinfo
        have hdata : metadata cluster (configMapName modelName) = data := by
          rw [metadata_of_lookup hobject]
          exact congrArg ConfigMapBody.data hbody
        rw [hcluster, hdata] at hinfo'
        exact hkept info hinfo hinfo'
    · have hframe : metadata cluster (configMapName modelName) =
          metadata s.cluster (configMapName modelName) := by
        refine exec_metadata hexec (fun htarget => hname ?_)
        have htarget : some (Kind.configMap, name) =
          some (Kind.configMap, configMapName modelName) := htarget
        exact (Prod.mk.inj (Option.some.inj htarget)).2.symm
      exact hsame (by rw [hcluster, hframe])
  obtain ⟨_, hholds, _⟩ := hinv.handled i h stage hi
  cases hallowed with
  | list => exact hsame (hexec.metadata_eq (by rintro _ ⟨⟩; simp [apiserver.Request.target]))
  | check => exact hsame (hexec.metadata_eq (by rintro _ ⟨⟩; simp [apiserver.Request.target]))
  | readSecret => exact hsame (hexec.metadata_eq (by rintro _ ⟨⟩; simp [apiserver.Request.target]))
  | readConfigMap => exact hsame (hexec.metadata_eq (by rintro _ ⟨⟩; simp [apiserver.Request.target]))
  | rand => exact hsame (hexec.metadata_eq (fun _ heq => (by cases heq)))
  | now => exact hsame (hexec.metadata_eq (fun _ heq => (by cases heq)))
  | mint => exact hsame (hexec.metadata_eq (by rintro _ ⟨⟩; simp [apiserver.Request.target]))
  | revoke => exact hsame (hexec.metadata_eq (by rintro _ ⟨⟩; simp [apiserver.Request.target]))
  | @record body cm before newID key newInfo hreq hnew hfree hclientID hcreator =>
    cases hexec with
    | server hexec =>
      have hmodel : h.request.modelName = some body.modelName := by rw [hreq]; rfl
      refine hupdate (hholds body.modelName hmodel).1 hexec (answered_cluster ..)
        (fun info hold hnew => ?_)
      rw [GoMap.lookup_insert_eq] at hnew
      split_ifs at hnew with hid
      · rw [← hid] at hfree
        exact absurd (Finmap.mem_of_lookup_eq_some hold) hfree
      · rw [hold, Option.some.injEq, Entry.keyInfo.injEq] at hnew
        rw [hnew]
  | @bury ns revokedModel revokedID cm before after now hreq =>
    cases hexec with
    | server hexec =>
      have hmodel : h.request.modelName = some revokedModel := by rw [hreq]; rfl
      refine hupdate (hholds revokedModel hmodel).1 hexec (answered_cluster ..)
        (fun info hold hnew => ?_)
      rw [GoMap.lookup_insert_eq] at hnew
      split_ifs at hnew with hid
      · obtain rfl := Entry.keyInfo.inj (Option.some.inj hnew)
        rw [← hid, hold]
        rfl
      · rw [Manager.dropExpired, GoMap.lookup_eraseAll] at hnew
        split_ifs at hnew
        rw [hold, Option.some.injEq, Entry.keyInfo.injEq] at hnew
        rw [hnew]

end Keeps

section Accountable

/-- What requests did to the keys, and what they were shown, was for their users to do and to
see. -/
structure Accountable (m : Manager) (c : Config State Request Answer Response Nat) : Prop where
  /-- A key is stored only by a request to mint one for a model its user may use. -/
  granted : ∀ w ∈ c.state.secretWrites, ∀ id key, w.after.lookup id = some key →
    w.before.lookup id ≠ some key →
    ∃ h body, c.state.requests[w.request]? = some h ∧ h.request = .createKey (some body) ∧
      w.name = secretName body.modelName ∧ Granted h.cache h.user.groups body.modelName
  /-- A listing shows entries on record that name its user as the creator. -/
  listed : ∀ i h keys, c.state.requests[i]? = some h → c.threads i = some (.pure (.keys keys)) →
    ∀ info ∈ keys,
    info.creator = h.user.username ∧ ∃ modelName, Recorded c.state (configMapName modelName) info
  /-- A key is removed only by a request to delete it of the user it was minted for. -/
  owned : ∀ w ∈ c.state.secretWrites, ∀ id key, w.before.lookup id = some key →
    w.after.lookup id ≠ some key →
    ∃ h ns modelName, c.state.requests[w.request]? = some h ∧
      h.request = .deleteKey ns modelName id ∧
      w.name = secretName modelName ∧ Minted c.state w.name id key h.user.username
  clientIDs : ∀ modelName id info,
    (metadata c.state.cluster (configMapName modelName)).lookup id = some (.keyInfo info) →
      info.clientID = id
  creators : ∀ c', Machine.Step (machine m) c c' → ∀ modelName id info info',
    (metadata c.state.cluster (configMapName modelName)).lookup id = some (.keyInfo info) →
    (metadata c'.state.cluster (configMapName modelName)).lookup id = some (.keyInfo info') →
      info'.creator = info.creator

variable {m : Manager} {s : State} {φ : Nat → Phase}

/-- What a minted key's client ID is composed of. -/
theorem Inv.clientID_of_minted (hinv : Inv m s φ) {modelName id key username : GoString}
    (hminted : Minted s (secretName modelName) id key username) :
    ∃ (user : UserInfo) (suffix : List UInt8),
      user.username = username ∧ suffix.length = 8 ∧ id = m.clientID modelName user.creator suffix ∧
      ∃ h ∈ s.requests, h.user = user ∧ h.request.modelName = some modelName := by
  obtain ⟨w, hw, hname, hbefore, hafter, h, body, hrequest, husername, hreq, hmodel⟩ := hminted
  obtain rfl := secretName_injective hmodel
  obtain ⟨h', hrequest', hjustified, _⟩ := hinv.writes w hw
  obtain rfl := Option.some.inj (hrequest.symm.trans hrequest')
  cases hjustified with
  | unchanged heq =>
    rw [heq, hbefore] at hafter
    cases hafter
  | @minted body' suffix key' hreq' _ _ hlength _ heq =>
    obtain rfl : body = body' := Option.some.inj (ApiRequest.createKey.inj (hreq.symm.trans hreq'))
    rw [heq, GoMap.lookup_insert_eq] at hafter
    split_ifs at hafter with hid
    · exact ⟨h.user, suffix, husername, hlength, hid, h, List.mem_of_getElem? hrequest,
        rfl, by rw [hreq]; rfl⟩
    · rw [hbefore] at hafter
      cases hafter
  | revoked hreq' =>
    rw [hreq] at hreq'
    cases hreq'

/-- A key that appears in a Secret was put there by a request to create it, for a model its user
was granted. -/
theorem Inv.granted_of_stored (hinv : Inv m s φ) {w : Write GoString} (hw : w ∈ s.secretWrites)
    {id key : GoString}
    (hafter : w.after.lookup id = some key) (hbefore : w.before.lookup id ≠ some key) :
    ∃ h body, s.requests[w.request]? = some h ∧ h.request = .createKey (some body) ∧
      w.name = secretName body.modelName ∧ Granted h.cache h.user.groups body.modelName := by
  obtain ⟨h, hrequest, hjustified, _⟩ := hinv.writes w hw
  cases hjustified with
  | unchanged heq =>
    rw [heq] at hafter
    exact absurd hafter hbefore
  | minted hreq hname hgranted => exact ⟨h, _, hrequest, hreq, hname, hgranted⟩
  | revoked hreq hname hminted heq =>
    rw [heq, GoMap.lookup_erase_eq] at hafter
    split_ifs at hafter
    exact absurd hafter hbefore

/-- A key that leaves a Secret was removed by a request to delete it, of the user it was minted
for, provided the digests tell the users and models at hand apart. -/
theorem Inv.owned_of_removed (hinv : Inv m s φ) {fed : Set GoString}
    (hlength : ∀ text, (m.sha256 text).length = 32)
    (hinj : Set.InjOn (fun text => (m.sha256 text).take 16) fed)
    (hfed : ∀ h ∈ s.requests, ∀ modelName, h.request.modelName = some modelName →
      List.intercalate [0] [h.user.username, modelName] ∈ fed) {w : Write GoString} (hw :
      w ∈ s.secretWrites)
    {id key : GoString} (hbefore : w.before.lookup id = some key)
    (hafter : w.after.lookup id ≠ some key) :
    ∃ h ns modelName, s.requests[w.request]? = some h ∧ h.request = .deleteKey ns modelName id ∧
      w.name = secretName modelName ∧ Minted s w.name id key h.user.username := by
  obtain ⟨h, hrequest, hjustified, hheld⟩ := hinv.writes w hw
  cases hjustified with
  | unchanged heq =>
    rw [heq] at hafter
    exact absurd hbefore hafter
  | minted hreq hname hgranted hsuffix hnew heq =>
    rw [heq, GoMap.lookup_insert_eq] at hafter
    split_ifs at hafter with hid
    · rw [← hid] at hnew
      exact absurd (Finmap.mem_of_lookup_eq_some hbefore) hnew
    · exact absurd hbefore hafter
  | @revoked ns modelName removed key' hreq hname hminted heq =>
    rw [heq, GoMap.lookup_erase_eq] at hafter
    split_ifs at hafter with hid
    swap
    · exact absurd hbefore hafter
    subst removed
    refine ⟨h, ns, modelName, hrequest, hreq, hname, ?_⟩
    -- the key that is there was minted for someone, under a client ID that tells whom
    obtain ⟨username, hheld⟩ := hheld id key hbefore
    rw [hname] at hminted hheld ⊢
    obtain ⟨user, suffix, rfl, hsuffix, hid, hd, hhd, rfl, hmodel⟩ := hinv.clientID_of_minted hheld
    obtain ⟨user', suffix', husername', hsuffix', hid', hd', hhd', rfl, hmodel'⟩ :=
      hinv.clientID_of_minted hminted
    have hsame : hd.user.username = hd'.user.username :=
      Manager.username_of_clientID hlength hinj (hfed hd hhd modelName hmodel)
        (hfed hd' hhd' modelName hmodel')
        hsuffix hsuffix' (hid.symm.trans hid')
    rw [← husername', ← hsame]
    exact hheld

private theorem Inv.recorded_of_listed (hinv : Inv m s φ) {i : Nat} {h : Handled}
    {all : List (GoString × Object ConfigMapBody)} (hi : φ i = some (h, .listed all))
    {info : KeyInfo} (hinfo : info ∈ (liveKeys
      ((all.filter isMetadata).flatMap (fun cm => parseConfigMapKeys cm.2))).filter
      (fun key => key.creator = h.user.username)) :
    info.creator = h.user.username ∧ ∃ modelName, Recorded s (configMapName modelName) info := by
  rw [List.mem_filter, mem_liveKeys, List.mem_flatMap] at hinfo
  obtain ⟨⟨⟨⟨name, cm⟩, hcm, hmem⟩, _⟩, hcreator⟩ := hinfo
  obtain ⟨hall, hmetadata⟩ := List.mem_filter.mp hcm
  obtain ⟨id, hid⟩ := mem_parseConfigMapKeys.mp hmem
  rw [isMetadata, Bool.and_eq_true] at hmetadata
  obtain ⟨modelName, hname⟩ := hasSuffix_iff.mp hmetadata.2
  obtain ⟨_, hholds, _⟩ := hinv.handled i h _ hi
  have hname' : name = configMapName modelName := hname
  rw [hname'] at hall
  exact ⟨of_decide_eq_true hcreator, modelName, (hholds modelName cm hall id info hid).recorded⟩

private theorem Inv.creators_of_step {c c' : Config State Request Answer Response Nat}
    (hinv : Inv m c.state φ)
    (hthreads : ∀ i p, c.threads i = some p → (protocol m).Follows (φ i) p (fun r φ => Ends r φ))
    (hstep : Machine.Step (machine m) c c') {modelName id : GoString} {info info' : KeyInfo}
    (hinfo : (metadata c.state.cluster (configMapName modelName)).lookup id = some (.keyInfo info))
    (hinfo' : (metadata c'.state.cluster (configMapName modelName)).lookup id =
      some (.keyInfo info')) :
    info'.creator = info.creator := by
  have hsame {data : GoMap Entry} (heq : data = metadata c.state.cluster (configMapName modelName))
      (hlookup : data.lookup id = some (.keyInfo info')) : info'.creator = info.creator := by
    rw [heq, hinfo, Option.some.injEq, Entry.keyInfo.injEq] at hlookup
    rw [hlookup]
  cases hstep with
  | start i hidle hstart =>
    obtain ⟨_, _, _, _, rfl⟩ := hstart
    exact hsame rfl hinfo'
  | exec i hcall hexec =>
    obtain ⟨⟨h, stage, hi, hallowed⟩, _⟩ := hthreads i _ hcall
    exact hinv.creators hi hallowed hexec hinfo hinfo'
  | finish i hpure hfinish =>
    cases hfinish
    exact hsame rfl hinfo'
  | env henv =>
    cases henv with
    | sync fleet => exact hsame rfl hinfo'
    | others q huntouched =>
      rcases (huntouched modelName).2 with heq | hnone
      · exact hsame heq hinfo'
      · rw [hnone, Finmap.lookup_empty] at hinfo'
        cases hinfo'

/-- In every run of requests, Syncs and calls that fail, where the digest tells apart
the names of the requests made, users mint, see and delete only what is theirs. -/
theorem requests_accountable {fed : Set GoString} (hlength : ∀ text, (m.sha256 text).length = 32)
    (hinj : Set.InjOn (fun text => (m.sha256 text).take 16) fed)
    {c : Config State Request Answer Response Nat} (hreach : (machine m).Reachable Initial c)
    (hfed : ∀ h ∈ c.state.requests, ∀ modelName, h.request.modelName = some modelName →
      List.intercalate [0] [h.user.username, modelName] ∈ fed) : Accountable m c := by
  obtain ⟨φ, hinv, hthreads⟩ := keeps.reachable hreach
  have hfollows (i : Nat) (p : Handling) (hp : c.threads i = some p) :
      (protocol m).Follows (φ i) p (fun r φ => Ends r φ) := by
    have hi := hthreads i
    rwa [hp] at hi
  refine ⟨fun w hw id key hafter hbefore => hinv.granted_of_stored hw hafter hbefore,
    fun i h keys hrequest hthread => ?_,
    fun w hw id key hbefore hafter => hinv.owned_of_removed hlength hinj hfed hw hbefore hafter,
    fun modelName id info hinfo => (hinv.genuine modelName id info hinfo).clientID,
    fun c' hstep modelName id info info' => hinv.creators_of_step hfollows hstep⟩
  obtain ⟨h', stage, hi, hkeys⟩ := hfollows i _ hthread
  obtain ⟨all, rfl, rfl⟩ := hkeys keys rfl
  obtain rfl := Option.some.inj (hrequest.symm.trans (hinv.handled i h' _ hi).1)
  exact fun info hinfo => hinv.recorded_of_listed hi hinfo

end Accountable

section Scripts

/-- Whether a request of others creates a Secret or a ConfigMap without data. -/
def createsEmpty : apiserver.Request Body → Bool
  | .create .secret _ object => object.body.data.keys = ∅
  | .create .configMap _ object => object.body.data.keys = ∅
  | _ => false

private theorem untouched_of_createsEmpty {s : Cluster} {q : apiserver.Request Body}
    (h : createsEmpty q = true) :
    Untouched s (s.handle q).2 := by
  have hempty {V : Type} {data : GoMap V} (hdata : data.keys = ∅) : data = ∅ :=
    Finmap.ext_lookup (fun id => by
    rw [Finmap.lookup_empty, Finmap.lookup_eq_none, ← Finmap.mem_keys, hdata]
    exact Finset.notMem_empty id)
  intro modelName
  constructor
  · cases hlookup : (s.handle q).2.lookup .secret (secretName modelName) with
    | none => exact .inr (by rw [secretData, hlookup]; rfl)
    | some secret =>
      rw [secretData_of_lookup hlookup]
      cases s.handle_origin q hlookup with
      | kept hsame => exact .inl (secretData_of_lookup hsame).symm
      | created hnone => exact .inr (hempty (of_decide_eq_true h))
      | updated => cases h
      | statusUpdated => cases h
      | deleting => cases h
  · cases hlookup : (s.handle q).2.lookup .configMap (configMapName modelName) with
    | none => exact .inr (by rw [metadata, hlookup]; rfl)
    | some cm =>
      rw [metadata_of_lookup hlookup]
      cases s.handle_origin q hlookup with
      | kept hsame => exact .inl (metadata_of_lookup hsame).symm
      | created hnone => exact .inr (hempty (of_decide_eq_true h))
      | updated => cases h
      | statusUpdated => cases h
      | deleting => cases h

/-- What begins in a scripted run: a request, or a write of others. -/
inductive Begin where
  | request (user : UserInfo) (request : ApiRequest)
  | others (q : apiserver.Request Body)

def runner (m : Manager) : Machine.Runner State Request Answer Response Nat (Choice Begin) where
  start
    | .call (.request user request), i, s =>
      if i = s.requests.length then
        some (handle m s.cache (some user) request,
          { s with requests := s.requests ++ [⟨user, request, s.cache⟩] })
      else none
    | _, _, _ => none
  answer
    | .reply, i, s, .api request =>
        some ((s.cluster.handle request).1, s.answered i (s.cluster.handle request).2 request)
    | .bytes drawn, _, s, .rand n accept =>
      if h : drawn.length = n ∧ accept drawn = true then some (.ok ⟨drawn, h⟩, s) else none
    | .seconds now, _, s, .now => some (now, s)
    | _, _, _, _ => none
  finish _ s _ := some s
  env
    | .call (.others q), s =>
        if createsEmpty q then some { s with cluster := (s.cluster.handle q).2 } else none
    | _, _ => none

/-- A schedule that is run step by step is a run of the key manager. -/
theorem runner_sound (m : Manager) : (runner m).Sound (machine m) where
  start o i s p s' h := by
    unfold runner at h
    simp only at h
    split at h
    · split_ifs at h with hlength
      obtain ⟨rfl, rfl⟩ := Prod.mk.inj (Option.some.inj h)
      exact ⟨hlength, _, _, rfl, rfl⟩
    · cases h
  answer o i s q a s' h := by
    unfold runner at h
    simp only at h
    split at h
    · obtain ⟨rfl, rfl⟩ := Prod.mk.inj (Option.some.inj h)
      exact .server (.reply _)
    · split_ifs at h
      obtain ⟨rfl, rfl⟩ := Prod.mk.inj (Option.some.inj h)
      exact .rand _
    · obtain ⟨rfl, rfl⟩ := Prod.mk.inj (Option.some.inj h)
      exact .now _
    · cases h
  finish i s r s' h := (Option.some.inj h).symm
  env o s s' h := by
    unfold runner at h
    simp only at h
    split at h
    · split_ifs at h with hempty
      obtain rfl := Option.some.inj h
      exact .others _ (untouched_of_createsEmpty hempty)
    · cases h

def chatFleet : Fleet where
  list := [{
    name := "chat"
    «namespace» := "llm-serving"
    metadata := {}
    body := { spec := { model := { name := "org/chat" }, access := { groups := ["llm-users"] } } }
      }]
  ptList := []
  distinct := by decide
  valid := by decide

def aliceInfo : UserInfo where
  username := "alice"
  subject := "0b9e2f6c"
  groups := ["llm-users"]

/-- A cluster without keys. -/
def emptyStore : State where
  cluster := ApiServer.empty
  cache := chatFleet.cache

/-- A cluster without Secrets and ConfigMaps is one to start from. -/
theorem emptyStore_initial : Initial emptyStore where
  secrets _ := rfl
  metadata _ := rfl
  unfinished kind name object h := by
    rw [emptyStore, ApiServer.lookup, ApiServer.empty, Finmap.lookup_empty] at h
    cases h
  cache := ⟨chatFleet, rfl⟩
  requests := rfl
  secretWrites := rfl
  metadataWrites := rfl

def chatLabels : ObjectMeta where
  labels := GoMap.ofList [("llm.nebari.dev/model-name", "chat")]

def firstID : GoString := chatManager.clientID "chat" aliceInfo.creator [0, 0, 0, 0, 0, 0, 0, 0]

/-- Alice mints a key, lists her keys and deletes the key again. -/
def mintListDelete : List (Machine.Move Nat (Choice Begin)) :=
  [.env (.call (.others (.create .secret (secretName "chat") ⟨chatLabels, {}⟩))),
    .env (.call (.others (.create .configMap (configMapName "chat") ⟨chatLabels, {}⟩))),
    .start 0 (.call (.request aliceInfo (.createKey (some ⟨"chat", []⟩)))), .answer 0 .reply,
      .answer 0 .reply,
    .answer 0 (.bytes [0, 0, 0, 0, 0, 0, 0, 0]), .answer 0 (.bytes (List.replicate 24 0)),
      .answer 0 .reply,
    .answer 0 (.seconds 0), .answer 0 .reply, .finish 0,
    .start 1 (.call (.request aliceInfo .getKeys)), .answer 1 .reply,
    .start 2 (.call (.request aliceInfo (.deleteKey "llm-serving" "chat" firstID))),
      .answer 2 .reply, .answer 2 .reply,
    .answer 2 .reply, .answer 2 .reply, .answer 2 (.seconds 60), .answer 2 .reply, .finish 2]

/-- Whether a request has ended with this many keys. -/
def showsKeys (count : Nat) : Option Handling → Bool
  | some (.pure (.keys keys)) => keys.length = count
  | _ => false

def managed : Option (Config State Request Answer Response Nat) :=
  (runner chatManager).run mintListDelete ⟨emptyStore, fun _ => none⟩

private theorem managed_ends : managed.any (fun c => showsKeys 1 (c.threads 1) &&
    c.state.secretWrites.any (fun w => firstID ∈ w.before && firstID ∉ w.after) &&
    c.state.requests.all (fun h => h.request.modelName.all (fun modelName =>
      List.intercalate [0] [h.user.username, modelName] = lit "alice\x00chat"))) = true := by
  decide +kernel

theorem chatDigest_length (text : GoString) : (chatManager.sha256 text).length = 32 := rfl

/-- Alice mints a key, sees it and deletes it, and all of it is accounted for. -/
theorem alice_accountable : ∃ c : Config State Request Answer Response Nat,
    (∃ w ∈ c.state.secretWrites, firstID ∈ w.before ∧ firstID ∉ w.after) ∧
    Accountable chatManager c := by
  obtain ⟨c, hrun, hends⟩ := (Option.any_eq_true _ _).mp managed_ends
  simp only [Bool.and_eq_true] at hends
  obtain ⟨⟨_, hremoved⟩, hrequests⟩ := hends
  obtain ⟨w, hw, hremoved⟩ := List.any_eq_true.mp hremoved
  rw [Bool.and_eq_true, decide_eq_true_eq, decide_eq_true_eq] at hremoved
  refine ⟨c, ⟨w, hw, hremoved⟩,
    requests_accountable chatDigest_length (Set.injOn_singleton _ (lit "alice\x00chat"))
    ((runner_sound chatManager).reachable (.init emptyStore_initial) hrun)
      (fun h hh modelName hmodel => ?_)⟩
  have hfed := List.all_eq_true.mp hrequests h hh
  rw [hmodel, Option.all_some] at hfed
  exact of_decide_eq_true hfed

end Scripts

end api
