import ServingPack.KeyManager.Handler
import ServingPack.KeyManager.Store
import ServingPack.Lib.Protocol

open golang apiserver concurrency kube models secrets

namespace api

/-- A request as it is handled: whose it is, and with which model cache. -/
structure Handled where
  user : UserInfo
  request : ApiRequest
  cache : GoMap ModelInfo

structure State where
  cluster : Cluster
  cache : GoMap ModelInfo
  /-- The requests made so far. -/
  requests : List Handled := []
  secretWrites : List (Write GoString) := []
  metadataWrites : List (Write Entry) := []

/-- A request's call on the cluster was answered: what it wrote is on record. -/
def State.answered (s : State) (i : Nat) (cluster : Cluster) : apiserver.Request Body → State
  | .update .secret name _ => { s with
      cluster := cluster
      secretWrites := ⟨i, name, secretData s.cluster name,
        secretData cluster name⟩ :: s.secretWrites }
  | .update .configMap name _ => { s with
      cluster := cluster
      metadataWrites := ⟨i, name, metadata s.cluster name,
        metadata cluster name⟩ :: s.metadataWrites }
  | _ => { s with cluster := cluster }

section Machine

/-- The answers to the calls of the request `i`. Any of them can fail. -/
inductive Respond (i : Nat) (s : State) : (q : Request) → Answer q → State → Prop where
  | server {request : apiserver.Request Body} {a : apiserver.Answer request} {cluster : Cluster}
      (hexec : Exec (fun _ => False) s.cluster request a cluster) :
      Respond i s (.api request) a (s.answered i cluster request)
  | rand {n : Nat} {accept : List UInt8 → Bool} (bytes : Drawn n accept) :
    Respond i s (.rand n accept) (.ok bytes) s
  | randFailed {n : Nat} {accept : List UInt8 → Bool} (e : StatusError) :
    Respond i s (.rand n accept) (.error e) s
  | now (seconds : Nat) : Respond i s .now seconds s

/-- Others create and delete the Secrets and ConfigMaps of models, and change all of
them but their data. -/
def Untouched (s cluster : Cluster) : Prop :=
  ∀ modelName,
    (secretData cluster (secretName modelName) = secretData s (secretName modelName) ∨
      secretData cluster (secretName modelName) = ∅) ∧
    (metadata cluster (configMapName modelName) = metadata s (configMapName modelName) ∨
      metadata cluster (configMapName modelName) = ∅)

inductive Env (s : State) : State → Prop where
  /-- A `Sync` of the model cache. -/
  | sync (fleet : Fleet) : Env s { s with cache := fleet.cache }
  | others (q : apiserver.Request Body) (huntouched : Untouched s.cluster (s.cluster.handle q).2) :
      Env s { s with cluster := (s.cluster.handle q).2 }

/-- Any number of requests at the same time, by any users. -/
def machine (m : Manager) : Machine State Request Answer Response Nat where
  start i s p s' := i = s.requests.length ∧ ∃ (user : UserInfo) (request : ApiRequest),
    p = handle m s.cache (some user) request ∧
      s' = { s with requests := s.requests ++ [⟨user, request, s.cache⟩] }
  exec := Respond
  finish _ s _ s' := s' = s
  env := Env

/-- No keys yet, and no requests. -/
structure Initial (s : State) : Prop where
  secrets : ∀ modelName, secretData s.cluster (secretName modelName) = ∅
  metadata : ∀ modelName, metadata s.cluster (configMapName modelName) = ∅
  unfinished : s.cluster.Unfinished
  cache : ∃ fleet : Fleet, s.cache = fleet.cache
  requests : s.requests = []
  secretWrites : s.secretWrites = []
  metadataWrites : s.metadataWrites = []

end Machine

section Accounts

/-- A model of the cache that the user may use, and the only one of its name. -/
def Granted (cache : GoMap ModelInfo) (groups : List GoString) (modelName : GoString) : Prop :=
  ∃ info ∈ listModels cache, info.name = modelName ∧
    (info.public = true ∨ ∃ g ∈ info.groups, g ∈ groups) ∧
    ∀ other ∈ listModels cache, other.name = modelName → other = info

/-- `CreateKey` has stored this key on behalf of this user. -/
def Minted (s : State) (name id key username : GoString) : Prop :=
  ∃ w ∈ s.secretWrites, w.name = name ∧ w.before.lookup id = none ∧ w.after.lookup id = some key ∧
    ∃ h body, s.requests[w.request]? = some h ∧ h.user.username = username ∧
      h.request = .createKey (some body) ∧
      name = secretName body.modelName

/-- The entry was written to the model's metadata under its client ID. -/
def Recorded (s : State) (name : GoString) (info : KeyInfo) : Prop :=
  ∃ w ∈ s.metadataWrites, w.name = name ∧ w.after.lookup info.clientID = some (.keyInfo info)

end Accounts

/-- How far a request has come. -/
inductive Stage where
  | begun
  | listed (all : List (GoString × Object ConfigMapBody))
  | ready
  | readSecret (secret : Object SecretBody)
  | readBoth (secret : Object SecretBody) (cm : Object ConfigMapBody)
  | wroteSecret (cm : Object ConfigMapBody) (before after : GoMap GoString)

/-- The stages an attempt to change a model's keys can begin in. -/
def Stage.Attempts : Stage → Prop
  | .ready => True
  | .readSecret _ => True
  | .readBoth _ _ => True
  | _ => False

/-- The model whose keys a request can change. -/
def ApiRequest.modelName : ApiRequest → Option GoString
  | .createKey (some body) => some body.modelName
  | .deleteKey _ modelName _ => some modelName
  | _ => none

/-- Whether the key a request is to delete is one of its user's. -/
def Handled.owns (h : Handled) (cm : Object ConfigMapBody) : Bool :=
  match h.request with
  | .deleteKey «namespace» _ clientID =>
    (findKey (liveKeys (parseConfigMapKeys cm)) «namespace» clientID).any
      (fun found => found.creator = h.user.username)
  | _ => false

/-- What a request asks in each stage. -/
inductive Allowed (m : Manager) (h : Handled) : Stage → Request → Prop where
  | list (hreq : h.request = .getKeys) : Allowed m h .begun (.api (.list .configMap ∅))
  | check {ns modelName clientID : GoString} (hreq : h.request = .deleteKey ns modelName clientID) :
      Allowed m h .begun (.api (.get .configMap (configMapName modelName)))
  | readSecret {stage : Stage} {modelName : GoString} (hreq : h.request.modelName = some modelName)
      (hstage : stage.Attempts) : Allowed m h stage (.api (.get .secret (secretName modelName)))
  | readConfigMap {secret : Object SecretBody} {modelName : GoString}
    (hreq : h.request.modelName = some modelName) :
      Allowed m h (.readSecret secret) (.api (.get .configMap (configMapName modelName)))
  | rand {secret : Object SecretBody} {cm : Object ConfigMapBody} {n : Nat} {accept : List UInt8 →
    Bool} :
      Allowed m h (.readBoth secret cm) (.rand n accept)
  | now {cm : Object ConfigMapBody} {before after : GoMap GoString} :
    Allowed m h (.wroteSecret cm before after) .now
  | mint {body : CreateKeyRequest} {secret : Object SecretBody} {cm : Object ConfigMapBody}
    {suffix : List UInt8}
      {key : GoString} (hreq : h.request = .createKey (some body)) (hlength : suffix.length = 8)
      (hnew : m.clientID body.modelName h.user.creator suffix ∉ secret.body.data) :
      Allowed m h (.readBoth secret cm) (.api (.update .secret (secretName body.modelName)
        { secret with body.data := secret.body.data.insert (m.clientID body.modelName h.user.creator suffix) key }))
  | record {body : CreateKeyRequest} {cm : Object ConfigMapBody} {before : GoMap GoString}
    {id key : GoString}
      {info : KeyInfo} (hreq : h.request = .createKey (some body)) (hnew : id ∉ before)
        (hfree : id ∉ cm.body.data)
      (hclientID : info.clientID = id) (hcreator : info.creator = h.user.username) :
      Allowed m h (.wroteSecret cm before (before.insert id key)) (.api (.update .configMap
        (configMapName body.modelName)
          { cm with body.data := cm.body.data.insert id (.keyInfo info) }))
  | revoke {ns modelName id : GoString} {secret : Object SecretBody} {cm : Object ConfigMapBody}
      (hreq : h.request = .deleteKey ns modelName id) : Allowed m h (.readBoth secret cm)
        (.api (.update .secret (secretName modelName)
          { secret with body.data := secret.body.data.erase id }))
  | bury {ns modelName id : GoString} {cm : Object ConfigMapBody} {before after : GoMap GoString}
    {now : Nat}
      (hreq : h.request = .deleteKey ns modelName id) : Allowed m h (.wroteSecret cm before after)
        (.api (.update .configMap (configMapName modelName) { cm with
          body.data := (Manager.dropExpired now cm.body.data).insert id
            (.keyInfo (Manager.tombstone id now
            (((cm.body.data.lookup id).bind Entry.unmarshal).getD Manager.zeroKeyInfo))) }))

def next (h : Handled) : Stage → (q : Request) → Answer q → Stage
  | .begun, .api (.list .configMap _), .ok all => .listed all
  | .begun, .api (.get .configMap _), .ok cm => if h.owns cm then .ready else .begun
  | .readSecret secret, .api (.get .configMap _), .ok cm => .readBoth secret cm
  | .readBoth secret cm, .api (.update .secret _ object), .ok _ =>
      .wroteSecret cm secret.body.data object.body.data
  | .wroteSecret _ _ _, .api (.update .configMap _ _), _ => .ready
  | _, .api (.get .secret _), .ok secret => .readSecret secret
  | stage, _, _ => stage

/-- A request that is handled, and its stage. -/
abbrev Phase := Option (Handled × Stage)

def protocol (m : Manager) : Protocol Request Answer Phase where
  allowed φ q := ∃ h stage, φ = some (h, stage) ∧ Allowed m h stage q
  next φ q a := φ.map (fun p => (p.1, next p.1 p.2 q a))

section Follows

variable {m : Manager} {h : Handled} {stage : Stage}

/-- An attempt to create a key keeps to its request's stages and ends in one that may try again.
-/
theorem follows_createKeyOnce {body : CreateKeyRequest} (hreq : h.request = .createKey (some body))
    (hstage : stage.Attempts) : (protocol m).Follows (some (h, stage))
      (m.createKeyOnce body.modelName h.user.creator body.description).run
      (fun _ φ => ∃ stage', φ = some (h, stage') ∧ stage'.Attempts) := by
  have hmodel : h.request.modelName = some body.modelName := by rw [hreq]; rfl
  have hread (secret : Object SecretBody) :
    next h stage (.api (.get .secret (secretName body.modelName))) (.ok secret) =
      .readSecret secret := by
    cases stage <;> rfl
  refine ⟨⟨h, stage, rfl, .readSecret hmodel hstage⟩, ?_⟩
  rintro (e | secret)
  · refine ⟨_, rfl, ?_⟩
    cases stage <;> exact hstage
  simp only [protocol, Option.map_some, hread]
  refine ⟨⟨h, _, rfl, .readConfigMap hmodel⟩, ?_⟩
  rintro (e | cm)
  · exact ⟨_, rfl, trivial⟩
  refine ⟨⟨h, _, rfl, .rand⟩, ?_⟩
  rintro (e | ⟨suffix, hlength, hfree⟩)
  · exact ⟨_, rfl, trivial⟩
  rw [Bool.and_eq_true, decide_eq_true_eq, decide_eq_true_eq] at hfree
  refine ⟨⟨h, _, rfl, .rand⟩, ?_⟩
  rintro (e | bytes)
  · exact ⟨_, rfl, trivial⟩
  refine ⟨⟨h, _, rfl, .mint hreq hlength hfree.1⟩, ?_⟩
  rintro (e | stored)
  · exact ⟨_, rfl, trivial⟩
  refine ⟨⟨h, _, rfl, .now⟩, fun createdAt => ⟨⟨h, _, rfl, .record hreq hfree.1 hfree.2 rfl rfl⟩, ?_⟩⟩
  rintro (e | stored')
  · exact ⟨_, rfl, trivial⟩
  exact ⟨_, rfl, trivial⟩

/-- So does an attempt to revoke one. -/
theorem follows_revokeKeyOnce {ns modelName id : GoString} (hreq : h.request = .deleteKey ns modelName id)
    (hstage : stage.Attempts) : (protocol m).Follows (some (h, stage)) (Manager.revokeKeyOnce modelName id).run
      (fun _ φ => ∃ stage', φ = some (h, stage') ∧ stage'.Attempts) := by
  have hmodel : h.request.modelName = some modelName := by rw [hreq]; rfl
  have hread (secret : Object SecretBody) : next h stage (.api (.get .secret (secretName modelName))) (.ok secret) =
      .readSecret secret := by
    cases stage <;> rfl
  refine ⟨⟨h, stage, rfl, .readSecret hmodel hstage⟩, ?_⟩
  rintro (e | secret)
  · refine ⟨_, rfl, ?_⟩
    cases stage <;> exact hstage
  simp only [protocol, Option.map_some, hread]
  refine ⟨⟨h, _, rfl, .readConfigMap hmodel⟩, ?_⟩
  rintro (e | cm)
  · exact ⟨_, rfl, trivial⟩
  change (protocol m).Follows (some (h, .readBoth secret cm))
    (if id ∈ secret.body.data then Manager.removeKey modelName id secret cm else throw _ : Call Unit).run _
  split_ifs
  · refine ⟨⟨h, _, rfl, .revoke hreq⟩, ?_⟩
    rintro (e | stored)
    · exact ⟨_, rfl, trivial⟩
    refine ⟨⟨h, _, rfl, .now⟩, fun now => ⟨⟨h, _, rfl, .bury hreq⟩, ?_⟩⟩
    rintro (e | stored')
    · exact ⟨_, rfl, trivial⟩
    exact ⟨_, rfl, trivial⟩
  · exact ⟨_, rfl, trivial⟩

end Follows

end api
