import ServingPack.KeyManager.Calls
import ServingPack.Lib.ApiServer.Exec

open golang apiserver concurrency kube

namespace secrets

/-- The answers when nothing fails but an update of an outdated version. -/
inductive Respond (s : Cluster) : (q : Request) → Answer q → Cluster → Prop where
  | api (request : apiserver.Request Body) :
    Respond s (.api request) (s.handle request).1 (s.handle request).2
  | rand {n : Nat} {accept : List UInt8 → Bool} (bytes : Drawn n accept) :
    Respond s (.rand n accept) (.ok bytes) s
  | now (seconds : Nat) : Respond s .now seconds s

/-- Any number of concurrent calls on one model. -/
def machine (m : Manager) (modelName : GoString) : Machine Cluster Request Answer Outcome Nat where
  start _ s p s' := s' = s ∧ ∃ operation : Operation, p = operation.program m modelName
  exec _ s q a s' := Respond s q a s'
  finish _ s _ s' := s' = s
  env _ _ := False

/-- The key listings show this client ID: its entry is readable and not revoked. -/
def Listed (data : GoMap Entry) (id : GoString) : Prop :=
  ∃ info, data.lookup id = some (.keyInfo info) ∧ info.revokedAt = none

/-- The live credentials of the model are exactly its listed keys. -/
def Synced (modelName : GoString) (s : Cluster) : Prop :=
  ∀ secret cm, s.lookup .secret (secretName modelName) = some secret →
    s.lookup .configMap (configMapName modelName) = some cm →
    ∀ id, id ∈ secret.body.data ↔ Listed cm.body.data id

/-- An update of a ConfigMap is made from the version stored now. -/
def configMapCurrent (s : Cluster) (q : Request) (_ : Answer q) (_ : Cluster) : Prop :=
  match q with
  | .api (.update .configMap name object) => (s.lookup .configMap name).all (fun current =>
      object.metadata.resourceVersion == current.metadata.resourceVersion) = true
  | _ => True

instance (s : Cluster) (q : Request) (a : Answer q) (s' : Cluster) :
    Decidable (configMapCurrent s q a s') := by
  unfold configMapCurrent
  split <;> infer_instance

inductive Phase where
  | quiet
  | readSecret (secret : Object SecretBody)
  | readBoth (secret : Object SecretBody) (cm : Object ConfigMapBody)
  | wroteSecret (cm : Object ConfigMapBody) (before after : GoMap GoString)

def Phase.Pending : Phase → Prop
  | .wroteSecret _ _ _ => True
  | _ => False

/-- The key a call adds or takes away. -/
inductive Change where
  | mint (id : GoString)
  | revoke (id : GoString)

namespace Change

def Fits : Change → GoMap GoString → GoMap Entry → GoMap GoString → Prop
  | mint id, before, cm, after => id ∉ before ∧ id ∉ cm ∧ ∃ key, after = before.insert id key
  | revoke id, before, _, after => id ∈ before ∧ after = before.erase id

def Records : Change → GoMap Entry → GoMap Entry → Prop
  | mint id, before, after =>
    ∃ info : KeyInfo, info.revokedAt = none ∧ after = before.insert id (.keyInfo info)
  | revoke id, before, after => ∃ now keyInfo,
      after = (Manager.dropExpired now before).insert id
        (.keyInfo (Manager.tombstone id now keyInfo))

end Change

def allowed (modelName : GoString) : Phase → Request → Prop
  | _, .rand _ _ => True
  | _, .now => True
  | φ, .api (.get .secret name) => ¬φ.Pending ∧ name = secretName modelName
  | .readSecret _, .api (.get .configMap name) => name = configMapName modelName
  | .readBoth secret cm, .api (.update .secret name object) => name = secretName modelName ∧
      object.metadata = secret.metadata ∧
        ∃ c : Change, c.Fits secret.body.data cm.body.data object.body.data
  | .wroteSecret cm before after, .api (.update .configMap name object) =>
      name = configMapName modelName ∧
      object.metadata = cm.metadata ∧
      ∃ c : Change, c.Fits before cm.body.data after ∧ c.Records cm.body.data object.body.data
  | _, _ => False

def next : Phase → (q : Request) → Answer q → Phase
  | _, .api (.get .secret _), .ok secret => .readSecret secret
  | .readSecret secret, .api (.get .configMap _), .ok cm => .readBoth secret cm
  | .readBoth secret cm, .api (.update .secret _ object), .ok _ =>
    .wroteSecret cm secret.body.data object.body.data
  | φ, .rand _ _, _ => φ
  | φ, .now, _ => φ
  | _, _, _ => .quiet

def protocol (modelName : GoString) : Protocol Request Answer Phase where
  allowed := allowed modelName
  next := next

section Follows

variable {m : Manager} {modelName : GoString}

/-- An attempt to create a key writes the ConfigMap after the Secret, and ends with no write
pending. -/
theorem follows_createKeyOnce (creator : Creator) (description : GoString) {φ : Phase}
    (hφ : ¬φ.Pending) :
    (protocol modelName).Follows φ (m.createKeyOnce modelName creator description).run
      (fun _ φ' => ¬φ'.Pending) := by
  refine ⟨⟨hφ, rfl⟩, ?_⟩
  rintro (e | secret)
  · exact id
  refine ⟨rfl, ?_⟩
  rintro (e | cm)
  · exact id
  refine ⟨trivial, ?_⟩
  rintro (e | ⟨suffix, hlength, hfree⟩)
  · exact id
  rw [Bool.and_eq_true, decide_eq_true_eq, decide_eq_true_eq] at hfree
  refine ⟨trivial, ?_⟩
  rintro (e | bytes)
  · exact id
  have hfits : (Change.mint (m.clientID modelName creator suffix)).Fits secret.body.data
    cm.body.data
      (secret.body.data.insert (m.clientID modelName creator suffix) (apiKeyText bytes.val)) :=
    ⟨hfree.1, hfree.2, _, rfl⟩
  refine ⟨⟨rfl, rfl, _, hfits⟩, ?_⟩
  rintro (e | stored)
  · exact id
  refine ⟨trivial, fun createdAt => ⟨⟨rfl, rfl, _, hfits, _, rfl, rfl⟩, ?_⟩⟩
  rintro (e | stored')
  · exact id
  exact id

/-- So does an attempt to revoke one. -/
theorem follows_revokeKeyOnce (clientID : GoString) {φ : Phase} (hφ : ¬φ.Pending) :
    (protocol modelName).Follows φ (Manager.revokeKeyOnce modelName clientID).run
      (fun _ φ' => ¬φ'.Pending) := by
  refine ⟨⟨hφ, rfl⟩, ?_⟩
  rintro (e | secret)
  · exact id
  refine ⟨rfl, ?_⟩
  rintro (e | cm)
  · exact id
  change (protocol modelName).Follows (.readBoth secret cm)
    (if clientID ∈ secret.body.data then Manager.removeKey modelName clientID secret cm
      else throw _ : Call Unit).run _
  split_ifs with hmem
  · have hfits : (Change.revoke clientID).Fits secret.body.data cm.body.data
        (secret.body.data.erase clientID) :=
      ⟨hmem, rfl⟩
    refine ⟨⟨rfl, rfl, _, hfits⟩, ?_⟩
    rintro (e | stored)
    · exact id
    refine ⟨trivial, fun now => ⟨⟨rfl, rfl, _, hfits, now, _, rfl⟩, ?_⟩⟩
    rintro (e | stored')
    · exact id
    exact id
  · exact id

end Follows

end secrets
