import ServingPack.KeyManager.Calls
import ServingPack.Lib.ApiServer.Exec

open golang apiserver concurrency kube

namespace secrets.fleet

/-- The cluster and every random byte string drawn so far. -/
structure State where
  cluster : Cluster
  drawn : List (List UInt8) := []

/-- The answers where any API call can fail and no draw ever repeats. -/
inductive Respond (st : State) : (q : Request) → Answer q → State → Prop where
  | api {request : apiserver.Request Body} {a : apiserver.Answer request} {s : Cluster}
      (hexec : Exec (fun _ => False) st.cluster request a s) :
      Respond st (.api request) a { st with cluster := s }
  | rand {n : Nat} {accept : List UInt8 → Bool} (bytes : Drawn n accept)
    (hfresh : bytes.val ∉ st.drawn) :
      Respond st (.rand n accept) (.ok bytes) { st with drawn := bytes.val :: st.drawn }
  | randFailed {n : Nat} {accept : List UInt8 → Bool} (e : StatusError) :
    Respond st (.rand n accept) (.error e) st
  | now (seconds : Nat) : Respond st .now seconds st

/-- Any number of concurrent calls on any models. -/
def machine (m : Manager) : Machine State Request Answer Outcome Nat where
  start _ st p st' := st' = st ∧ ∃ (modelName : GoString) (operation : Operation),
    p = operation.program m modelName
  exec _ st q a st' := Respond st q a st'
  finish _ st _ st' := st' = st
  env _ _ := False

/-- How far a call has come towards its Secret update: the Secret it read, the
random part of the client ID and the random bytes of the key. -/
inductive Phase where
  | quiet
  | read (name : GoString) (secret : Object SecretBody)
  | drew (name : GoString) (secret : Object SecretBody) (suffix : List UInt8)
  | ready (name : GoString) (secret : Object SecretBody) (suffix bytes : List UInt8)

def Phase.suffix : Phase → Option (List UInt8)
  | .drew _ _ suffix => some suffix
  | .ready _ _ suffix _ => some suffix
  | _ => none

def Phase.bytes : Phase → Option (List UInt8)
  | .ready _ _ _ bytes => some bytes
  | _ => none

def allowed : Phase → Request → Prop
  | _, .api (.get .secret _) => True
  | _, .api (.get .configMap _) => True
  | _, .api (.update .configMap _ _) => True
  | .read name secret, .api (.update .secret name' object) =>
      name' = name ∧ object.metadata = secret.metadata ∧
      ∃ id, object.body.data = secret.body.data.erase id
  | .ready name secret suffix bytes, .api (.update .secret name' object) => name' = name ∧
      object.metadata = secret.metadata ∧
      ∃ idPrefix, object.body.data = secret.body.data.insert (idPrefix ++ hexEncode suffix)
        (apiKeyText bytes)
  | .read _ _, .rand n _ => n = 8
  | .drew _ _ _, .rand n _ => n = 24
  | _, .now => True
  | _, _ => False

def next : Phase → (q : Request) → Answer q → Phase
  | _, .api (.get .secret name), .ok secret => .read name secret
  | φ, .api (.get .configMap _), _ => φ
  | .read name secret, .rand _ _, .ok suffix => .drew name secret suffix.val
  | .drew name secret suffix, .rand _ _, .ok bytes => .ready name secret suffix bytes.val
  | φ, .now, _ => φ
  | _, _, _ => .quiet

def protocol : Protocol Request Answer Phase where
  allowed := allowed
  next := next

section Follows

variable {m : Manager} {modelName : GoString}

/-- An attempt to create a key asks what the protocol lets it ask, from any phase. -/
theorem follows_createKeyOnce (creator : Creator) (description : GoString) (φ : Phase) :
    protocol.Follows φ (m.createKeyOnce modelName creator description).run (fun _ _ => True) := by
  refine ⟨trivial, ?_⟩
  rintro (e | secret)
  · trivial
  refine ⟨trivial, ?_⟩
  rintro (e | cm)
  · trivial
  refine ⟨rfl, ?_⟩
  rintro (e | suffix)
  · trivial
  refine ⟨rfl, ?_⟩
  rintro (e | bytes)
  · trivial
  refine ⟨⟨rfl, rfl, m.clientIDPrefix modelName creator, rfl⟩, ?_⟩
  rintro (e | stored)
  · trivial
  refine ⟨trivial, fun createdAt => ⟨trivial, ?_⟩⟩
  rintro (e | stored')
  · trivial
  trivial

/-- So does an attempt to revoke one. -/
theorem follows_revokeKeyOnce (clientID : GoString) (φ : Phase) :
    protocol.Follows φ (Manager.revokeKeyOnce modelName clientID).run (fun _ _ => True) := by
  refine ⟨trivial, ?_⟩
  rintro (e | secret)
  · trivial
  refine ⟨trivial, ?_⟩
  rintro (e | cm)
  · trivial
  change protocol.Follows (.read (secretName modelName) secret)
    (if clientID ∈ secret.body.data then Manager.removeKey modelName clientID secret cm
      else throw _ : Call Unit).run _
  split_ifs
  · refine ⟨⟨rfl, rfl, clientID, rfl⟩, ?_⟩
    rintro (e | stored)
    · trivial
    refine ⟨trivial, fun now => ⟨trivial, ?_⟩⟩
    rintro (e | stored')
    · trivial
    trivial
  · trivial

end Follows

end secrets.fleet
