import ServingPack.Kube.Objects
import ServingPack.Lib.Program

open golang apiserver concurrency kube

namespace secrets

/-- What the key manager asks of its environment. -/
inductive Request where
  | api (request : apiserver.Request Body)
  /-- `n` random bytes, drawn again until they are accepted. -/
  | rand (n : Nat) (accept : List UInt8 → Bool)
  /-- The time in whole seconds. -/
  | now

/-- The bytes a draw can end with. -/
abbrev Drawn (n : Nat) (accept : List UInt8 → Bool) : Type :=
  { bytes : List UInt8 // bytes.length = n ∧ accept bytes = true }

abbrev Answer : Request → Type
  | .api request => apiserver.Answer request
  | .rand n accept => Except StatusError (Drawn n accept)
  | .now => Nat

abbrev Call := Fallible Request Answer StatusError

structure Manager where
  «namespace» : GoString
  sha256 : GoString → List UInt8

def readRandom (n : Nat) (accept : List UInt8 → Bool) : Call (Drawn n accept) :=
  ExceptT.mk (.ask (Request.rand n accept))

def get (kind : Kind) (name : GoString) : Call (Object (Body kind)) :=
  ExceptT.mk (.ask (Request.api (.get kind name)))

def update (kind : Kind) (name : GoString) (object : Object (Body kind)) :
    Call (Object (Body kind)) :=
  ExceptT.mk (.ask (Request.api (.update kind name object)))

/-- The current time, truncated to the second. -/
def timeNow : Call Nat :=
  ExceptT.mk (Program.bind (.ask Request.now) (fun seconds => .pure (.ok seconds)))

/-- A plain error made by `fmt.Errorf`. -/
def errorf (text : GoString) : StatusError := ⟨.other, text⟩

def wrapped (text : GoString) (e : StatusError) : StatusError := e.wrap text

/-- `generateAPIKey`. -/
def generateAPIKey : Call GoString := do
  let bytes ← Fallible.mapError (wrapped "generating random bytes") (readRandom 24 (fun _ => true))
  pure (apiKeyText bytes.val)

def getSecret (modelName : GoString) : Call (Object SecretBody) :=
  Fallible.mapError (wrapped (("API key secret not found for model " : GoString) ++ modelName ++
    (" - has the operator created it?" : GoString))) (get .secret (secretName modelName))

def getConfigMap (modelName : GoString) : Call (Object ConfigMapBody) :=
  Fallible.mapError (wrapped (("API key metadata ConfigMap not found for model " : GoString) ++
    modelName ++
    (" - has the operator created it?" : GoString))) (get .configMap (configMapName modelName))

/-- Whether an error's text names a conflict. -/
def isConflict (e : StatusError) : Bool := contains e.message "conflict" || contains e.message "409"

/-- Another attempt after each conflict, as long as attempts are left. -/
def retry {α : Type} (tooMany : StatusError) (once : Call α) : Nat → Call α
  | 0 => throw tooMany
  | attempts + 1 => do
    match ← Fallible.attempt once with
    | .ok result => pure result
    | .error e => if isConflict e then retry tooMany once attempts else throw e

def maxRetries : Nat := 3

namespace Manager

variable (m : Manager)

def clientIDPrefix (modelName : GoString) (creator : Creator) : GoString :=
  userPrefix m.sha256 creator.username modelName

/-- The client ID over its random part. -/
def clientID (modelName : GoString) (creator : Creator) (suffix : List UInt8) : GoString :=
  m.clientIDPrefix modelName creator ++ hexEncode suffix

def updateSecret (modelName : GoString) (secret : Object SecretBody) : Call (Object SecretBody) :=
  Fallible.mapError (wrapped (("updating Secret for model " : GoString) ++ modelName))
    (update .secret (secretName modelName) secret)

def updateConfigMap (modelName : GoString) (cm : Object ConfigMapBody) :
    Call (Object ConfigMapBody) :=
  Fallible.mapError (wrapped (("updating ConfigMap for model " : GoString) ++ modelName))
    (update .configMap (configMapName modelName) cm)

def createKeyOnce (modelName : GoString) (creator : Creator) (description : GoString) :
    Call CreateKeyResult := do
  let secret ← getSecret modelName
  let cm ← getConfigMap modelName
  -- the loop draws suffixes until one names no live key
  let suffix ← Fallible.mapError (wrapped "generating client ID")
    (Fallible.mapError (wrapped "generating random bytes") (readRandom 8 (fun suffix =>
      let clientID := m.clientID modelName creator suffix
      clientID ∉ secret.body.data && clientID ∉ cm.body.data)))
  let clientID := m.clientID modelName creator suffix.val
  let apiKey ← Fallible.mapError (wrapped "generating API key") generateAPIKey
  let _ ← updateSecret modelName
    { secret with body.data := secret.body.data.insert clientID apiKey }
  let createdAt ← timeNow
  let info : KeyInfo := {
    clientID := clientID
    creator := creator.username
    creatorSubject := creator.subject
    creatorGroups := creator.groups
    description := description
    createdAt := createdAt
    modelName := modelName
    «namespace» := m.namespace }
  let _ ← updateConfigMap modelName
    { cm with body.data := cm.body.data.insert clientID (.keyInfo info) }
  pure { clientID := clientID, apiKey := apiKey }

def createKey (modelName : GoString) (creator : Creator) (description : GoString) :
    Call CreateKeyResult :=
  if creator.username = [] then throw (errorf "username is required")
  else retry (errorf (("creating key for model " : GoString) ++ modelName ++
    (": too many conflicts" : GoString)))
    (m.createKeyOnce modelName creator description) maxRetries

/-- Whether an entry was revoked longer ago than its owner is kept. -/
def expired (now : Nat) (entry : Entry) : Bool :=
  match entry.unmarshal.bind KeyInfo.revokedAt with
  | some revokedAt => revokedKeyRetention < (now : Int) - revokedAt
  | none => false

/-- The metadata without what keys revoked long ago left behind. -/
def dropExpired (now : Nat) (data : GoMap Entry) : GoMap Entry :=
  data.eraseAll (data.sortedKeys.filter (fun id => (data.lookup id).any (expired now)))

/-- What is dropped are the revoked entries past their retention, each by its own time. -/
theorem lookup_dropExpired (now : Nat) (data : GoMap Entry) (id : GoString) :
    (dropExpired now data).lookup id = if (data.lookup id).any
    (expired now) then none else data.lookup id := by
  rw [dropExpired, GoMap.lookup_eraseAll]
  by_cases h : (data.lookup id).any (expired now) = true
  · have hmem : id ∈ data.sortedKeys := by
      obtain ⟨entry, hentry, _⟩ := (Option.any_eq_true ..).mp h
      exact GoMap.mem_sortedKeys.mpr (Finmap.mem_of_lookup_eq_some hentry)
    rw [if_pos (List.mem_filter.mpr ⟨hmem, h⟩), if_pos h]
  · have hnot : id ∉ data.sortedKeys.filter (fun id => (data.lookup id).any (expired now)) :=
      fun hmem => h (List.mem_filter.mp hmem).2
    rw [if_neg hnot, if_neg h]

/-- What a revoked key leaves: who minted it. -/
def tombstone (clientID : GoString) (now : Nat) (keyInfo : KeyInfo) : KeyInfo where
  clientID := clientID
  creator := keyInfo.creator
  creatorSubject := keyInfo.creatorSubject
  creatorGroups := keyInfo.creatorGroups
  createdAt := keyInfo.createdAt
  modelName := keyInfo.modelName
  «namespace» := keyInfo.namespace
  revokedAt := some now

/-- The zero `KeyInfo`. -/
def zeroKeyInfo : KeyInfo where
  clientID := []
  creator := []
  createdAt := 0
  modelName := []
  «namespace» := []

/-- The writes of a revocation, once the key is known to exist. -/
def removeKey (modelName clientID : GoString) (secret : Object SecretBody)
    (cm : Object ConfigMapBody) :
    Call Unit := do
  -- a key without readable metadata is still revoked, its owner unknown
  let keyInfo := ((cm.body.data.lookup clientID).bind Entry.unmarshal).getD zeroKeyInfo
  let _ ← updateSecret modelName { secret with body.data := secret.body.data.erase clientID }
  let now ← timeNow
  let data := (dropExpired now cm.body.data).insert clientID
    (.keyInfo (tombstone clientID now keyInfo))
  let _ ← updateConfigMap modelName { cm with body.data := data }
  pure ()

def revokeKeyOnce (modelName clientID : GoString) : Call Unit := do
  let secret ← getSecret modelName
  let cm ← getConfigMap modelName
  if clientID ∈ secret.body.data then removeKey modelName clientID secret cm
  else throw (errorf (("key " : GoString) ++ quote clientID ++
    (" not found for model " : GoString) ++ modelName))

def revokeKey (modelName clientID : GoString) : Call Unit :=
  retry (errorf (("revoking key " : GoString) ++ clientID ++ (" for model " : GoString) ++
    modelName ++
    (": too many conflicts" : GoString))) (revokeKeyOnce modelName clientID) maxRetries

end Manager

end secrets
