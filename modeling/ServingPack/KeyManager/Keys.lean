import ServingPack.Lib.GoString

open golang

namespace secrets

/-- Metadata about an API key, never the key value itself. Times are in seconds. -/
structure KeyInfo where
  clientID : GoString
  creator : GoString
  creatorSubject : GoString := []
  creatorGroups : List GoString := []
  description : GoString := []
  createdAt : Nat
  modelName : GoString
  «namespace» : GoString
  revokedAt : Option Nat := none
  deriving DecidableEq

/-- A text of the metadata ConfigMap: the JSON document of a `KeyInfo`, which
`encoding/json` reads back, or a text it does not accept as one. -/
inductive Entry where
  | keyInfo (info : KeyInfo)
  | text (s : GoString)
  deriving DecidableEq

/-- `json.Unmarshal` into a `KeyInfo`. -/
def Entry.unmarshal : Entry → Option KeyInfo
  | .keyInfo info => some info
  | .text _ => none

/-- 90 days. -/
def revokedKeyRetention : Nat := 90 * 24 * 3600

/-- The user minting a key. -/
structure Creator where
  username : GoString
  subject : GoString
  groups : List GoString

structure CreateKeyResult where
  clientID : GoString
  apiKey : GoString

def secretName (modelName : GoString) : GoString := modelName ++ ("-api-keys" : GoString)

def configMapName (modelName : GoString) : GoString := modelName ++ ("-api-key-metadata" : GoString)

/-- Whether a byte is allowed in a data key: a letter, a digit, or one of `-`, `.` and `_`. -/
def isValidDataKeyByte (c : UInt8) : Bool :=
  (97 ≤ c && c ≤ 122) || (65 ≤ c && c ≤ 90) || (48 ≤ c && c ≤ 57) || c == 45 || c == 46 || c == 95

def isValidDataKeyName (s : GoString) : Bool := !s.isEmpty && s.all isValidDataKeyByte

section Digest

-- the SHA-256 digest
variable (sha256 : GoString → List UInt8)

/-- The first 128 bits of the digest over the parts joined with a NUL byte, in hexadecimal. -/
def shortHash (parts : List GoString) : GoString :=
  hexEncode ((sha256 (List.intercalate [0] parts)).take 16)

/-- A username as part of a data key. A valid one stays as it is; of any other
the bytes are replaced and a hash of the raw name is appended. -/
def sanitizeUsernameForKey (username : GoString) : GoString :=
  if username = [] then []
  else if isValidDataKeyName username then username
  else
    username.flatMap (fun c =>
      if c = 64 then ("-at-" : GoString) else if isValidDataKeyByte c then [c]
        else ("-" : GoString)) ++
      ("-" : GoString) ++ shortHash sha256 [username]

/-- What every client ID of one user and model begins with. -/
def userPrefix (username modelName : GoString) : GoString :=
  ("user-" : GoString) ++ sanitizeUsernameForKey sha256 username ++ ("-" : GoString) ++
    sanitizeUsernameForKey sha256 modelName ++ ("-" : GoString) ++
    shortHash sha256 [username, modelName] ++ ("-" : GoString)

end Digest

/-- The text of an API key over its random bytes. -/
def apiKeyText (bytes : List UInt8) : GoString := ("sk-" : GoString) ++ base64RawURL bytes

/-- Different random bytes give different API keys. -/
theorem apiKeyText_injective {left right : List UInt8} (hleft : left.length = 24)
    (hright : right.length = 24) (h : apiKeyText left = apiKeyText right) : left = right :=
  base64RawURL_injective_of_length 8 left right hleft hright (List.append_cancel_left h)

end secrets
