import Mathlib.Data.Set.Function
import ServingPack.KeyManager.Manager

open golang

namespace secrets

section Hash

variable {sha256 : GoString → List UInt8} {fed : Set GoString}

/-- The short hash is a digest's prefix in hex, so it has a fixed length. -/
@[simp] theorem shortHash_length (hlength : ∀ text, (sha256 text).length = 32)
    (parts : List GoString) :
    (shortHash sha256 parts).length = 32 := by
  rw [shortHash, hexEncode_length, List.length_take, hlength]
  rfl

/-- Where the truncated digest does not collide, a hash tells what it was fed. -/
theorem shortHash_inj (hinj : Set.InjOn (fun text => (sha256 text).take 16) fed)
    {parts parts' : List GoString}
    (hfed : List.intercalate [0] parts ∈ fed) (hfed' : List.intercalate [0] parts' ∈ fed)
    (h : shortHash sha256 parts = shortHash sha256 parts') :
    List.intercalate [0] parts = List.intercalate [0] parts' :=
  hinj hfed hfed' (hexEncode_injective h)

/-- A name without a NUL byte is found behind the last one. -/
theorem join_inj {username username' modelName modelName' : GoString} (hname : 0 ∉ modelName)
    (hname' : 0 ∉ modelName') (h : List.intercalate [0] [username, modelName] =
      List.intercalate [0] [username', modelName']) :
    username = username' ∧ modelName = modelName' := by
  have hjoin : ∀ left right : GoString, List.intercalate [0] [left, right] = left ++
      0 :: right := by
    intro left right
    simp [List.intercalate]
  rw [hjoin, hjoin] at h
  exact append_sep_inj hname hname' h

end Hash

namespace Manager

variable {m : Manager} {modelName modelName' : GoString} {creator creator' : Creator}
  {suffix suffix' : List UInt8}

/-- A client ID, from its end: sixteen random digits, a dash, the hash of the
user and the model, a dash. -/
theorem clientID_fields (m : Manager) (modelName : GoString) (creator : Creator)
    (suffix : List UInt8) :
    ∃ readable : GoString, m.clientID modelName creator suffix =
      readable ++ (shortHash m.sha256 [creator.username, modelName] ++ 45 :: hexEncode suffix) := by
  refine ⟨("user-" : GoString) ++ sanitizeUsernameForKey m.sha256 creator.username ++
    ("-" : GoString) ++
    sanitizeUsernameForKey m.sha256 modelName ++ ("-" : GoString), ?_⟩
  simp only [clientID, clientIDPrefix, userPrefix, List.append_assoc]
  rfl

/-- Equal client IDs have equal hashes and random parts. -/
theorem clientID_parts (hlength : ∀ text, (m.sha256 text).length = 32) (hsuffix : suffix.length = 8)
    (hsuffix' : suffix'.length = 8)
    (h : m.clientID modelName creator suffix = m.clientID modelName' creator' suffix') :
    shortHash m.sha256 [creator.username, modelName] =
      shortHash m.sha256 [creator'.username, modelName'] ∧
      suffix = suffix' := by
  obtain ⟨readable, hid⟩ := clientID_fields m modelName creator suffix
  obtain ⟨readable', hid'⟩ := clientID_fields m modelName' creator' suffix'
  rw [hid, hid'] at h
  have htail := (List.append_inj' h (by simp [hlength, hsuffix, hsuffix'])).2
  obtain ⟨hhash, hrandom⟩ := List.append_inj htail (by simp [hlength])
  exact ⟨hhash, hexEncode_injective (List.cons.inj hrandom).2⟩

/-- On one model, equal client IDs are of one user. -/
theorem username_of_clientID {fed : Set GoString} (hlength : ∀ text, (m.sha256 text).length = 32)
    (hinj : Set.InjOn (fun text => (m.sha256 text).take 16) fed)
    (hfed : List.intercalate [0] [creator.username, modelName] ∈ fed)
    (hfed' : List.intercalate [0] [creator'.username, modelName] ∈ fed)
    (hsuffix : suffix.length = 8) (hsuffix' : suffix'.length = 8)
    (h : m.clientID modelName creator suffix = m.clientID modelName creator' suffix') :
    creator.username = creator'.username := by
  have hjoin := shortHash_inj hinj hfed hfed' (clientID_parts hlength hsuffix hsuffix' h).1
  simp only [List.intercalate, List.intersperse, List.flatten_cons] at hjoin
  exact List.append_cancel_right hjoin

/-- Two client IDs are equal only if they were composed for one user and model and
from one random part: the readable parts can be ambiguous, the hash of both
names is not. -/
theorem clientID_eq_iff (m : Manager) {fed : Set GoString}
    (hlength : ∀ text, (m.sha256 text).length = 32)
    (hinj : Set.InjOn (fun text => (m.sha256 text).take 16) fed)
    (hfed : List.intercalate [0] [creator.username, modelName] ∈ fed)
    (hfed' : List.intercalate [0] [creator'.username, modelName'] ∈ fed)
    (hname : 0 ∉ modelName) (hname' : 0 ∉ modelName') (hsuffix : suffix.length = 8)
    (hsuffix' : suffix'.length = 8) :
    m.clientID modelName creator suffix = m.clientID modelName' creator' suffix' ↔
      creator.username = creator'.username ∧ modelName = modelName' ∧ suffix = suffix' := by
  constructor
  · intro h
    obtain ⟨hhash, hrandom⟩ := clientID_parts hlength hsuffix hsuffix' h
    obtain ⟨husername, hmodel⟩ := join_inj hname hname' (shortHash_inj hinj hfed hfed' hhash)
    exact ⟨husername, hmodel, hrandom⟩
  · rintro ⟨husername, rfl, rfl⟩
    rw [clientID, clientID, clientIDPrefix, clientIDPrefix, husername]

end Manager

/-- The digests of the texts that the names below are joined to, and of the one that is hashed
by itself. -/
def boundaryDigest (text : GoString) : List UInt8 :=
  if text = "mary\x00jane-chat" then
    [19, 193, 108, 8, 161, 10, 237, 171, 90, 237, 246, 76, 107, 51, 235, 101,
      42, 195, 205, 246, 87, 21, 51, 0, 101, 100, 131, 214, 166, 127, 166, 118]
  else if text = "mary-jane\x00chat" then
    [244, 109, 157, 108, 183, 125, 148, 51, 169, 210, 66, 51, 199, 139, 192, 95,
      30, 251, 142, 195, 251, 230, 17, 11, 50, 26, 82, 130, 148, 80, 160, 165]
  else if text = "mary@example.com" then
    [241, 144, 76, 241, 169, 215, 58, 85, 250, 93, 224, 172, 130, 60, 68, 3,
      222, 215, 26, 253, 76, 50, 72, 208, 11, 220, 208, 134, 101, 82, 187, 121]
  else if text = "mary@example.com\x00jane-chat" then
    [199, 219, 57, 20, 87, 42, 77, 97, 97, 32, 18, 169, 72, 182, 129, 16,
      121, 237, 120, 253, 51, 105, 207, 140, 68, 63, 166, 246, 10, 116, 177, 220]
  else if text = List.replicate 200 97 ++ lit "\x00chat" then
    [158, 141, 138, 232, 254, 116, 220, 228, 12, 99, 211, 207, 4, 198, 240, 53,
      146, 66, 160, 165, 87, 238, 125, 173, 157, 63, 69, 92, 134, 0, 42, 17]
  else List.replicate 32 0

def boundaryManager : Manager where
  «namespace» := "llm-serving"
  sha256 := boundaryDigest

/-- The digests given here are as long as SHA-256's. -/
theorem boundaryDigest_length (text : GoString) : (boundaryDigest text).length = 32 := by
  unfold boundaryDigest
  split_ifs <;> rfl

private theorem boundaryDigest_injOn :
    Set.InjOn (fun text => (boundaryDigest text).take 16) {lit "mary\x00jane-chat",
      lit "mary-jane\x00chat"} := by
  rintro _ (rfl | rfl) _ (rfl | rfl) heq
  · rfl
  · exact absurd heq (by decide)
  · exact absurd heq (by decide)
  · rfl

/-- The user "mary" on the model "jane-chat" and the user "mary-jane" on the model
"chat" read alike, and do not get the same client ID. -/
theorem boundary_unambiguous :
    boundaryManager.clientID "jane-chat" ⟨"mary", [], []⟩ [1, 2, 3, 4, 5, 6, 7, 8] ≠
      boundaryManager.clientID "chat" ⟨"mary-jane", [], []⟩ [1, 2, 3, 4, 5, 6, 7, 8] := by
  intro h
  have hsame := (boundaryManager.clientID_eq_iff boundaryDigest_length boundaryDigest_injOn
    (by decide) (by decide) (by decide) (by decide) rfl rfl).mp h
  exact absurd hsame.1 (by decide)

end secrets
