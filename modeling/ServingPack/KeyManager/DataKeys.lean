import ServingPack.KeyManager.ClientID

open golang

namespace secrets

/-- What the API server accepts as a key of a Secret's or a ConfigMap's data: letters,
digits and `-`, `_` and `.`, at least one of them and at most 253. -/
structure IsDataKey (key : GoString) : Prop where
  nonempty : key ≠ []
  bytes : ∀ c ∈ key, c ∈ lit "-._abcdefghijklmnopqrstuvwxyzABCDEFGHIJKLMNOPQRSTUVWXYZ0123456789"
  length : key.length ≤ 253

/-- How long a name is once it is part of a data key: every `@` of a name that is not
one already becomes four bytes, and a dash and a hash of 32 digits are appended. -/
def sanitizedLength (name : GoString) : Nat :=
  if name.all isValidDataKeyByte then name.length else name.length + 3 * name.count 64 + 33

section Bytes

private theorem mem_of_isValidDataKeyByte {c : UInt8} (h : isValidDataKeyByte c = true) :
    c ∈ lit "-._abcdefghijklmnopqrstuvwxyzABCDEFGHIJKLMNOPQRSTUVWXYZ0123456789" := by
  have hall : ∀ n : Fin 256, isValidDataKeyByte (UInt8.ofNat n.val) = true →
      UInt8.ofNat n.val ∈ lit
        "-._abcdefghijklmnopqrstuvwxyzABCDEFGHIJKLMNOPQRSTUVWXYZ0123456789" := by decide +kernel
  have hc := hall ⟨c.toNat, c.toNat_lt⟩
  rw [UInt8.ofNat_toNat] at hc
  exact hc h

private theorem hexDigit_valid {n : Nat} (h : n < 16) : isValidDataKeyByte (hexDigit n) = true := by
  have hall : ∀ n : Fin 16, isValidDataKeyByte (hexDigit n.val) = true := by decide
  exact hall ⟨n, h⟩

private theorem hexEncode_valid (bytes : List UInt8) :
    ∀ c ∈ hexEncode bytes, isValidDataKeyByte c = true := by
  induction bytes with
  | nil => exact fun c hc => absurd hc List.not_mem_nil
  | cons b rest ih =>
    have hb := b.toNat_lt
    intro c hc
    rw [hexEncode, List.mem_cons, List.mem_cons] at hc
    rcases hc with rfl | rfl | hc
    · exact hexDigit_valid (by omega)
    · exact hexDigit_valid (by omega)
    · exact ih c hc

private theorem valid_of_all {s : GoString} (h : s.all isValidDataKeyByte = true) {c : UInt8}
    (hc : c ∈ s) :
    isValidDataKeyByte c = true := List.all_eq_true.mp h c hc

end Bytes

section Sanitizing

variable {sha256 : GoString → List UInt8}

private theorem sanitize_valid (sha256 : GoString → List UInt8) (name : GoString) :
    ∀ c ∈ sanitizeUsernameForKey sha256 name, isValidDataKeyByte c = true := by
  intro c hc
  rw [sanitizeUsernameForKey] at hc
  split_ifs at hc with hempty hvalid
  · exact absurd hc List.not_mem_nil
  · rw [isValidDataKeyName, Bool.and_eq_true, List.all_eq_true] at hvalid
    exact hvalid.2 c hc
  · rw [List.mem_append, List.mem_append, List.mem_flatMap] at hc
    rcases hc with (⟨b, _, hb⟩ | hdash) | hhash
    · split_ifs at hb with hat hbyte
      · exact valid_of_all (by decide) hb
      · rw [List.mem_singleton.mp hb]
        exact hbyte
      · exact valid_of_all (by decide) hb
    · exact valid_of_all (by decide) hdash
    · exact hexEncode_valid _ c hhash

private theorem flatMap_length (name : GoString) :
    (name.flatMap (fun c => if c = 64 then lit "-at-" else if isValidDataKeyByte c then [c]
      else lit "-")).length =
      name.length + 3 * name.count 64 := by
  have hat : (lit "-at-").length = 4 := by decide
  have hdash : (lit "-").length = 1 := by decide
  induction name with
  | nil => rfl
  | cons c rest ih =>
    rw [List.flatMap_cons, List.length_append, ih, List.length_cons, List.count_cons]
    split_ifs with h h' h'' <;> simp_all <;> omega

private theorem sanitize_length (hlength : ∀ text, (sha256 text).length = 32) (name : GoString) :
    (sanitizeUsernameForKey sha256 name).length = sanitizedLength name := by
  have hdash : (lit "-").length = 1 := by decide
  rw [sanitizeUsernameForKey, sanitizedLength]
  by_cases hempty : name = []
  · simp [hempty]
  · have hname : isValidDataKeyName name = name.all isValidDataKeyByte := by
      rw [isValidDataKeyName, List.isEmpty_eq_false_iff.mpr hempty]
      rfl
    rw [if_neg hempty, hname]
    split_ifs
    · rfl
    · rw [List.length_append, List.length_append, flatMap_length, hdash, shortHash_length hlength]

end Sanitizing

namespace Manager

variable {m : Manager} {modelName : GoString} {creator : Creator} {suffix : List UInt8}

private theorem clientID_length (hlength : ∀ text, (m.sha256 text).length = 32)
    (hsuffix : suffix.length = 8) :
    (m.clientID modelName creator suffix).length =
    sanitizedLength creator.username + sanitizedLength modelName + 56 := by
  have huser : (lit "user-").length = 5 := by decide
  have hdash : (lit "-").length = 1 := by decide
  simp only [clientID, clientIDPrefix, userPrefix, List.length_append, huser, hdash,
    sanitize_length hlength, shortHash_length hlength, hexEncode_length, hsuffix]
  omega

private theorem clientID_valid (m : Manager) (modelName : GoString) (creator : Creator)
    (suffix : List UInt8) :
    ∀ c ∈ m.clientID modelName creator suffix, isValidDataKeyByte c = true := by
  have huser : ∀ c ∈ lit "user-", isValidDataKeyByte c = true := fun _ => valid_of_all (by decide)
  have hdash : ∀ c ∈ lit "-", isValidDataKeyByte c = true := fun _ => valid_of_all (by decide)
  intro c hc
  simp only [clientID, clientIDPrefix, userPrefix, List.mem_append] at hc
  rcases hc with ((((((hc | hc) | hc) | hc) | hc) | hc) | hc) | hc
  · exact huser c hc
  · exact sanitize_valid _ _ c hc
  · exact hdash c hc
  · exact sanitize_valid _ _ c hc
  · exact hdash c hc
  · exact hexEncode_valid _ c hc
  · exact hdash c hc
  · exact hexEncode_valid _ c hc

/-- The client ID of any user and model is a data key exactly where their names leave
room for the hash and the random part. -/
theorem clientID_isDataKey_iff (m : Manager) (modelName : GoString) (creator : Creator)
    (suffix : List UInt8)
    (hlength : ∀ text, (m.sha256 text).length = 32) (hsuffix : suffix.length = 8) :
    IsDataKey (m.clientID modelName creator suffix) ↔
    sanitizedLength creator.username + sanitizedLength modelName ≤ 197 := by
  have hid := @clientID_length m modelName creator suffix hlength hsuffix
  constructor
  · intro h
    have hle := h.length
    omega
  · intro h
    refine ⟨fun hnil => ?_,
      fun c hc => mem_of_isValidDataKeyByte (clientID_valid m modelName creator suffix c hc), by
      omega⟩
    rw [hnil] at hid
    simp at hid

/-- A client ID whose model's name and user fill their parts to the bound, with the digests
SHA-256 has for them. -/
theorem boundary_isDataKey :
    IsDataKey (boundaryManager.clientID "jane-chat" ⟨"mary@example.com", [], []⟩ [1, 2, 3, 4, 5, 6,
      7, 8]) :=
  (clientID_isDataKey_iff boundaryManager "jane-chat" ⟨"mary@example.com", [], []⟩ [1, 2, 3, 4, 5,
    6, 7, 8]
    boundaryDigest_length rfl).mpr (by decide)

/-- A user name of two hundred letters makes a client ID that is too long for a data key. -/
theorem longUsername_isNoDataKey :
    ¬∀ (m : Manager) (modelName : GoString) (creator : Creator) (suffix : List UInt8),
    (∀ text, (m.sha256 text).length = 32) → creator.username ≠ [] → suffix.length = 8 →
      IsDataKey (m.clientID modelName creator suffix) := by
  intro h
  have hkey := h boundaryManager "chat" ⟨List.replicate 200 97, [], []⟩
    [1, 2, 3, 4, 5, 6, 7, 8] boundaryDigest_length
    (by decide) rfl
  have hlong := hkey.length
  rw [clientID_length boundaryDigest_length rfl] at hlong
  exact absurd hlong (by decide +kernel)

end Manager

end secrets
