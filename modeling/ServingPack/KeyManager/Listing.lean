import ServingPack.KeyManager.Manager

open golang apiserver concurrency kube

namespace secrets

def list (kind : Kind) (matching : GoMap GoString) : Call (List (GoString × Object (Body kind))) :=
  ExceptT.mk (.ask (Request.api (.list kind matching)))

/-- A ConfigMap's entries by data key, less those that are not valid. Go leaves
their order open. -/
def parseConfigMapEntries (cm : Object ConfigMapBody) : List (GoString × KeyInfo) :=
  cm.body.data.sortedKeys.filterMap (fun id =>
    ((cm.body.data.lookup id).bind Entry.unmarshal).map (fun info => (id, info)))

def parseConfigMapKeys (cm : Object ConfigMapBody) : List KeyInfo :=
  (parseConfigMapEntries cm).map Prod.snd

/-- The keys that have not been revoked. -/
def liveKeys (keys : List KeyInfo) : List KeyInfo := keys.filter (·.revokedAt.isNone)

/-- Of the listed ConfigMaps those that hold key metadata. -/
def isMetadata (cm : GoString × Object ConfigMapBody) : Bool :=
  (cm.2.metadata.labels.lookup ("llm.nebari.dev/model-name" : GoString)).isSome &&
    hasSuffix cm.1 "-api-key-metadata"

namespace Manager

def listKeys (modelName : GoString) : Call (List KeyInfo) := do
  let cm ← getConfigMap modelName
  pure (liveKeys (parseConfigMapKeys cm))

/-- The keys of all models, and the owners of keys revoked lately. -/
def listAllKeysIncludingRevoked : Call (List KeyInfo) := do
  let allCMs ← Fallible.mapError (wrapped "listing ConfigMaps") (list .configMap ∅)
  pure ((allCMs.filter isMetadata).flatMap (fun cm => parseConfigMapKeys cm.2))

def listAllKeys : Call (List KeyInfo) := do
  let all ← listAllKeysIncludingRevoked
  pure (liveKeys all)

/-- The keys a user has minted, across all models. -/
def listKeysForUser (username : GoString) : Call (List KeyInfo) := do
  let all ← listAllKeys
  pure (all.filter (·.creator = username))

end Manager

section Entries

variable {cm : Object ConfigMapBody} {info : KeyInfo}

private theorem mem_parseConfigMapEntries {id : GoString} :
    (id, info) ∈ parseConfigMapEntries cm ↔ cm.body.data.lookup id = some (.keyInfo info) := by
  simp only [parseConfigMapEntries, List.mem_filterMap, Option.map_eq_some_iff,
    Option.bind_eq_some_iff, Prod.mk.injEq]
  constructor
  · rintro ⟨_, _, _, ⟨entry, hentry, hinfo⟩, rfl, rfl⟩
    cases entry with
    | keyInfo found => rw [hentry, Option.some.inj hinfo]
    | text s => cases hinfo
  · intro h
    exact ⟨id, GoMap.mem_sortedKeys.mpr (Finmap.mem_of_lookup_eq_some h), info, ⟨_, h, rfl⟩, rfl,
      rfl⟩

/-- The keys of a ConfigMap are its entries that read as key metadata; the rest is passed over.
-/
theorem mem_parseConfigMapKeys :
    info ∈ parseConfigMapKeys cm ↔ ∃ id, cm.body.data.lookup id = some (.keyInfo info) := by
  simp only [parseConfigMapKeys, List.mem_map, ← mem_parseConfigMapEntries]
  constructor
  · rintro ⟨⟨id, _⟩, hmem, rfl⟩
    exact ⟨id, hmem⟩
  · rintro ⟨id, hmem⟩
    exact ⟨(id, info), hmem, rfl⟩

/-- A key is live unless its metadata has a time of revocation. -/
theorem mem_liveKeys {keys : List KeyInfo} :
    info ∈ liveKeys keys ↔ info ∈ keys ∧ info.revokedAt = none := by
  simp [liveKeys]

end Entries

end secrets
