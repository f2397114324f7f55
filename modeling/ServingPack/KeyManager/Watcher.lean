import ServingPack.Operator.Reconcilers.Common

open golang apiserver v1alpha1

namespace models

/-- A model of either kind, as far as the key manager looks at it. -/
structure ModelInfo where
  name : GoString
  «namespace» : GoString
  modelName : GoString
  «public» : Bool
  groups : List GoString
  passthrough : Bool := false
  provider : GoString := []
  deriving DecidableEq

/-- A listed object. -/
structure Item (B : Type) extends Named B where
  «namespace» : GoString

section Sync

def llmModelKey (m : Item LLMModel) : GoString :=
  ("llmmodel/" : GoString) ++ m.namespace ++ ("/" : GoString) ++ m.name

def passthroughModelKey (pm : Item PassthroughModel) : GoString :=
  ("passthroughmodel/" : GoString) ++ pm.namespace ++ ("/" : GoString) ++ pm.name

def llmModelInfo (m : Item LLMModel) : ModelInfo where
  name := m.name
  «namespace» := m.namespace
  modelName := m.body.spec.model.name
  «public» := m.body.spec.access.public.getD false
  groups := m.body.spec.access.groups

/-- The provider's address as published, or else the one in the spec. -/
def providerHostname (pm : PassthroughModel) : GoString :=
  if pm.status.providerHostname = [] then pm.spec.provider.hostname else pm.status.providerHostname

def passthroughModelInfo (pm : Item PassthroughModel) : ModelInfo where
  name := pm.name
  «namespace» := pm.namespace
  modelName := providerHostname pm.body
  «public» := pm.body.spec.access.public.getD false
  groups := pm.body.spec.access.groups
  passthrough := true
  provider := providerHostname pm.body

/-- `Sync`: the cache for the listed models. -/
def sync (list : List (Item LLMModel)) (ptList : List (Item PassthroughModel)) : GoMap ModelInfo :=
  GoMap.ofList (list.map (fun m => (llmModelKey m, llmModelInfo m)) ++
    ptList.map (fun pm => (passthroughModelKey pm, passthroughModelInfo pm)))

end Sync

/-- All cached models. Go leaves their order open. -/
def listModels (models : GoMap ModelInfo) : List ModelInfo :=
  models.sortedKeys.filterMap models.lookup

/-- Public, or for one of the user's groups. -/
def accessible (groups : List GoString) (m : ModelInfo) : Bool :=
  m.public || m.groups.any (· ∈ groups)

def filterModelsForUser (models : GoMap ModelInfo) (groups : List GoString) : List ModelInfo :=
  (listModels models).filter (accessible groups)

private theorem mem_listModels {models : GoMap ModelInfo} {m : ModelInfo} :
    m ∈ listModels models ↔ ∃ key, models.lookup key = some m := by
  rw [listModels, List.mem_filterMap]
  refine exists_congr (fun key => and_iff_right_of_imp (fun h => ?_))
  exact GoMap.mem_sortedKeys.mpr (Finmap.mem_of_lookup_eq_some h)

/-- A user sees the public models and those of a group of theirs. -/
theorem mem_filterModelsForUser {models : GoMap ModelInfo} {groups : List GoString}
    {m : ModelInfo} :
    m ∈ filterModelsForUser models groups ↔
      m ∈ listModels models ∧ (m.public = true ∨ ∃ g ∈ m.groups, g ∈ groups) := by
  simp [filterModelsForUser, accessible]

section Fleet

/-- Listed models whose names are unique across both kinds; a Kubernetes name holds no slash. -/
structure Fleet where
  list : List (Item LLMModel)
  ptList : List (Item PassthroughModel)
  distinct : (list.map (·.name) ++ ptList.map (·.name)).Nodup
  valid : ∀ name ∈ list.map (·.name) ++ ptList.map (·.name), 47 ∉ name

def Fleet.cache (fleet : Fleet) : GoMap ModelInfo := sync fleet.list fleet.ptList

variable {fleet : Fleet}

private theorem keyName_inj {kind kind' «namespace» namespace' name name' : GoString}
    (hname : 47 ∉ name) (hname' : 47 ∉ name')
    (h : kind ++ «namespace» ++ ("/" : GoString) ++ name = kind' ++ namespace' ++
      ("/" : GoString) ++ name') :
    name = name' := by
  rw [List.append_assoc, List.append_assoc (kind' ++ namespace')] at h
  exact (append_sep_inj hname hname' h).2

private theorem Fleet.keys_nodup (fleet : Fleet) :
    ((fleet.list.map (fun m => (llmModelKey m, llmModelInfo m)) ++
    fleet.ptList.map (fun pm => (passthroughModelKey pm, passthroughModelInfo pm))).map
      Prod.fst).Nodup := by
  have hvalid (name : GoString) (h : name ∈ fleet.list.map (·.name) ++ fleet.ptList.map (·.name)) :=
    fleet.valid name h
  have hdistinct := fleet.distinct
  simp only [List.mem_append, List.mem_map] at hvalid
  simp only [List.map_append, List.map_map, Function.comp_def]
  rw [List.nodup_append] at hdistinct ⊢
  obtain ⟨hllm, hpassthrough, hcross⟩ := hdistinct
  refine ⟨?_, ?_, ?_⟩
  · refine List.Nodup.map_on (fun m hm m' hm' heq => ?_) hllm.of_map
    exact List.inj_on_of_nodup_map hllm hm hm'
      (keyName_inj (hvalid _ (.inl ⟨m, hm, rfl⟩)) (hvalid _ (.inl ⟨m', hm', rfl⟩)) heq)
  · refine List.Nodup.map_on (fun pm hpm pm' hpm' heq => ?_) hpassthrough.of_map
    exact List.inj_on_of_nodup_map hpassthrough hpm hpm'
      (keyName_inj (hvalid _ (.inr ⟨pm, hpm, rfl⟩)) (hvalid _ (.inr ⟨pm', hpm', rfl⟩)) heq)
  · intro key hkey key' hkey' heq
    obtain ⟨m, hm, rfl⟩ := List.mem_map.mp hkey
    obtain ⟨pm, hpm, rfl⟩ := List.mem_map.mp hkey'
    exact hcross _ (List.mem_map_of_mem hm) _ (List.mem_map_of_mem hpm)
      (keyName_inj (hvalid _ (.inl ⟨m, hm, rfl⟩)) (hvalid _ (.inr ⟨pm, hpm, rfl⟩)) heq)

/-- The cache holds every listed model. -/
theorem Fleet.mem_cache {info : ModelInfo} : info ∈ listModels fleet.cache ↔
    (∃ m ∈ fleet.list, llmModelInfo m = info) ∨
    ∃ pm ∈ fleet.ptList, passthroughModelInfo pm = info := by
  simp only [mem_listModels, Fleet.cache, sync, GoMap.lookup_ofList fleet.keys_nodup,
    List.mem_append, List.mem_map, Prod.mk.injEq]
  constructor
  · rintro ⟨key, ⟨m, hm, _, hinfo⟩ | ⟨pm, hpm, _, hinfo⟩⟩
    · exact .inl ⟨m, hm, hinfo⟩
    · exact .inr ⟨pm, hpm, hinfo⟩
  · rintro (⟨m, hm, hinfo⟩ | ⟨pm, hpm, hinfo⟩)
    · exact ⟨_, .inl ⟨m, hm, rfl, hinfo⟩⟩
    · exact ⟨_, .inr ⟨pm, hpm, rfl, hinfo⟩⟩

/-- No two cached models share a name. -/
theorem Fleet.cache_unique {info other : ModelInfo} (hinfo : info ∈ listModels fleet.cache)
    (hother : other ∈ listModels fleet.cache) (hname : other.name = info.name) : other = info := by
  have hdistinct := fleet.distinct
  rw [List.nodup_append] at hdistinct
  obtain ⟨hllm, hpassthrough, hcross⟩ := hdistinct
  rw [Fleet.mem_cache] at hinfo hother
  rcases hinfo with ⟨m, hm, rfl⟩ | ⟨pm, hpm, rfl⟩ <;> rcases hother
    with ⟨m', hm', rfl⟩ | ⟨pm', hpm', rfl⟩
  · rw [List.inj_on_of_nodup_map hllm hm' hm hname]
  · exact absurd hname.symm (hcross _ (List.mem_map_of_mem hm) _ (List.mem_map_of_mem hpm'))
  · exact absurd hname (hcross _ (List.mem_map_of_mem hm') _ (List.mem_map_of_mem hpm))
  · rw [List.inj_on_of_nodup_map hpassthrough hpm' hpm hname]

end Fleet

end models
