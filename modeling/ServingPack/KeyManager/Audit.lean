import ServingPack.KeyManager.Listing
import ServingPack.KeyManager.Watcher

open golang apiserver concurrency models secrets

namespace audit

/-- What the auditor calls. -/
inductive Request where
  | listKeys (modelName : GoString)
  | lookup (username : GoString)
  | revokeKey (modelName clientID : GoString)

abbrev Answer : Request → Type
  | .listKeys _ => Except StatusError (List KeyInfo)
  | .lookup _ => Except StatusError (List GoString)
  | .revokeKey _ _ => Except StatusError Unit

/-- Whether one of the user's groups is a group of the model. -/
def hasOverlap (userGroups modelGroups : List GoString) : Bool := userGroups.any (· ∈ modelGroups)

/-- `errors.Join`. -/
def joinErrors (errs : List StatusError) : Except StatusError Unit :=
  if errs = [] then .ok () else .error ⟨.other, List.intercalate [10] (errs.map (·.message))⟩

section RunOnce

/-- One key: where its creator's groups are known and none is the model's, it is revoked. -/
def auditKey (model : ModelInfo) (key : KeyInfo) : Program Request Answer (List StatusError) :=
  .call (.lookup key.creator) (fun
    | .error _ => .pure []
    | .ok userGroups =>
      if hasOverlap userGroups model.groups then .pure []
      else .call (.revokeKey model.name key.clientID) (fun
        | .ok _ => .pure []
        | .error e => .pure [e.wrap (("revoking key " : GoString) ++ key.clientID ++
            (" for model " : GoString) ++ model.name)]))

/-- The keys of one model. Public models are not audited. -/
def auditModel (model : ModelInfo) : Program Request Answer (List StatusError) :=
  if model.public then .pure []
  else .call (.listKeys model.name) (fun
    | .error e => .pure [e.wrap (("listing keys for model " : GoString) ++ model.name)]
    | .ok keys => Program.forEach (auditKey model) keys)

/-- One pass over the models `ListModels` returned. -/
def runOnce (allModels : List ModelInfo) : Program Request Answer (Except StatusError Unit) :=
  (Program.forEach auditModel allModels).bind (fun errs => .pure (joinErrors errs))

end RunOnce

/-- The key manager's answers: a listing holds the live keys of a ConfigMap, in
some order. Any call can fail, and a lookup says what it says. -/
def Permitted : (q : Request) → Answer q → Prop
  | .listKeys _, .ok keys => ∃ cm, keys.Perm (liveKeys (parseConfigMapKeys cm))
  | _, _ => True

/-- A pass's calls in turn. -/
abbrev Calls := List (Σ q : Request, Answer q)

variable {cache : GoMap ModelInfo} {model : ModelInfo} {key : KeyInfo} {calls : Calls}

/-- What a pass does about one live key of a model: it revokes it if and only if
its creator's groups are known and the model is not among those for them. -/
inductive KeyAudited (cache : GoMap ModelInfo) (model : ModelInfo) (key : KeyInfo) :
    Calls → Prop where
  | unknown (e : StatusError) : KeyAudited cache model key [⟨.lookup key.creator, .error e⟩]
  | kept (groups : List GoString) (h : model ∈ filterModelsForUser cache groups) :
      KeyAudited cache model key [⟨.lookup key.creator, .ok groups⟩]
  | revoked (groups : List GoString) (h : model ∉ filterModelsForUser cache groups)
    (answer : Except StatusError Unit) :
      KeyAudited cache model key [⟨.lookup key.creator, .ok groups⟩,
        ⟨.revokeKey model.name key.clientID, answer⟩]

/-- What a pass does about one model. -/
inductive ModelAudited (cache : GoMap ModelInfo) (model : ModelInfo) : Calls → Prop where
  | isPublic (h : model.public = true) : ModelAudited cache model []
  | unlisted (h : model.public = false) (e : StatusError) :
    ModelAudited cache model [⟨.listKeys model.name, .error e⟩]
  | listed (h : model.public = false) {keys : List KeyInfo} (hlive : ∀ key ∈ keys,
    key.revokedAt = none)
      {parts : List Calls} (hparts : List.Forall₂ (KeyAudited cache model) keys parts) :
      ModelAudited cache model (⟨.listKeys model.name, .ok keys⟩ :: parts.flatten)

private theorem hasOverlap_iff (hmem : model ∈ listModels cache) (hprivate : model.public = false)
    (groups : List GoString) :
    hasOverlap groups model.groups = true ↔ model ∈ filterModelsForUser cache groups := by
  rw [mem_filterModelsForUser, and_iff_right hmem, hprivate]
  simp only [hasOverlap, List.any_eq_true, decide_eq_true_eq, Bool.false_eq_true, false_or]
  exact exists_congr (fun g => and_comm)

private theorem keyAudited_of_runs {errs : List StatusError} (hmem : model ∈ listModels cache)
    (hprivate : model.public = false) (h : Program.Runs Permitted (auditKey model key) calls errs) :
    KeyAudited cache model key calls := by
  obtain ⟨answer, rest, _, hrest, rfl⟩ := h.call_inv
  cases answer with
  | error e =>
    obtain ⟨rfl, _⟩ := hrest.pure_inv
    exact .unknown e
  | ok groups =>
    have hoverlap := hasOverlap_iff hmem hprivate groups
    cases hheld : hasOverlap groups model.groups with
    | true =>
      simp only [hheld, if_true] at hrest
      obtain ⟨rfl, _⟩ := hrest.pure_inv
      exact .kept groups (hoverlap.mp hheld)
    | false =>
      simp only [hheld, Bool.false_eq_true, if_false] at hrest
      obtain ⟨answer, tail, _, htail, rfl⟩ := hrest.call_inv
      have hnil : tail = [] := by
        cases answer with
        | ok _ => exact htail.pure_inv.1
        | error e => exact htail.pure_inv.1
      rw [hnil]
      exact .revoked groups (fun hin => by rw [hoverlap.mpr hin] at hheld; cases hheld) answer

private theorem modelAudited_of_runs {errs : List StatusError} (hmem : model ∈ listModels cache)
    (h : Program.Runs Permitted (auditModel model) calls errs) :
    ModelAudited cache model calls := by
  unfold auditModel at h
  cases hpublic : model.public with
  | true =>
    rw [hpublic, if_pos rfl] at h
    obtain ⟨rfl, _⟩ := h.pure_inv
    exact .isPublic hpublic
  | false =>
    rw [hpublic, if_neg Bool.false_ne_true] at h
    obtain ⟨answer, rest, hanswer, hrest, rfl⟩ := h.call_inv
    cases answer with
    | error e =>
      obtain ⟨rfl, _⟩ := hrest.pure_inv
      exact .unlisted hpublic e
    | ok keys =>
      obtain ⟨cm, hperm⟩ := hanswer
      obtain ⟨parts, hparts, rfl⟩ := hrest.forEach_inv
      refine .listed hpublic (fun key hkey => (mem_liveKeys.mp (hperm.mem_iff.mp hkey)).2) ?_
      exact hparts.imp (fun key part ⟨errs, hruns⟩ => keyAudited_of_runs hmem hpublic hruns)

/-- Whatever fails, a pass is made of one part for each listed model. -/
theorem audited_of_runs {allModels : List ModelInfo} {result : Except StatusError Unit}
    (hall : allModels.Perm (listModels cache))
    (h : Program.Runs Permitted (runOnce allModels) calls result) :
    ∃ parts, List.Forall₂ (ModelAudited cache) allModels parts ∧ calls = parts.flatten := by
  obtain ⟨first, second, errs, hfirst, hsecond, rfl⟩ := h.bind_inv
  obtain ⟨rfl, _⟩ := hsecond.pure_inv
  obtain ⟨parts, hparts, rfl⟩ := hfirst.forEach_inv
  refine ⟨parts, ?_, List.append_nil _⟩
  have hmem (model : ModelInfo) (h : model ∈ allModels) : model ∈ listModels cache :=
    hall.mem_iff.mp h
  clear hfirst hall h
  induction hparts with
  | nil => exact .nil
  | cons hpart _ ih =>
    obtain ⟨errs, hruns⟩ := hpart
    exact .cons (modelAudited_of_runs (hmem _ (List.mem_cons_self ..)) hruns)
      (ih (fun model h => hmem model (List.mem_cons_of_mem _ h)))

end audit
