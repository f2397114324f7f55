import ServingPack.Operator.Controller.ApiKeys
import ServingPack.Operator.Reconcilers.Passthrough

open golang apiserver concurrency kube v1alpha1 reconcilers controller

namespace webhook

/-- The validators of both kinds, for the models of one namespace. -/
structure Validator where
  /-- The namespace the models are in. -/
  «namespace» : GoString
  /-- The namespace the operator runs in. Empty disables the check. -/
  operatorNamespace : GoString
  sha256 : GoString → List UInt8
  resolve : ProviderSpec → Except StatusError provider.Resolved

def managedLabel : GoString := "nebari.dev/managed"

/-- The texts in which the two validators differ. -/
structure Texts where
  kind : GoString
  other : GoString
  otherArticle : GoString
  subject : GoString

def llmTexts : Texts := ⟨"LLMModel", "PassthroughModel", "a PassthroughModel", "a model"⟩

def passthroughTexts : Texts := ⟨"PassthroughModel", "LLMModel", "an LLMModel", "a passthrough"⟩

/-- A pure check as a step of a validation. -/
def check (verdict : Except StatusError Unit) : Call Unit := ExceptT.mk (.pure verdict)

namespace Validator

variable (v : Validator)

def validateOperatorNamespace (t : Texts) : Except StatusError Unit :=
  if v.operatorNamespace = [] then .ok ()
  else if v.namespace ≠ v.operatorNamespace then
    .error (errorf (t.kind ++ (" must be created in the operator's namespace " : GoString) ++
      quote v.operatorNamespace ++ (" (got " : GoString) ++ quote v.namespace ++
      ("); the API-key Secret needs to be co-located with its SecurityPolicy because Envoy Gateway's APIKeyAuth " : GoString) ++
      ("rejects cross-namespace credentialRefs" : GoString)))
  else .ok ()

/-- Whether a namespace carries nebari.dev/managed=true. -/
def managed (ns : Object (Body .namespace)) : Bool :=
  ns.metadata.labels.lookup managedLabel == some "true"

def checkManaged (t : Texts) (ns : Object (Body .namespace)) : Except StatusError Unit :=
  if managed ns then .ok ()
  else .error (errorf (("namespace " : GoString) ++ quote v.namespace ++
    (" does not have the required label nebari.dev/managed=true; " : GoString) ++ t.kind ++
    (" resources can only be created in namespaces managed by Nebari" : GoString)))

def validateNamespaceLabel (t : Texts) : Call Unit := do
  let ns ← Fallible.mapError
    (wrapped (("failed to get namespace " : GoString) ++ quote v.namespace))
    (get .namespace v.namespace)
  check (v.checkManaged t ns)

/-- Either public, or at least one group. -/
def validateAccess (t : Texts) (access : AccessSpec) : Except StatusError Unit :=
  if isPublicAccess access then .ok ()
  else if access.groups = [] then
    .error (errorf (("spec.access must declare either public=true or at least one group in groups; " : GoString) ++
      t.subject ++ (" with neither cannot be accessed by any user" : GoString)))
  else .ok ()

/-- What a look at the other kind says about a name. -/
def checkCollision {B : Type} (t : Texts) (name : GoString) :
    Except StatusError (Object B) → Except StatusError Unit
  | .ok _ => .error (errorf
    (("name " : GoString) ++ quote name ++ (" is already used by " : GoString) ++
      t.otherArticle ++ (" in namespace " : GoString) ++ quote v.namespace ++ ("; " : GoString) ++
        t.kind ++
      (" and " : GoString) ++ t.other ++
      (" names must be unique across both kinds because they share the api-keys Secret " :
        GoString) ++
      quote (apiKeySecretName name)))
  | .error e =>
    -- not found, or a kind that is not installed: nothing to collide with
    if e.reason = .notFound ∨ e.reason = .noMatch then .ok ()
    else .error (e.wrap (("checking for name collision with " : GoString) ++ t.other ++
      (" " : GoString) ++ quote name))

def validateNoNameCollision (t : Texts) (otherKind : Kind) (name : GoString) : Call Unit := do
  check (v.checkCollision t name (← Fallible.attempt (get otherKind name)))

def emptyDirPreloadWarnings (spec : LLMModelSpec) : List GoString :=
  if spec.model.storage.type = storageTypeEmptyDir ∧ spec.model.preload = some true then
    [("storage type is emptyDir with preload=true: every pod restart triggers a re-download of the model, " : GoString) ++
      ("which may cause significant delays and bandwidth usage; consider using a PVC for persistent storage" : GoString)]
  else []

/-- `ValidateCreate` and `ValidateUpdate` of an LLMModel: both make the same checks. -/
def validateLLMModel (name : GoString) (spec : LLMModelSpec) : Call (List GoString) := do
  check (v.validateOperatorNamespace llmTexts)
  v.validateNamespaceLabel llmTexts
  check (validateAccess llmTexts spec.access)
  v.validateNoNameCollision llmTexts .passthroughModel name
  check ((effectiveSubdomain v.sha256 name spec).map (fun _ => ()))
  pure (emptyDirPreloadWarnings spec)

def validateProvider (spec : PassthroughModelSpec) : Except StatusError Unit :=
  (v.resolve spec.provider).map (fun _ => ())

def validateModels (spec : PassthroughModelSpec) : Except StatusError Unit :=
  if spec.models.catchAll = false ∧ spec.models.declared = [] then
    .error (errorf (("spec.models must enable catchAll or declare at least one model id; " :
      GoString) ++
      ("a passthrough that routes nothing is never reachable" : GoString)))
  else
    match spec.models.declared.findIdx? isBlank with
    | some i => .error (errorf (("spec.models.declared[" : GoString) ++ itoa i ++
        ("] must not be empty" : GoString)))
    | none => .ok ()

def validateEndpoints (spec : PassthroughModelSpec) : Except StatusError Unit :=
  if passthroughEnabled spec .external = false ∧ passthroughEnabled spec .internal = false then
    .error (errorf (("spec.endpoints cannot disable both external and internal; " : GoString) ++
      ("a passthrough with neither endpoint enabled is never reachable" : GoString)))
  else .ok ()

/-- `ValidateCreate` and `ValidateUpdate` of a PassthroughModel. -/
def validatePassthroughModel (name : GoString) (spec : PassthroughModelSpec) :
    Call (List GoString) := do
  check (v.validateOperatorNamespace passthroughTexts)
  v.validateNamespaceLabel passthroughTexts
  check (validateAccess passthroughTexts spec.access)
  check (v.validateProvider spec)
  check (validateModels spec)
  check (validateEndpoints spec)
  v.validateNoNameCollision passthroughTexts .llmModel name
  pure []

end Validator

end webhook
