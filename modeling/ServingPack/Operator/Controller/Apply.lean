import ServingPack.Operator.Controller.ApiKeys

open golang apiserver concurrency kube v1alpha1 reconcilers

namespace controller

def finalizerName : GoString := "llm.nebari.dev/cleanup"

def containsFinalizer {B : Type} (object : Object B) : Bool :=
  finalizerName ∈ object.metadata.finalizers

/-- `controllerutil.AddFinalizer`, for an object that does not have it. -/
def addFinalizer {B : Type} (object : Object B) : Object B :=
  { object with metadata.finalizers := object.metadata.finalizers ++ [finalizerName] }

/-- `controllerutil.RemoveFinalizer`. -/
def removeFinalizer {B : Type} (object : Object B) : Object B :=
  { object with metadata.finalizers := object.metadata.finalizers.filter (· ≠ finalizerName) }

/-- The reconcile ends with an error described further. -/
def orFail {α : Type} (text : GoString) (x : Call α) : Call α := Fallible.mapError (wrapped text) x

/-- The reconcile goes on without what failed. -/
def orSkip (x : Call Unit) : Call Unit := do
  let _ ← Fallible.attempt x
  pure ()

/-- `client.IgnoreNotFound`, for a reconcile that ends with `value` when the object is gone. -/
def ignoreNotFound {α : Type} (value : α) (e : StatusError) : Call α :=
  if e.reason = .notFound then pure value else throw e

/-- The writes of the `createOrUpdate` helpers, once the object was looked up:
`merge` says what an existing object takes from the desired one. -/
def createOrUpdateFound (kind : Kind) (merge : Object (Body kind) → Object (Body kind))
    (desired : Named (Body kind)) :
    Except StatusError (Object (Body kind)) → Call Unit
  | .ok existing => do
    let _ ← update kind desired.name (merge existing)
    pure ()
  | .error e =>
    if e.reason = .notFound then do
      let _ ← create kind desired.name desired.toObject
      pure ()
    else throw e

def createOrUpdate (kind : Kind) (merge : Object (Body kind) → Object (Body kind))
    (desired : Named (Body kind)) :
    Call Unit := do
  createOrUpdateFound kind merge desired (← Fallible.attempt (get kind desired.name))

/-- Updates labels only; what else an existing object holds is not the operator's. -/
def mergeLabels {B : Type} (desired : Named B) (existing : Object B) : Object B :=
  { existing with metadata.labels := desired.metadata.labels }

/-- Updates the labels and what the object holds. -/
def mergeBody {B : Type} (desired : Named B) (existing : Object B) : Object B :=
  { existing with metadata.labels := desired.metadata.labels, body := desired.body }

/-- `createOrUpdatePVC`, `createOrUpdateSecret`, `createOrUpdateServiceAccount` and
`createOrUpdateConfigMapPreserveData`. -/
def createOrUpdateLabels (kind : Kind) (desired : Named (Body kind)) : Call Unit :=
  createOrUpdate kind (mergeLabels desired) desired

/-- `createOrUpdateConfigMap`, `createOrUpdateNetworkPolicy`, `createOrUpdateService`,
`createOrUpdateDeployment`, `createOrUpdateRole` and `createOrUpdateRoleBinding`. -/
def createOrUpdateBody (kind : Kind) (desired : Named (Body kind)) : Call Unit :=
  createOrUpdate kind (mergeBody desired) desired

/-- Replaces a resource, metadata included, but for the finalizers of upstream controllers. -/
def mergeAll {B : Type} (desired : Named B) (existing : Object B) : Object B :=
  { desired.toObject with
    metadata.resourceVersion := existing.metadata.resourceVersion
    metadata.finalizers := existing.metadata.finalizers }

def applyModelResourcePreservingFinalizers (kind : Kind) (desired : Named (Body kind)) :
    Call Unit :=
  createOrUpdate kind (mergeAll desired) desired

/-- Deletes an object that was found, or that is gone by now. -/
def deleteFound (kind : Kind) (name : GoString) (preconditions : Preconditions) : Call Unit := do
  match ← Fallible.attempt (delete kind name preconditions) with
  | .ok _ => pure ()
  | .error e => ignoreNotFound () e

/-- Deletes an object if a look finds it. A look that fails is skipped. -/
def deleteIfFound (kind : Kind) (name : GoString) (text : GoString) : Call Unit := do
  match ← Fallible.attempt (get kind name) with
  | .ok _ => orFail text (deleteFound kind name {})
  | .error _ => pure ()

/-- The owner reference of a model's objects. -/
def controllerReference (kind : GoString) {B : Type} (owner : Named B) : OwnerReference where
  kind := kind
  name := owner.name
  uid := owner.metadata.uid

def setControllerReference {B B' : Type} (kind : GoString) (owner : Named B) (object : Named B') :
    Named B' :=
  { object with metadata.controller := some (controllerReference kind owner) }

/-- `metav1.IsControlledBy`: only the UIDs are compared. -/
def isControlledBy {B B' : Type} (object : Object B) (owner : Named B') : Bool :=
  object.metadata.controller.any (fun ref => ref.uid == owner.metadata.uid)

end controller
