import ServingPack.Lib.ApiServer.State
import ServingPack.Lib.Program
import ServingPack.Lib.Unstructured

open golang apiserver concurrency unstructured

namespace controller

namespace ClusterTLSSingleton

/-- What the server stores an object under. -/
structure Key where
  apiVersion : GoString
  kind : GoString
  «namespace» : GoString
  name : GoString
  deriving DecidableEq

def keyOf (obj : Unstructured) : Key :=
  ⟨obj.getAPIVersion, obj.getKind, obj.getNamespace, obj.getName⟩

/-- The requests of the controller's client, and the Events it records. -/
inductive Request where
  | get (key : Key)
  | list (apiVersion kind «namespace» : GoString)
  | create (obj : Unstructured)
  | update (obj : Unstructured)
  | delete (obj : Unstructured)
  | event (regarding : Key) (reason message : GoString)

abbrev Answer : Request → Type
  | .get _ => Except StatusError Unstructured
  | .list .. => Except StatusError (List Unstructured)
  | .event .. => Unit
  | _ => Except StatusError Unit

abbrev Call (α : Type) := Fallible Request Answer StatusError α

def get (key : Key) : Call Unstructured := ExceptT.mk (Program.ask (Request.get key))

def list (apiVersion kind ns : GoString) : Call (List Unstructured) :=
  ExceptT.mk (Program.ask (Request.list apiVersion kind ns))

def create (obj : Unstructured) : Call Unit := ExceptT.mk (Program.ask (Request.create obj))

def update (obj : Unstructured) : Call Unit := ExceptT.mk (Program.ask (Request.update obj))

def delete (obj : Unstructured) : Call Unit := ExceptT.mk (Program.ask (Request.delete obj))

def event (regarding : Key) (reason message : GoString) : Call Unit :=
  ExceptT.mk ((Program.ask (Request.event regarding reason message)).bind (fun _ => .pure (.ok ())))

/-- The call fails with an error described further. -/
def describing {α : Type} (text : GoString) (x : Call α) : Call α :=
  Fallible.mapError (fun e => e.wrap text) x

section Compare

mutual

/-- `valueEqual`. A value on the left that is neither a map nor a list is compared by
what it prints as, whatever the value on the right is. -/
def valueEqual : Value → Value → Bool
  | .map a, .map b => a.length == b.length && entriesEqual a b
  | .map _, _ => false
  | .slice a, .slice b => a.length == b.length && elementsEqual a b
  | .slice _, _ => false
  | .null, b => Value.null.printed == b.printed
  | .bool x, b => (Value.bool x).printed == b.printed
  | .int n, b => (Value.int n).printed == b.printed
  | .float f, b => (Value.float f).printed == b.printed
  | .string s, b => (Value.string s).printed == b.printed

/-- Whether every entry of a map has its equal in another. -/
def entriesEqual : List (GoString × Value) → Fields Value → Bool
  | [], _ => true
  | (k, v) :: rest, b =>
    (match b.get k with
      | none => false
      | some w => valueEqual v w) && entriesEqual rest b

/-- Whether two lists of one length are equal element by element. -/
def elementsEqual : List Value → List Value → Bool
  | v :: rest, w :: rest' => valueEqual v w && elementsEqual rest rest'
  | _, _ => true

end

def nestedSpecsEqual (a b : Fields Value) : Bool := a.length == b.length && entriesEqual a b

end Compare

/-- The object as an update sends it: the spec is the desired one, the rest is as read. -/
def withSpec (current desired : Unstructured) : Unstructured :=
  current.setField "spec" (.map desired.spec)
    (Unstructured.wellFormed_nestedMapOrNil desired.wellFormed _)

/-- An object's kind and name, as errors give them. -/
def describe (obj : Unstructured) : GoString :=
  obj.getKind ++ (" " : GoString) ++ obj.getNamespace ++ ("/" : GoString) ++ obj.getName

/-- The rest of `createOrUpdateUnstructured`, once the object was looked up. -/
def createOrUpdateLookedUp (desired : Unstructured) : Except StatusError Unstructured → Call Unit
  | .error e =>
    if e.reason = .notFound
      then describing (("creating " : GoString) ++ describe desired) (create desired)
    else throw (e.wrap (("getting " : GoString) ++ describe desired))
  | .ok current =>
    if nestedSpecsEqual desired.spec current.spec then pure ()
    else describing (("updating " : GoString) ++ describe desired)
      (update (withSpec current desired))

def createOrUpdateUnstructured (desired : Unstructured) : Call Unit := do
  let found ← Fallible.attempt (get (keyOf desired))
  createOrUpdateLookedUp desired found

section Server

/-- The objects the server has, each under its own key. -/
@[ext]
structure State where
  objects : Key → Option Unstructured
  filed : ∀ key obj, objects key = some obj → keyOf obj = key

namespace State

def empty : State := ⟨fun _ => none, fun _ _ h => by cases h⟩

def put (s : State) (obj : Unstructured) : State where
  objects := Function.update s.objects (keyOf obj) (some obj)
  filed := by
    intro key obj' h
    by_cases hkey : key = keyOf obj
    · subst hkey
      rw [Function.update_self] at h
      rw [Option.some.inj h]
    · rw [Function.update_of_ne hkey] at h
      exact s.filed key obj' h

def remove (s : State) (key : Key) : State where
  objects := Function.update s.objects key none
  filed := by
    intro key' obj h
    by_cases hkey : key' = key
    · rw [hkey, Function.update_self] at h
      cases h
    · rw [Function.update_of_ne hkey] at h
      exact s.filed key' obj h

variable {s : State} {obj : Unstructured} {key key' : Key}

@[simp] theorem objects_put : (s.put obj).objects (keyOf obj) = some obj := Function.update_self ..

theorem objects_put_ne (h : key ≠ keyOf obj) : (s.put obj).objects key = s.objects key :=
  Function.update_of_ne h ..

@[simp] theorem objects_remove : (s.remove key).objects key = none := Function.update_self ..

theorem objects_remove_ne (h : key' ≠ key) : (s.remove key).objects key' = s.objects key' :=
  Function.update_of_ne h ..

end State

/-- What a create stores: the object sent, with the server's entries in its metadata. -/
structure Stamped (sent stored : Unstructured) : Prop where
  key : keyOf stored = keyOf sent
  labels : stored.getLabels = sent.getLabels
  fields : ∀ field, field ≠ lit "metadata" → stored.object.get field = sent.object.get field

/-- How the server answers a request. It has every kind, any request can fail, and a
list comes in any order. -/
inductive Exec : State → (request : Request) → Answer request → State → Prop where
  | found {s : State} {key : Key} {obj : Unstructured} (h : s.objects key = some obj) :
      Exec s (.get key) (.ok obj) s
  | missing {s : State} {key : Key} {e : StatusError} (h : s.objects key = none)
    (he : e.reason = .notFound) :
      Exec s (.get key) (.error e) s
  | getFails {s : State} {key : Key} {e : StatusError} (he : e.reason ≠ .notFound) :
    Exec s (.get key) (.error e) s
  | listed {s : State} {apiVersion kind ns : GoString} {objs : List Unstructured}
      (hmem : ∀ obj, obj ∈ objs ↔ s.objects (keyOf obj) = some obj ∧
        obj.getAPIVersion = apiVersion ∧
        obj.getKind = kind ∧ obj.getNamespace = ns) (hnodup : objs.Nodup) :
          Exec s (.list apiVersion kind ns) (.ok objs) s
  | listFails {s : State} {apiVersion kind ns : GoString} {e : StatusError}
    (he : e.reason ≠ .noMatch) :
      Exec s (.list apiVersion kind ns) (.error e) s
  | created {s : State} {sent stored : Unstructured} (h : s.objects (keyOf sent) = none)
    (hstored : Stamped sent stored) :
      Exec s (.create sent) (.ok ()) (s.put stored)
  | createFails {s : State} {obj : Unstructured} {e : StatusError} :
    Exec s (.create obj) (.error e) s
  | updated {s : State} {obj : Unstructured} (h : (s.objects (keyOf obj)).isSome = true) :
      Exec s (.update obj) (.ok ()) (s.put obj)
  | updateFails {s : State} {obj : Unstructured} {e : StatusError} :
    Exec s (.update obj) (.error e) s
  | deleted {s : State} {obj : Unstructured} (h : (s.objects (keyOf obj)).isSome = true) :
      Exec s (.delete obj) (.ok ()) (s.remove (keyOf obj))
  | deleteMissing {s : State} {obj : Unstructured} {e : StatusError}
    (h : s.objects (keyOf obj) = none)
      (he : e.reason = .notFound) : Exec s (.delete obj) (.error e) s
  | deleteFails {s : State} {obj : Unstructured} {e : StatusError} (he : e.reason ≠ .notFound) :
      Exec s (.delete obj) (.error e) s
  | recorded {s : State} {regarding : Key} {reason message : GoString} :
    Exec s (.event regarding reason message) () s

end Server

section Runs

variable {s s' : State} {desired current : Unstructured}
  {log : List (Σ request : Request, Answer request)}

/-- Everything but the type and the metadata of an object can be set under its key. -/
theorem keyOf_setField {obj : Unstructured} {field : GoString} {v : Value}
    (hv : v.wellFormed = true)
    (hfield : field ≠ lit "apiVersion" ∧ field ≠ lit "kind" ∧ field ≠ lit "metadata") :
    keyOf (obj.setField field v hv) = keyOf obj := by
  have hget : ∀ k, k ≠ field → (obj.setField field v hv).object.get k = obj.object.get k :=
    fun k hk => Fields.get_set_ne hk
  rw [keyOf, keyOf, Unstructured.getAPIVersion, Unstructured.getAPIVersion, Unstructured.getKind,
    Unstructured.getKind, Unstructured.getNamespace, Unstructured.getNamespace,
    Unstructured.getName, Unstructured.getName,
    Unstructured.getNestedString_congr (hget _ hfield.1.symm),
    Unstructured.getNestedString_congr (hget _ hfield.2.1.symm),
    Unstructured.getNestedString_congr (hget _ hfield.2.2.symm),
    Unstructured.getNestedString_congr (hget _ hfield.2.2.symm)]

/-- An update goes to the object that was read. -/
theorem keyOf_withSpec : keyOf (withSpec current desired) = keyOf current :=
  keyOf_setField _ (by decide)

/-- The object is read before anything is written, whatever the read answers. -/
theorem run_createOrUpdate (desired : Unstructured) : (createOrUpdateUnstructured desired).run =
    .call (.get (keyOf desired)) (fun found => (createOrUpdateLookedUp desired found).run) := rfl

/-- What `createOrUpdateUnstructured` has done when it returns without an error. -/
theorem createOrUpdate_cases
    (h : Program.RunsOn Exec s (createOrUpdateUnstructured desired).run log (.ok ()) s') :
    (s.objects (keyOf desired) = none ∧ ∃ stored, Stamped desired stored ∧ s' = s.put stored) ∨
      ∃ current, s.objects (keyOf desired) = some current ∧
        (nestedSpecsEqual desired.spec current.spec = true ∧ s' = s ∨
          nestedSpecsEqual desired.spec current.spec = false ∧
          s' = s.put (withSpec current desired)) := by
  rw [run_createOrUpdate] at h
  obtain ⟨answer, s₁, tail, hget, hrest, -⟩ := h.call_inv
  cases hget with
  | found hfound =>
    right
    refine ⟨_, hfound, ?_⟩
    rw [createOrUpdateLookedUp] at hrest
    split_ifs at hrest with hequal
    · obtain ⟨-, -, rfl⟩ := hrest.pure_inv
      exact .inl ⟨hequal, rfl⟩
    · obtain ⟨answer', s₂, tail', hupdate, hend, -⟩ := hrest.call_inv
      cases hupdate with
      | updated =>
        obtain ⟨-, -, rfl⟩ := hend.pure_inv
        exact .inr ⟨Bool.eq_false_iff.mpr hequal, rfl⟩
      | updateFails =>
        obtain ⟨-, herror, -⟩ := hend.pure_inv
        cases herror
  | missing hmissing he =>
    left
    rw [createOrUpdateLookedUp, if_pos he] at hrest
    obtain ⟨answer', s₂, tail', hcreate, hend, -⟩ := hrest.call_inv
    cases hcreate with
    | created _ hstored =>
      obtain ⟨-, -, rfl⟩ := hend.pure_inv
      exact ⟨hmissing, _, hstored, rfl⟩
    | createFails =>
      obtain ⟨-, herror, -⟩ := hend.pure_inv
      cases herror
  | getFails he =>
    rw [createOrUpdateLookedUp, if_neg he] at hrest
    obtain ⟨-, herror, -⟩ := hrest.pure_inv
    cases herror

end Runs

end ClusterTLSSingleton

end controller
