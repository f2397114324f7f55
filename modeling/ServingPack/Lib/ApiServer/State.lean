import ServingPack.Lib.GoMap

open golang

namespace apiserver

/-- The controller among an object's owner references. -/
structure OwnerReference where
  kind : GoString
  name : GoString
  uid : Nat
  deriving DecidableEq

structure ObjectMeta where
  uid : Nat := 0
  resourceVersion : Nat := 0
  generation : Nat := 0
  labels : GoMap GoString := ∅
  annotations : GoMap GoString := ∅
  controller : Option OwnerReference := none
  finalizers : List GoString := []
  deletionTimestamp : Bool := false
  deriving DecidableEq

structure Object (B : Type) where
  metadata : ObjectMeta
  body : B
  deriving DecidableEq

/-- An object with the name it is stored under. -/
structure Named (B : Type) extends Object B where
  name : GoString

/-- Why a request failed, as far as clients tell failures apart. -/
inductive Reason where
  | notFound
  | alreadyExists
  | conflict
  | noMatch
  | other
  deriving DecidableEq

structure StatusError where
  reason : Reason
  message : GoString
  deriving DecidableEq

/-- `fmt.Errorf` with `%w`: a longer text over the same error. -/
def StatusError.wrap (e : StatusError) (text : GoString) : StatusError :=
  { e with message := text ++ (": " : GoString) ++ e.message }

@[simp] theorem StatusError.wrap_reason (e : StatusError) (text : GoString) :
    (e.wrap text).reason = e.reason := rfl

variable {Kind : Type}

/-- What the server does with the bodies of each kind. -/
class Resource (B : Kind → Type) where
  /-- The resource's plural name, as the server's errors give it. -/
  resource : Kind → GoString
  /-- The body a create stores. -/
  create : (kind : Kind) → B kind → B kind
  /-- The body an update stores, from the stored and the submitted one. -/
  update : (kind : Kind) → B kind → B kind → B kind
  /-- The body an update of the status subresource stores. -/
  updateStatus : (kind : Kind) → B kind → B kind → B kind

/-- The objects of one namespace. Versions and UIDs come from one counter, so
no stored object carries one that is still to be given out. -/
structure ApiServer (B : Kind → Type) where
  objects : (kind : Kind) → GoMap (Object (B kind))
  next : Nat
  fresh : ∀ kind name object, (objects kind).lookup name = some object →
    object.metadata.resourceVersion < next ∧ object.metadata.uid < next

structure Preconditions where
  uid : Option Nat := none
  resourceVersion : Option Nat := none

inductive Request (B : Kind → Type) where
  | get (kind : Kind) (name : GoString)
  | list (kind : Kind) (matching : GoMap GoString)
  | create (kind : Kind) (name : GoString) (object : Object (B kind))
  | update (kind : Kind) (name : GoString) (object : Object (B kind))
  | updateStatus (kind : Kind) (name : GoString) (object : Object (B kind))
  | delete (kind : Kind) (name : GoString) (preconditions : Preconditions)

variable {B : Kind → Type}

/-- What a request's answer carries when it is not an error. -/
abbrev Request.Result : Request B → Type
  | .get kind _ => Object (B kind)
  | .list kind _ => List (GoString × Object (B kind))
  | .create kind _ _ => Object (B kind)
  | .update kind _ _ => Object (B kind)
  | .updateStatus kind _ _ => Object (B kind)
  | .delete _ _ _ => Unit

abbrev Answer (request : Request B) : Type := Except StatusError request.Result

/-- The object a request can write. -/
def Request.target : Request B → Option (Kind × GoString)
  | .get _ _ => none
  | .list _ _ => none
  | .create kind name _ => some (kind, name)
  | .update kind name _ => some (kind, name)
  | .updateStatus kind name _ => some (kind, name)
  | .delete kind name _ => some (kind, name)

/-- The kind a request addresses. -/
def Request.kind : Request B → Kind
  | .get kind _ => kind
  | .list kind _ => kind
  | .create kind _ _ => kind
  | .update kind _ _ => kind
  | .updateStatus kind _ _ => kind
  | .delete kind _ _ => kind

namespace ApiServer

def lookup (s : ApiServer B) (kind : Kind) (name : GoString) : Option (Object (B kind)) :=
  (s.objects kind).lookup name

theorem version_lt (s : ApiServer B) {kind : Kind} {name : GoString} {object : Object (B kind)}
    (h : s.lookup kind name = some object) : object.metadata.resourceVersion < s.next :=
  (s.fresh _ _ _ h).1

theorem uid_lt (s : ApiServer B) {kind : Kind} {name : GoString} {object : Object (B kind)}
    (h : s.lookup kind name = some object) : object.metadata.uid < s.next :=
  (s.fresh _ _ _ h).2

/-- A server without objects. -/
protected def empty : ApiServer B where
  objects _ := ∅
  next := 1
  fresh := by simp

variable [DecidableEq Kind]

/-- The object stored under a new resource version. -/
def stamp (s : ApiServer B) {kind : Kind} (object : Object (B kind)) : Object (B kind) :=
  { object with metadata := { object.metadata with resourceVersion := s.next } }

def put (s : ApiServer B) (kind : Kind) (name : GoString) (object : Object (B kind))
    (huid : object.metadata.uid ≤ s.next) : ApiServer B where
  objects := Function.update s.objects kind ((s.objects kind).insert name (s.stamp object))
  next := s.next + 1
  fresh := by
    intro kind' name' object' h
    by_cases hkind : kind' = kind
    · subst hkind
      rw [Function.update_self, GoMap.lookup_insert_eq] at h
      split_ifs at h with hname
      · obtain rfl := Option.some.inj h
        exact ⟨Nat.lt_succ_self _, Nat.lt_succ_of_le huid⟩
      · exact (s.fresh _ _ _ h).imp Nat.lt_succ_of_lt Nat.lt_succ_of_lt
    · rw [Function.update_of_ne hkind] at h
      exact (s.fresh _ _ _ h).imp Nat.lt_succ_of_lt Nat.lt_succ_of_lt

def remove (s : ApiServer B) (kind : Kind) (name : GoString) : ApiServer B where
  objects := Function.update s.objects kind ((s.objects kind).erase name)
  next := s.next
  fresh := by
    intro kind' name' object' h
    by_cases hkind : kind' = kind
    · subst hkind
      rw [Function.update_self, GoMap.lookup_erase_eq] at h
      split_ifs at h
      exact s.fresh _ _ _ h
    · rw [Function.update_of_ne hkind] at h
      exact s.fresh _ _ _ h

@[simp] theorem lookup_put (s : ApiServer B) {kind : Kind} {name : GoString}
    {object : Object (B kind)} (huid : object.metadata.uid ≤ s.next) :
    (s.put kind name object huid).lookup kind name = some (s.stamp object) := by
  simp [lookup, put]

theorem lookup_put_ne (s : ApiServer B) {kind kind' : Kind} {name name' : GoString}
    {object : Object (B kind)}
    (huid : object.metadata.uid ≤ s.next) (h : (kind', name') ≠ (kind, name)) :
    (s.put kind name object huid).lookup kind' name' = s.lookup kind' name' := by
  by_cases hkind : kind' = kind
  · subst hkind
    have hname : name' ≠ name := fun hname => h (by rw [hname])
    simp [lookup, put, Finmap.lookup_insert_of_ne _ hname]
  · simp [lookup, put, Function.update_of_ne hkind]

@[simp] theorem lookup_remove (s : ApiServer B) (kind : Kind) (name : GoString) :
    (s.remove kind name).lookup kind name = none := by
  simp [lookup, remove]

theorem lookup_remove_ne (s : ApiServer B) {kind kind' : Kind} {name name' : GoString}
    (h : (kind', name') ≠ (kind, name)) :
    (s.remove kind name).lookup kind' name' = s.lookup kind' name' := by
  by_cases hkind : kind' = kind
  · subst hkind
    have hname : name' ≠ name := fun hname => h (by rw [hname])
    simp [lookup, remove, Finmap.lookup_erase_ne hname]
  · simp [lookup, remove, Function.update_of_ne hkind]

end ApiServer

end apiserver
