import ServingPack.Lib.ApiServer.State

open golang

namespace apiserver

set_option linter.unusedSectionVars false

variable {Kind : Type} {B : Kind → Type} [Resource B]

def quote (s : GoString) : GoString := ("\"" : GoString) ++ s ++ ("\"" : GoString)

def describe (kind : Kind) (name : GoString) : GoString :=
  Resource.resource B kind ++ (" " : GoString) ++ quote name

def notFound (kind : Kind) (name : GoString) : StatusError :=
  ⟨.notFound, describe (B := B) kind name ++ (" not found" : GoString)⟩

def alreadyExists (kind : Kind) (name : GoString) : StatusError :=
  ⟨.alreadyExists, describe (B := B) kind name ++ (" already exists" : GoString)⟩

def conflict (kind : Kind) (name cause : GoString) : StatusError :=
  ⟨.conflict, ("Operation cannot be fulfilled on " : GoString) ++ describe (B := B) kind name ++
    (": " : GoString) ++ cause⟩

def invalid (kind : Kind) (name cause : GoString) : StatusError :=
  ⟨.other, describe (B := B) kind name ++ (" is invalid: " : GoString) ++ cause⟩

def modified : GoString :=
  "the object has been modified; please apply your changes to the latest version and try again"

def preconditionFailed : GoString := "Precondition failed"

def finalizersForbidden : GoString :=
  "metadata.finalizers: Forbidden: no new finalizers can be added if the object is being deleted"

/-- What a create stores. -/
def created {kind : Kind} (uid : Nat) (submitted : Object (B kind)) : Object (B kind) where
  metadata := { submitted.metadata with uid := uid, generation := 1, deletionTimestamp := false }
  body := Resource.create kind submitted.body

variable [∀ kind, DecidableEq (B kind)]

/-- What an accepted update stores: the server keeps the UID, the deletion
timestamp and the generation, which counts the changes of the body. -/
def updated {kind : Kind} (existing submitted : Object (B kind)) : Object (B kind) :=
  let body := Resource.update kind existing.body submitted.body
  { metadata := { submitted.metadata with
      uid := existing.metadata.uid
      resourceVersion := existing.metadata.resourceVersion
      deletionTimestamp := existing.metadata.deletionTimestamp
      generation := if body = existing.body then existing.metadata.generation
        else existing.metadata.generation + 1 }
    body := body }

def statusUpdated {kind : Kind} (existing submitted : Object (B kind)) : Object (B kind) :=
  { existing with body := Resource.updateStatus kind existing.body submitted.body }

/-- An object whose deletion has begun and waits for finalizers. -/
def deleting {kind : Kind} (existing : Object (B kind)) : Object (B kind) :=
  { existing with metadata := { existing.metadata with
      deletionTimestamp := true, generation := existing.metadata.generation + 1 } }

/-- Whether the deletion of an object is complete. -/
def finished {kind : Kind} (object : Object (B kind)) : Bool :=
  object.metadata.deletionTimestamp && object.metadata.finalizers.isEmpty

/-- Whether an object is the one a delete names. -/
def Preconditions.hold {kind : Kind} (p : Preconditions) (object : Object (B kind)) : Bool :=
  p.uid.all (· == object.metadata.uid) &&
    p.resourceVersion.all (· == object.metadata.resourceVersion)

/-- Whether an object carries every one of the given labels. -/
def selects {kind : Kind} (matching : GoMap GoString) (object : Object (B kind)) : Bool :=
  matching.sortedKeys.all (fun key => object.metadata.labels.lookup key == matching.lookup key)

theorem selects_congr {kind : Kind} {matching : GoMap GoString} {object object' : Object (B kind)}
    (h : object.metadata.labels = object'.metadata.labels) :
    selects matching object = selects matching object' := by
  unfold selects
  rw [h]

variable [DecidableEq Kind]

namespace ApiServer

theorem created_uid_le (s : ApiServer B) {kind : Kind} (submitted : Object (B kind)) :
    (created s.next submitted).metadata.uid ≤ s.next := Nat.le_refl s.next

theorem updated_uid_le (s : ApiServer B) {kind : Kind} {name : GoString}
    {existing : Object (B kind)}
    (h : s.lookup kind name = some existing) (submitted : Object (B kind)) :
    (updated existing submitted).metadata.uid ≤ s.next := (s.uid_lt h).le

theorem statusUpdated_uid_le (s : ApiServer B) {kind : Kind} {name : GoString}
    {existing : Object (B kind)}
    (h : s.lookup kind name = some existing) (submitted : Object (B kind)) :
    (statusUpdated existing submitted).metadata.uid ≤ s.next := (s.uid_lt h).le

theorem deleting_uid_le (s : ApiServer B) {kind : Kind} {name : GoString}
    {existing : Object (B kind)}
    (h : s.lookup kind name = some existing) : (deleting existing).metadata.uid ≤ s.next :=
  (s.uid_lt h).le

def create (s : ApiServer B) (kind : Kind) (name : GoString) (submitted : Object (B kind)) :
    Except StatusError (Object (B kind)) × ApiServer B :=
  match s.lookup kind name with
  | some _ => (.error (alreadyExists (B := B) kind name), s)
  | none =>
    let object := created s.next submitted
    (.ok (s.stamp object), s.put kind name object (s.created_uid_le submitted))

/-- Writes `desired` over `existing`. Nothing is written where nothing changes,
and an object whose deletion is complete is removed. -/
def replace (s : ApiServer B) {kind : Kind} (name : GoString) (existing desired : Object (B kind))
    (huid : desired.metadata.uid ≤ s.next) : Object (B kind) × ApiServer B :=
  if desired = existing then (existing, s)
  else if finished desired then (desired, s.remove kind name)
  else (s.stamp desired, s.put kind name desired huid)

def update (s : ApiServer B) (kind : Kind) (name : GoString) (submitted : Object (B kind)) :
    Except StatusError (Object (B kind)) × ApiServer B :=
  match h : s.lookup kind name with
  | none => (.error (notFound (B := B) kind name), s)
  | some existing =>
    if submitted.metadata.resourceVersion ≠ existing.metadata.resourceVersion then
      (.error (conflict (B := B) kind name modified), s)
    else if existing.metadata.deletionTimestamp ∧
        ∃ finalizer ∈ submitted.metadata.finalizers, finalizer ∉ existing.metadata.finalizers then
      (.error (invalid (B := B) kind name finalizersForbidden), s)
    else
      let (stored, s') := s.replace name existing (updated existing submitted)
        (s.updated_uid_le h submitted)
      (.ok stored, s')

def updateStatus (s : ApiServer B) (kind : Kind) (name : GoString) (submitted : Object (B kind)) :
    Except StatusError (Object (B kind)) × ApiServer B :=
  match h : s.lookup kind name with
  | none => (.error (notFound (B := B) kind name), s)
  | some existing =>
    if submitted.metadata.resourceVersion ≠ existing.metadata.resourceVersion then
      (.error (conflict (B := B) kind name modified), s)
    else
      let (stored, s') := s.replace name existing (statusUpdated existing submitted)
        (s.statusUpdated_uid_le h submitted)
      (.ok stored, s')

def delete (s : ApiServer B) (kind : Kind) (name : GoString) (preconditions : Preconditions) :
    Except StatusError Unit × ApiServer B :=
  match h : s.lookup kind name with
  | none => (.error (notFound (B := B) kind name), s)
  | some existing =>
    if preconditions.hold existing then
      if existing.metadata.finalizers.isEmpty then (.ok (), s.remove kind name)
      else if existing.metadata.deletionTimestamp then (.ok (), s)
      else (.ok (), s.put kind name (deleting existing) (s.deleting_uid_le h))
    else (.error (conflict (B := B) kind name preconditionFailed), s)

def list (s : ApiServer B) (kind : Kind) (matching : GoMap GoString) :
    List (GoString × Object (B kind)) :=
  (s.objects kind).sortedKeys.filterMap (fun name =>
    (s.lookup kind name).bind (fun object => if selects matching object then some (name, object)
      else none))

/-- The server's answer to a request, and the state it leaves. -/
def handle (s : ApiServer B) : (request : Request B) → Answer request × ApiServer B
  | .get kind name =>
    match s.lookup kind name with
    | some object => (.ok object, s)
    | none => (.error (notFound (B := B) kind name), s)
  | .list kind matching => (.ok (s.list kind matching), s)
  | .create kind name object => s.create kind name object
  | .update kind name object => s.update kind name object
  | .updateStatus kind name object => s.updateStatus kind name object
  | .delete kind name preconditions => s.delete kind name preconditions

theorem replace_cases (s : ApiServer B) {kind : Kind} (name : GoString) (existing : Object (B kind))
    {desired : Object (B kind)} (huid : desired.metadata.uid ≤ s.next) :
    (desired = existing ∧ s.replace name existing desired huid = (existing, s)) ∨
    (desired ≠ existing ∧ finished desired = true ∧
      s.replace name existing desired huid = (desired, s.remove kind name)) ∨
    (desired ≠ existing ∧ finished desired = false ∧
      s.replace name existing desired huid = (s.stamp desired, s.put kind name desired huid)) := by
  unfold replace
  split_ifs with hsame hdone
  · exact .inl ⟨hsame, rfl⟩
  · exact .inr (.inl ⟨hsame, hdone, rfl⟩)
  · exact .inr (.inr ⟨hsame, Bool.not_eq_true _ ▸ hdone, rfl⟩)

theorem replace_frame (s : ApiServer B) {kind kind' : Kind} {name name' : GoString}
    {existing desired : Object (B kind)} (huid : desired.metadata.uid ≤ s.next)
    (h : (kind', name') ≠ (kind, name)) :
    (s.replace name existing desired huid).2.lookup kind' name' = s.lookup kind' name' := by
  rcases s.replace_cases name existing huid with ⟨_, heq⟩ | ⟨_, _, heq⟩ | ⟨_, _, heq⟩
  · rw [heq]
  · rw [heq, lookup_remove_ne _ h]
  · rw [heq, lookup_put_ne _ _ h]

/-- An update writes only over the version it was made from. -/
theorem update_cases (s : ApiServer B) (kind : Kind) (name : GoString)
    (submitted : Object (B kind)) :
    ((s.update kind name submitted).2 = s ∧ ∃ e, (s.update kind name submitted).1 = .error e) ∨
    ∃ existing, ∃ h : s.lookup kind name = some existing,
      submitted.metadata.resourceVersion = existing.metadata.resourceVersion ∧
      s.update kind name submitted =
        (.ok (s.replace name existing (updated existing submitted)
          (s.updated_uid_le h submitted)).1,
          (s.replace name existing (updated existing submitted)
            (s.updated_uid_le h submitted)).2) := by
  unfold update
  split
  · exact .inl ⟨rfl, _, rfl⟩
  · next existing h =>
    split_ifs with hversion hfinalizers
    · exact .inl ⟨rfl, _, rfl⟩
    · exact .inl ⟨rfl, _, rfl⟩
    · exact .inr ⟨existing, h, not_not.mp hversion, rfl⟩

/-- An update made from the stored version, with no new finalizer, is accepted. -/
theorem update_of_version (s : ApiServer B) {kind : Kind} {name : GoString}
    {existing submitted : Object (B kind)} (h : s.lookup kind name = some existing)
    (hversion : submitted.metadata.resourceVersion = existing.metadata.resourceVersion)
    (hfinalizers : submitted.metadata.finalizers ⊆ existing.metadata.finalizers) :
    s.update kind name submitted =
      (.ok (s.replace name existing (updated existing submitted) (s.updated_uid_le h submitted)).1,
        (s.replace name existing (updated existing submitted)
          (s.updated_uid_le h submitted)).2) := by
  have hno : ¬(existing.metadata.deletionTimestamp = true ∧
      ∃ finalizer ∈ submitted.metadata.finalizers, finalizer ∉ existing.metadata.finalizers) := by
    rintro ⟨_, finalizer, hmem, hnew⟩
    exact hnew (hfinalizers hmem)
  unfold update
  split
  · next hnone => rw [hnone] at h; cases h
  · next found hfound =>
    obtain rfl : found = existing := Option.some.inj (hfound.symm.trans h)
    rw [if_neg (not_not.mpr hversion), if_neg hno]

/-- A change is stored under a new version, unless it completes the deletion. -/
theorem lookup_replace_of_ne (s : ApiServer B) {kind : Kind} (name : GoString)
    {existing desired : Object (B kind)}
    (huid : desired.metadata.uid ≤ s.next) (hne : desired ≠ existing) :
    (s.replace name existing desired huid).2.lookup kind name = none ∨
    (s.replace name existing desired huid).2.lookup kind name = some (s.stamp desired) := by
  rcases s.replace_cases name existing huid with ⟨heq, _⟩ | ⟨_, _, heq⟩ | ⟨_, _, heq⟩
  · exact absurd heq hne
  · exact .inl (by rw [heq, lookup_remove])
  · exact .inr (by rw [heq, lookup_put])

theorem updateStatus_cases (s : ApiServer B) (kind : Kind) (name : GoString)
    (submitted : Object (B kind)) :
    ((s.updateStatus kind name submitted).2 = s ∧
      ∃ e, (s.updateStatus kind name submitted).1 = .error e) ∨
    ∃ existing, ∃ h : s.lookup kind name = some existing,
      submitted.metadata.resourceVersion = existing.metadata.resourceVersion ∧
      s.updateStatus kind name submitted =
        (.ok (s.replace name existing (statusUpdated existing submitted)
          (s.statusUpdated_uid_le h submitted)).1,
          (s.replace name existing (statusUpdated existing submitted)
            (s.statusUpdated_uid_le h submitted)).2) := by
  unfold updateStatus
  split
  · exact .inl ⟨rfl, _, rfl⟩
  · next existing h =>
    split_ifs with hversion
    · exact .inl ⟨rfl, _, rfl⟩
    · exact .inr ⟨existing, h, not_not.mp hversion, rfl⟩

theorem create_cases (s : ApiServer B) (kind : Kind) (name : GoString)
    (submitted : Object (B kind)) :
    (∃ existing, s.lookup kind name = some existing ∧
      s.create kind name submitted = (.error (alreadyExists (B := B) kind name), s)) ∨
    (s.lookup kind name = none ∧ s.create kind name submitted =
      (.ok (s.stamp (created s.next submitted)),
        s.put kind name (created s.next submitted) (s.created_uid_le submitted))) := by
  unfold create
  split
  · next existing h => exact .inl ⟨existing, h, rfl⟩
  · next h => exact .inr ⟨h, rfl⟩

/-- A delete removes the object, begins its deletion, or changes nothing. -/
theorem delete_cases (s : ApiServer B) (kind : Kind) (name : GoString)
    (preconditions : Preconditions) :
    (∃ e, s.delete kind name preconditions = (.error e, s) ∧
      (e.reason = .notFound → s.lookup kind name = none)) ∨
    ∃ existing, ∃ h : s.lookup kind name = some existing, preconditions.hold existing = true ∧
      ((existing.metadata.finalizers = [] ∧
        s.delete kind name preconditions = (.ok (), s.remove kind name)) ∨
      (existing.metadata.finalizers ≠ [] ∧ existing.metadata.deletionTimestamp = true ∧
        s.delete kind name preconditions = (.ok (), s)) ∨
      (existing.metadata.finalizers ≠ [] ∧ existing.metadata.deletionTimestamp = false ∧
        s.delete kind name preconditions =
          (.ok (), s.put kind name (deleting existing) (s.deleting_uid_le h)))) := by
  unfold delete
  split
  · next h => exact .inl ⟨_, rfl, fun _ => h⟩
  · next existing h =>
    split_ifs with hhold hempty hdeleting
    · exact .inr ⟨existing, h, hhold, .inl ⟨List.isEmpty_iff.mp hempty, rfl⟩⟩
    · exact .inr ⟨existing, h, hhold,
        .inr (.inl ⟨fun hnil => hempty (by simp [hnil]), hdeleting, rfl⟩)⟩
    · exact .inr ⟨existing, h, hhold,
        .inr (.inr ⟨fun hnil => hempty (by simp [hnil]), Bool.not_eq_true _ ▸ hdeleting, rfl⟩)⟩
    · exact .inl ⟨_, rfl, fun hreason => nomatch hreason⟩

theorem mem_list (s : ApiServer B) {kind : Kind} {matching : GoMap GoString} {name : GoString}
    {object : Object (B kind)} :
    (name, object) ∈ s.list kind matching ↔ s.lookup kind name = some object ∧
    selects matching object = true := by
  simp only [list, List.mem_filterMap, Option.bind_eq_some_iff, Option.ite_none_right_eq_some,
    Option.some.injEq, Prod.mk.injEq]
  constructor
  · rintro ⟨_, _, found, hfound, hselects, rfl, rfl⟩
    exact ⟨hfound, hselects⟩
  · rintro ⟨hlookup, hselects⟩
    exact ⟨name, GoMap.mem_sortedKeys.mpr (Finmap.mem_of_lookup_eq_some hlookup), object, hlookup,
      hselects, rfl, rfl⟩

/-- The server's own errors are never that a kind is unknown. -/
theorem handle_error (s : ApiServer B) {request : Request B} {e : StatusError}
    (h : (s.handle request).1 = .error e) :
    e.reason = .notFound ∨ e.reason = .alreadyExists ∨ e.reason = .conflict ∨
    e.reason = .other := by
  cases request with
  | get kind name =>
    simp only [handle] at h
    split at h
    · cases h
    · obtain rfl := Except.error.inj h
      exact .inl rfl
  | list kind matching => cases h
  | create kind name submitted =>
    simp only [handle, create] at h
    split at h
    · obtain rfl := Except.error.inj h
      exact .inr (.inl rfl)
    · cases h
  | update kind name submitted =>
    simp only [handle, update] at h
    split at h
    · obtain rfl := Except.error.inj h
      exact .inl rfl
    · split_ifs at h
      · obtain rfl := Except.error.inj h
        exact .inr (.inr (.inl rfl))
      · obtain rfl := Except.error.inj h
        exact .inr (.inr (.inr rfl))
  | updateStatus kind name submitted =>
    simp only [handle, updateStatus] at h
    split at h
    · obtain rfl := Except.error.inj h
      exact .inl rfl
    · split_ifs at h
      obtain rfl := Except.error.inj h
      exact .inr (.inr (.inl rfl))
  | delete kind name preconditions =>
    simp only [handle, delete] at h
    split at h
    · obtain rfl := Except.error.inj h
      exact .inl rfl
    · split_ifs at h
      obtain rfl := Except.error.inj h
      exact .inr (.inr (.inl rfl))

/-- A read changes nothing. -/
theorem handle_get (s : ApiServer B) (kind : Kind) (name : GoString) :
    (s.handle (.get kind name)).2 = s := by
  simp only [handle]
  split <;> rfl

/-- What a request can have written: nothing, or an object with a version of its own. -/
theorem handle_cases (s : ApiServer B) (request : Request B) :
    (s.handle request).2 = s ∨
    (∃ kind name, (s.handle request).2 = s.remove kind name) ∨
    ∃ kind name object huid, (s.handle request).2 = s.put kind name object huid := by
  cases request with
  | get kind name => exact .inl (s.handle_get kind name)
  | list kind matching => exact .inl rfl
  | create kind name submitted =>
    rcases s.create_cases kind name submitted with ⟨_, _, heq⟩ | ⟨_, heq⟩
    · exact .inl (by simp only [handle, heq])
    · exact .inr (.inr ⟨kind, name, created s.next submitted,
        s.created_uid_le submitted, by simp only [handle, heq]⟩)
  | update kind name submitted =>
    rcases s.update_cases kind name submitted with ⟨heq, _⟩ | ⟨existing, hlookup, _, heq⟩
    · exact .inl heq
    · simp only [handle, heq]
      have huid := s.updated_uid_le hlookup submitted
      rcases s.replace_cases name existing huid with
        ⟨_, heq'⟩ | ⟨_, _, heq'⟩ | ⟨_, _, heq'⟩
      · exact .inl (by rw [heq'])
      · exact .inr (.inl ⟨kind, name, by rw [heq']⟩)
      · exact .inr (.inr ⟨kind, name, updated existing submitted, huid, by rw [heq']⟩)
  | updateStatus kind name submitted =>
    rcases s.updateStatus_cases kind name submitted with ⟨heq, _⟩ | ⟨existing, hlookup, _, heq⟩
    · exact .inl heq
    · simp only [handle, heq]
      have huid := s.statusUpdated_uid_le hlookup submitted
      rcases s.replace_cases name existing huid with
        ⟨_, heq'⟩ | ⟨_, _, heq'⟩ | ⟨_, _, heq'⟩
      · exact .inl (by rw [heq'])
      · exact .inr (.inl ⟨kind, name, by rw [heq']⟩)
      · exact .inr (.inr ⟨kind, name, statusUpdated existing submitted, huid, by rw [heq']⟩)
  | delete kind name preconditions =>
    rcases s.delete_cases kind name preconditions with
      ⟨_, heq, _⟩ | ⟨existing, hlookup, _, ⟨_, heq⟩ | ⟨_, _, heq⟩ | ⟨_, _, heq⟩⟩
    · exact .inl (by simp only [handle, heq])
    · exact .inr (.inl ⟨kind, name, by simp only [handle, heq]⟩)
    · exact .inl (by simp only [handle, heq])
    · exact .inr (.inr ⟨kind, name, deleting existing,
        s.deleting_uid_le hlookup, by simp only [handle, heq]⟩)

end ApiServer

end apiserver
