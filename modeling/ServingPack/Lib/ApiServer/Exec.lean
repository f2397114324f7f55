import ServingPack.Lib.ApiServer.Handle

open golang

namespace apiserver

set_option linter.unusedSectionVars false

variable {Kind : Type} [DecidableEq Kind] {B : Kind → Type} [Resource B]
  [∀ kind, DecidableEq (B kind)]

/-- The errors a request can fail with besides the server's own answers. Only
the server says that an object is missing or already there; a kind of `absent`
can be unknown to the server while none of its objects is stored. -/
def Failure (absent : Kind → Prop) (s : ApiServer B) (request : Request B) (e : StatusError) :
    Prop :=
  e.reason = .other ∨ e.reason = .conflict ∨
    (e.reason = .noMatch ∧ absent request.kind ∧ ∀ name, s.lookup request.kind name = none)

/-- One request over an unreliable connection: answered by the server, failed
without effect, or carried out with its answer lost. -/
inductive Exec (absent : Kind → Prop) (s : ApiServer B) :
    (request : Request B) → Answer request → ApiServer B → Prop where
  | reply (request : Request B) : Exec absent s request (s.handle request).1 (s.handle request).2
  | fail {request : Request B} {e : StatusError} (hfailure : Failure absent s request e) :
      Exec absent s request (.error e) s
  | lost {request : Request B} {e : StatusError} (hother : e.reason = .other) :
      Exec absent s request (.error e) (s.handle request).2

variable {absent : Kind → Prop} {s s' : ApiServer B} {kind : Kind} {name : GoString}

/-- A request leaves every object but its target as it was. -/
theorem ApiServer.handle_frame (s : ApiServer B) (request : Request B)
    (h : request.target ≠ some (kind, name)) :
    (s.handle request).2.lookup kind name = s.lookup kind name := by
  cases request with
  | get kind' name' => rw [handle_get]
  | list kind' matching => rfl
  | create kind' name' submitted =>
    have hne : (kind, name) ≠ (kind', name') := fun heq => h (by simp [Request.target, heq])
    simp only [handle]
    rcases s.create_cases kind' name' submitted with ⟨_, _, heq⟩ | ⟨_, heq⟩
    · rw [heq]
    · rw [heq, lookup_put_ne _ _ hne]
  | update kind' name' submitted =>
    have hne : (kind, name) ≠ (kind', name') := fun heq => h (by simp [Request.target, heq])
    simp only [handle]
    rcases s.update_cases kind' name' submitted with ⟨heq, _⟩ | ⟨existing, hlookup, _, heq⟩
    · rw [heq]
    · rw [heq]
      exact s.replace_frame _ hne
  | updateStatus kind' name' submitted =>
    have hne : (kind, name) ≠ (kind', name') := fun heq => h (by simp [Request.target, heq])
    simp only [handle]
    rcases s.updateStatus_cases kind' name' submitted with ⟨heq, _⟩ | ⟨existing, hlookup, _, heq⟩
    · rw [heq]
    · rw [heq]
      exact s.replace_frame _ hne
  | delete kind' name' preconditions =>
    have hne : (kind, name) ≠ (kind', name') := fun heq => h (by simp [Request.target, heq])
    simp only [handle]
    rcases s.delete_cases kind' name' preconditions with
      ⟨_, heq, _⟩ | ⟨existing, hlookup, _, ⟨_, heq⟩ | ⟨_, _, heq⟩ | ⟨_, _, heq⟩⟩
    · rw [heq]
    · rw [heq, lookup_remove_ne _ hne]
    · rw [heq]
    · rw [heq, lookup_put_ne _ _ hne]

theorem Exec.frame {request : Request B} {a : Answer request} (h : Exec absent s request a s')
    (htarget : request.target ≠ some (kind, name)) : s'.lookup kind name = s.lookup kind name := by
  cases h with
  | reply => exact s.handle_frame request htarget
  | fail => rfl
  | lost => exact s.handle_frame request htarget

/-- An update leaves its target as it was, removes it, or stores what was
submitted over the version it was made from. -/
theorem ApiServer.update_target (s : ApiServer B) (submitted : Object (B kind)) :
    (s.update kind name submitted).2.lookup kind name = s.lookup kind name ∨
    (s.update kind name submitted).2.lookup kind name = none ∨
    ∃ existing, s.lookup kind name = some existing ∧
      submitted.metadata.resourceVersion = existing.metadata.resourceVersion ∧
      (s.update kind name submitted).2.lookup kind name = some
      (s.stamp (updated existing submitted)) := by
  rcases s.update_cases kind name submitted with ⟨hsame, _⟩ | ⟨existing, hlookup, hversion, heq⟩
  · exact .inl (by rw [hsame])
  · rw [heq]
    by_cases hne : updated existing submitted = existing
    · rcases s.replace_cases name existing (s.updated_uid_le hlookup submitted) with
        ⟨_, hrep⟩ | ⟨hne', _⟩ | ⟨hne', _⟩
      · exact .inl (by rw [hrep])
      · exact absurd hne hne'
      · exact absurd hne hne'
    · rcases s.lookup_replace_of_ne name (s.updated_uid_le hlookup submitted) hne with hnone | hsome
      · exact .inr (.inl hnone)
      · exact .inr (.inr ⟨existing, hlookup, hversion, hsome⟩)

theorem Exec.update {submitted : Object (B kind)} {a : Answer (.update kind name submitted)}
    (h : Exec absent s (.update kind name submitted) a s') :
    s'.lookup kind name = s.lookup kind name ∨ s'.lookup kind name = none ∨
    ∃ existing, s.lookup kind name = some existing ∧
      submitted.metadata.resourceVersion = existing.metadata.resourceVersion ∧
      s'.lookup kind name = some (s.stamp (updated existing submitted)) := by
  cases h with
  | reply => exact s.update_target submitted
  | fail => exact .inl rfl
  | lost => exact s.update_target submitted

/-- A status update leaves its target as it was, removes it, or stores the
submitted status over the version it was made from. -/
theorem Exec.updateStatus {submitted : Object (B kind)}
    {a : Answer (.updateStatus kind name submitted)}
    (h : Exec absent s (.updateStatus kind name submitted) a s') :
    s'.lookup kind name = s.lookup kind name ∨ s'.lookup kind name = none ∨
    ∃ existing, s.lookup kind name = some existing ∧
      submitted.metadata.resourceVersion = existing.metadata.resourceVersion ∧
      s'.lookup kind name = some (s.stamp (statusUpdated existing submitted)) := by
  have hhandled : (s.updateStatus kind name submitted).2.lookup kind name = s.lookup kind name ∨
      (s.updateStatus kind name submitted).2.lookup kind name = none ∨
      ∃ existing, s.lookup kind name = some existing ∧
        submitted.metadata.resourceVersion = existing.metadata.resourceVersion ∧
        (s.updateStatus kind name submitted).2.lookup kind name =
          some (s.stamp (statusUpdated existing submitted)) := by
    rcases s.updateStatus_cases kind name submitted
      with ⟨hsame, _⟩ | ⟨existing, hlookup, hversion, heq⟩
    · exact .inl (by rw [hsame])
    rw [heq]
    rcases s.replace_cases name existing (s.statusUpdated_uid_le hlookup submitted) with
      ⟨_, hrep⟩ | ⟨_, _, hrep⟩ | ⟨_, _, hrep⟩
    · exact .inl (by rw [hrep])
    · exact .inr (.inl (by rw [hrep, ApiServer.lookup_remove]))
    · exact .inr (.inr ⟨existing, hlookup, hversion, by rw [hrep, ApiServer.lookup_put]⟩)
  cases h with
  | reply => exact hhandled
  | fail => exact .inl rfl
  | lost => exact hhandled

/-- An accepted status update answers with the generation that is stored. -/
theorem Exec.updateStatus_ok {submitted stored : Object (B kind)}
    (h : Exec absent s (.updateStatus kind name submitted) (.ok stored) s') : ∃ existing,
      s.lookup kind name = some existing ∧
      submitted.metadata.resourceVersion = existing.metadata.resourceVersion ∧
      stored.metadata.generation = existing.metadata.generation := by
  generalize ha : (Except.ok stored : Answer (.updateStatus kind name submitted : Request B)) =
    a at h
  cases h with
  | reply =>
    simp only [ApiServer.handle] at ha
    rcases s.updateStatus_cases kind name submitted
      with ⟨_, e, heq⟩ | ⟨existing, hlookup, hversion, heq⟩
    · rw [heq] at ha
      cases ha
    rw [heq] at ha
    obtain rfl := Except.ok.inj ha
    refine ⟨existing, hlookup, hversion, ?_⟩
    rcases s.replace_cases name existing (s.statusUpdated_uid_le hlookup submitted) with
      ⟨_, hrep⟩ | ⟨_, _, hrep⟩ | ⟨_, _, hrep⟩
    · rw [hrep]
    · rw [hrep]
      rfl
    · rw [hrep]
      rfl
  | fail => cases ha
  | lost => cases ha

/-- A read changes nothing, and finds what is stored. -/
theorem Exec.get {a : Answer (.get kind name : Request B)}
    (h : Exec absent s (.get kind name) a s') :
    s' = s ∧ ∀ object, a = .ok object → s.lookup kind name = some object := by
  cases h with
  | reply =>
    refine ⟨s.handle_get kind name, fun object hok => ?_⟩
    simp only [ApiServer.handle] at hok
    split at hok
    · next found hfound => rw [hfound, Except.ok.inj hok]
    · cases hok
  | fail => exact ⟨rfl, by simp⟩
  | lost => exact ⟨s.handle_get kind name, by simp⟩

/-- A listing changes nothing, and finds what is stored. -/
theorem Exec.list {matching : GoMap GoString} {a : Answer (.list kind matching : Request B)}
    (h : Exec absent s (.list kind matching) a s') :
    s' = s ∧ ∀ all, a = .ok all → all = s.list kind matching := by
  cases h with
  | reply => exact ⟨rfl, fun all hok => (Except.ok.inj hok).symm⟩
  | fail => exact ⟨rfl, nofun⟩
  | lost => exact ⟨rfl, nofun⟩

/-- A read that misses an object, or its kind, has found nothing stored. -/
theorem Exec.get_absent {e : StatusError} (h : Exec absent s (.get kind name) (.error e) s')
    (hreason : e.reason = .notFound ∨ e.reason = .noMatch) : s.lookup kind name = none := by
  generalize ha : (Except.error e : Answer (.get kind name : Request B)) = a at h
  cases h with
  | reply =>
    simp only [ApiServer.handle] at ha
    split at ha
    · cases ha
    · next hnone => exact hnone
  | fail hfailure =>
    obtain rfl := Except.error.inj ha
    rcases hfailure with hother | hconflict | ⟨_, _, hnone⟩
    · simp [hother] at hreason
    · simp [hconflict] at hreason
    · exact hnone name
  | lost hother =>
    obtain rfl := Except.error.inj ha
    simp [hother] at hreason

/-- A delete that is told the object is gone has left none, where nothing holds it back. -/
theorem Exec.delete_gone {preconditions : Preconditions}
    {a : Answer (.delete kind name preconditions : Request B)}
    (h : Exec absent s (.delete kind name preconditions) a s')
    (hbare : ∀ existing, s.lookup kind name = some existing → existing.metadata.finalizers = [])
    (ha : a = .ok () ∨ ∃ e : StatusError, e.reason = .notFound ∧ a = .error e) :
    s'.lookup kind name = none := by
  cases h with
  | reply =>
    simp only [ApiServer.handle] at ha ⊢
    rcases s.delete_cases kind name preconditions with
      ⟨e, heq, hnone⟩ | ⟨existing, hlookup, _, ⟨_, heq⟩ | ⟨hfinalizers, _⟩ | ⟨hfinalizers, _⟩⟩
    · rw [heq] at ha ⊢
      rcases ha with hok | ⟨e', hreason, he⟩
      · cases hok
      · obtain rfl := Except.error.inj he
        exact hnone hreason
    · rw [heq, ApiServer.lookup_remove]
    · exact absurd (hbare existing hlookup) hfinalizers
    · exact absurd (hbare existing hlookup) hfinalizers
  | fail hfailure =>
    rcases ha with hok | ⟨e', hreason, he⟩
    · cases hok
    · obtain rfl := Except.error.inj he
      rcases hfailure with hother | hconflict | ⟨hnoMatch, _⟩
      · rw [hreason] at hother
        cases hother
      · rw [hreason] at hconflict
        cases hconflict
      · rw [hreason] at hnoMatch
        cases hnoMatch
  | lost hother =>
    rcases ha with hok | ⟨e', hreason, he⟩
    · cases hok
    · obtain rfl := Except.error.inj he
      rw [hreason] at hother
      cases hother

section Origin

/-- How the object a request leaves under a name has come there. -/
inductive Origin (s : ApiServer B) (kind : Kind) (name : GoString) :
    Request B → Object (B kind) → Prop where
  | kept {request : Request B} {object : Object (B kind)} (h : s.lookup kind name = some object) :
      Origin s kind name request object
  | created {submitted : Object (B kind)} (h : s.lookup kind name = none) :
      Origin s kind name (.create kind name submitted) (s.stamp (created s.next submitted))
  | updated {submitted existing : Object (B kind)} (h : s.lookup kind name = some existing)
      (hversion : submitted.metadata.resourceVersion = existing.metadata.resourceVersion) :
      Origin s kind name (.update kind name submitted) (s.stamp (updated existing submitted))
  | statusUpdated {submitted existing : Object (B kind)} (h : s.lookup kind name = some existing) :
      Origin s kind name (.updateStatus kind name submitted)
        (s.stamp (statusUpdated existing submitted))
  | deleting {preconditions : Preconditions} {existing : Object (B kind)}
    (h : s.lookup kind name = some existing)
      (hfinalizers : existing.metadata.finalizers ≠ []) :
      Origin s kind name (.delete kind name preconditions) (s.stamp (deleting existing))

/-- A write leaves its target as it was, removes it, or stores it anew. -/
theorem ApiServer.replace_origin (s : ApiServer B) {existing desired object : Object (B kind)}
    (huid : desired.metadata.uid ≤ s.next)
    (h : (s.replace name existing desired huid).2.lookup kind name = some object) :
    s.lookup kind name = some object ∨ object = s.stamp desired := by
  rcases s.replace_cases name existing huid with ⟨_, heq⟩ | ⟨_, _, heq⟩ | ⟨_, _, heq⟩
  · exact .inl (by rwa [heq] at h)
  · rw [heq, lookup_remove] at h
    cases h
  · rw [heq, lookup_put] at h
    exact .inr (Option.some.inj h).symm

theorem ApiServer.handle_origin (s : ApiServer B) (request : Request B) {object : Object (B kind)}
    (h : (s.handle request).2.lookup kind name = some object) :
    Origin s kind name request object := by
  by_cases htarget : request.target = some (kind, name)
  swap
  · rw [s.handle_frame request htarget] at h
    exact .kept h
  cases request with
  | get kind' name' => cases htarget
  | list kind' matching => cases htarget
  | create kind' name' submitted =>
    obtain ⟨rfl, rfl⟩ := Prod.mk.inj (Option.some.inj htarget)
    simp only [handle] at h
    rcases s.create_cases kind' name' submitted with ⟨_, _, heq⟩ | ⟨hnone, heq⟩
    · exact .kept (by rwa [heq] at h)
    · rw [heq, lookup_put] at h
      obtain rfl := Option.some.inj h
      exact .created hnone
  | update kind' name' submitted =>
    obtain ⟨rfl, rfl⟩ := Prod.mk.inj (Option.some.inj htarget)
    simp only [handle] at h
    rcases s.update_cases kind' name' submitted with ⟨heq, _⟩ | ⟨existing, hlookup, hversion, heq⟩
    · exact .kept (by rwa [heq] at h)
    · rw [heq] at h
      rcases s.replace_origin _ h with hkept | rfl
      · exact .kept hkept
      · exact .updated hlookup hversion
  | updateStatus kind' name' submitted =>
    obtain ⟨rfl, rfl⟩ := Prod.mk.inj (Option.some.inj htarget)
    simp only [handle] at h
    rcases s.updateStatus_cases kind' name' submitted with ⟨heq, _⟩ | ⟨existing, hlookup, _, heq⟩
    · exact .kept (by rwa [heq] at h)
    · rw [heq] at h
      rcases s.replace_origin _ h with hkept | rfl
      · exact .kept hkept
      · exact .statusUpdated hlookup
  | delete kind' name' preconditions =>
    obtain ⟨rfl, rfl⟩ := Prod.mk.inj (Option.some.inj htarget)
    simp only [handle] at h
    rcases s.delete_cases kind' name' preconditions with
      ⟨_, heq, _⟩ | ⟨existing, hlookup, _, ⟨_, heq⟩ | ⟨_, _, heq⟩ | ⟨hfinalizers, _, heq⟩⟩
    · exact .kept (by rwa [heq] at h)
    · rw [heq, lookup_remove] at h
      cases h
    · exact .kept (by rwa [heq] at h)
    · rw [heq, lookup_put] at h
      obtain rfl := Option.some.inj h
      exact .deleting hlookup hfinalizers

theorem Exec.origin {request : Request B} {a : Answer request} {object : Object (B kind)}
    (h : Exec absent s request a s') (hobject : s'.lookup kind name = some object) :
    Origin s kind name request object := by
  cases h with
  | reply => exact s.handle_origin request hobject
  | fail => exact .kept hobject
  | lost => exact s.handle_origin request hobject

/-- Only a create brings an object where there was none. -/
theorem Origin.create_of_none {request : Request B} {object : Object (B kind)}
    (h : Origin s kind name request object) (hnone : s.lookup kind name = none) :
    ∃ submitted, request = .create kind name submitted := by
  cases h with
  | kept hsome => rw [hnone] at hsome; cases hsome
  | created => exact ⟨_, rfl⟩
  | updated hsome => rw [hnone] at hsome; cases hsome
  | statusUpdated hsome => rw [hnone] at hsome; cases hsome
  | deleting hsome => rw [hnone] at hsome; cases hsome

end Origin

section Unfinished

/-- No object whose deletion is complete is stored. -/
def ApiServer.Unfinished (s : ApiServer B) : Prop :=
  ∀ kind name (object : Object (B kind)), s.lookup kind name = some object → finished object = false

private theorem ApiServer.Unfinished.put (h : s.Unfinished) {object : Object (B kind)}
    (huid : object.metadata.uid ≤ s.next)
    (hobject : finished object = false) : (s.put kind name object huid).Unfinished := by
  intro kind' name' object' hlookup
  by_cases hkey : (kind', name') = (kind, name)
  · obtain ⟨rfl, rfl⟩ := Prod.mk.inj hkey
    rw [lookup_put] at hlookup
    obtain rfl := Option.some.inj hlookup
    exact hobject
  · rw [s.lookup_put_ne huid hkey] at hlookup
    exact h kind' name' object' hlookup

private theorem ApiServer.Unfinished.remove (h : s.Unfinished) (kind : Kind) (name : GoString) :
    (s.remove kind name).Unfinished := by
  intro kind' name' object' hlookup
  by_cases hkey : (kind', name') = (kind, name)
  · obtain ⟨rfl, rfl⟩ := Prod.mk.inj hkey
    rw [lookup_remove] at hlookup
    cases hlookup
  · rw [s.lookup_remove_ne hkey] at hlookup
    exact h kind' name' object' hlookup

private theorem ApiServer.Unfinished.replace (h : s.Unfinished) {existing desired : Object (B kind)}
    (huid : desired.metadata.uid ≤ s.next) :
    (s.replace name existing desired huid).2.Unfinished := by
  rcases s.replace_cases name existing huid with ⟨_, heq⟩ | ⟨_, _, heq⟩ | ⟨_, hunfinished, heq⟩
  · rwa [heq]
  · rw [heq]
    exact h.remove kind name
  · rw [heq]
    exact h.put huid hunfinished

theorem ApiServer.Unfinished.handle (h : s.Unfinished) (request : Request B) :
    (s.handle request).2.Unfinished := by
  cases request with
  | get kind name => rwa [s.handle_get]
  | list kind matching => exact h
  | create kind name submitted =>
    simp only [ApiServer.handle]
    rcases s.create_cases kind name submitted with ⟨_, _, heq⟩ | ⟨_, heq⟩
    · rwa [heq]
    · rw [heq]
      exact h.put (s.created_uid_le submitted) rfl
  | update kind name submitted =>
    simp only [ApiServer.handle]
    rcases s.update_cases kind name submitted with ⟨heq, _⟩ | ⟨existing, hlookup, _, heq⟩
    · rwa [heq]
    · rw [heq]
      exact h.replace (s.updated_uid_le hlookup submitted)
  | updateStatus kind name submitted =>
    simp only [ApiServer.handle]
    rcases s.updateStatus_cases kind name submitted with ⟨heq, _⟩ | ⟨existing, hlookup, _, heq⟩
    · rwa [heq]
    · rw [heq]
      exact h.replace (s.statusUpdated_uid_le hlookup submitted)
  | delete kind name preconditions =>
    simp only [ApiServer.handle]
    rcases s.delete_cases kind name preconditions with
      ⟨_, heq, _⟩ | ⟨existing, hlookup, _, ⟨_, heq⟩ | ⟨_, _, heq⟩ | ⟨hfinalizers, _, heq⟩⟩
    · rwa [heq]
    · rw [heq]
      exact h.remove kind name
    · rwa [heq]
    · rw [heq]
      refine h.put (s.deleting_uid_le hlookup) ?_
      rw [finished, deleting, Bool.true_and, List.isEmpty_eq_false_iff]
      exact hfinalizers

theorem Exec.unfinished {request : Request B} {a : Answer request} (h : Exec absent s request a s')
    (hunfinished : s.Unfinished) : s'.Unfinished := by
  cases h with
  | reply => exact hunfinished.handle request
  | fail => exact hunfinished
  | lost => exact hunfinished.handle request

/-- A create leaves its target as it was, or stores the object where there was none. -/
theorem Exec.create {submitted : Object (B kind)} {a : Answer (.create kind name submitted)}
    (h : Exec absent s (.create kind name submitted) a s') :
    s'.lookup kind name = s.lookup kind name ∨
      s.lookup kind name = none ∧
      s'.lookup kind name = some (s.stamp (created s.next submitted)) := by
  have hhandled : (s.handle (.create kind name submitted)).2.lookup kind name = s.lookup kind name ∨
      s.lookup kind name = none ∧
      (s.handle (.create kind name submitted)).2.lookup kind name =
        some (s.stamp (created s.next submitted)) := by
    simp only [ApiServer.handle]
    rcases s.create_cases kind name submitted with ⟨_, _, heq⟩ | ⟨hnone, heq⟩
    · exact .inl (by rw [heq])
    · exact .inr ⟨hnone, by rw [heq, ApiServer.lookup_put]⟩
  cases h with
  | reply => exact hhandled
  | fail => exact .inl rfl
  | lost => exact hhandled

/-- An update from a copy of an object stores the copy's new contents over that
object, or leaves the server as it was. -/
theorem Exec.update_copy {submitted : Object (B kind)} {a : Answer (.update kind name submitted)}
    (h : Exec absent s (.update kind name submitted) a s') (copy : Object (B kind))
    (hunfinished : s.Unfinished) (hpast : ∀ current, s.lookup kind name = some current →
      current.metadata.resourceVersion = copy.metadata.resourceVersion → current = copy)
    (hcopied : submitted.metadata.resourceVersion = copy.metadata.resourceVersion)
    (hfinalizers : submitted.metadata.finalizers = copy.metadata.finalizers) :
    (s'.lookup kind name = s.lookup kind name ∧ ∃ e, a = .error e) ∨
    s.lookup kind name = some copy ∧ ∃ object, s'.lookup kind name = some object ∧
      object.body = Resource.update kind copy.body submitted.body := by
  have hhandled :
    ((s.handle (.update kind name submitted)).2.lookup kind name = s.lookup kind name ∧
      ∃ e, (s.handle (.update kind name submitted)).1 = .error e) ∨
      s.lookup kind name = some copy ∧
        ∃ object, (s.handle (.update kind name submitted)).2.lookup kind name = some object ∧
        object.body = Resource.update kind copy.body submitted.body := by
    simp only [ApiServer.handle]
    rcases s.update_cases kind name submitted
      with ⟨hsame, e, he⟩ | ⟨existing, hlookup, hversion, heq⟩
    · exact .inl ⟨by rw [hsame], e, he⟩
    · obtain rfl := hpast existing hlookup (hversion.symm.trans hcopied)
      refine .inr ⟨hlookup, ?_⟩
      rw [heq]
      rcases s.replace_cases name existing (s.updated_uid_le hlookup submitted) with
        ⟨hsame, hrep⟩ | ⟨_, hfinished, _⟩ | ⟨_, _, hrep⟩
      · exact ⟨existing, by rw [hrep, hlookup], (congrArg Object.body hsame).symm⟩
      · have hkept : finished (updated existing submitted) = finished existing := by
          simp [finished, updated, hfinalizers]
        rw [hkept, hunfinished kind name existing hlookup] at hfinished
        cases hfinished
      · exact ⟨_, by rw [hrep, ApiServer.lookup_put], rfl⟩
  cases h with
  | reply => exact hhandled
  | fail => exact .inl ⟨rfl, _, rfl⟩
  | lost =>
    rcases hhandled with ⟨hsame, _⟩ | hstored
    · exact .inl ⟨hsame, _, rfl⟩
    · exact .inr hstored

end Unfinished

section Accepted

/-- A create that was accepted has stored the object. -/
theorem Exec.create_ok {submitted stored : Object (B kind)}
    (h : Exec absent s (.create kind name submitted) (.ok stored) s') :
    s'.lookup kind name = some (s.stamp (created s.next submitted)) := by
  generalize ha : (Except.ok stored : Answer (.create kind name submitted : Request B)) = a at h
  cases h with
  | reply =>
    simp only [ApiServer.handle] at ha ⊢
    rcases s.create_cases kind name submitted with ⟨_, _, heq⟩ | ⟨_, heq⟩
    · rw [heq] at ha
      cases ha
    · rw [heq, ApiServer.lookup_put]
  | fail => cases ha
  | lost => cases ha

/-- A create that is told the object is already there has found one. -/
theorem Exec.create_exists {submitted : Object (B kind)} {e : StatusError}
    (h : Exec absent s (.create kind name submitted) (.error e) s')
    (hreason : e.reason = .alreadyExists) :
    s.lookup kind name ≠ none := by
  generalize ha : (Except.error e : Answer (.create kind name submitted : Request B)) = a at h
  cases h with
  | reply =>
    simp only [ApiServer.handle] at ha
    obtain ⟨existing, hfound, -⟩ | ⟨-, heq⟩ := s.create_cases kind name submitted
    · rw [hfound]
      exact Option.some_ne_none existing
    · rw [heq] at ha
      cases ha
  | fail hfailure =>
    obtain rfl := Except.error.inj ha
    simp [Failure, hreason] at hfailure
  | lost hother =>
    obtain rfl := Except.error.inj ha
    rw [hreason] at hother
    cases hother

/-- An update that was accepted has stored the contents, unless it completed a deletion. -/
theorem Exec.update_ok {submitted stored : Object (B kind)}
    (h : Exec absent s (.update kind name submitted) (.ok stored) s')
    (hlive : ∀ existing, s.lookup kind name = some existing →
      existing.metadata.deletionTimestamp = false) :
    ∃ existing object, s.lookup kind name = some existing ∧ s'.lookup kind name = some object ∧
      object.body = Resource.update kind existing.body submitted.body := by
  generalize ha : (Except.ok stored : Answer (.update kind name submitted : Request B)) = a at h
  cases h with
  | reply =>
    simp only [ApiServer.handle] at ha ⊢
    rcases s.update_cases kind name submitted with ⟨_, e, heq⟩ | ⟨existing, hlookup, _, heq⟩
    · rw [heq] at ha
      cases ha
    · rw [heq]
      refine ⟨existing, ?_⟩
      rcases s.replace_cases name existing (s.updated_uid_le hlookup submitted) with
        ⟨hsame, hrep⟩ | ⟨_, hfinished, _⟩ | ⟨_, _, hrep⟩
      · exact ⟨existing, hlookup, by rw [hrep, hlookup], (congrArg Object.body hsame).symm⟩
      · simp [finished, updated, hlive existing hlookup] at hfinished
      · exact ⟨_, hlookup, by rw [hrep, ApiServer.lookup_put], rfl⟩
  | fail => cases ha
  | lost => cases ha

/-- An update that was accepted has replaced an object that is not being deleted. -/
theorem Exec.update_stored {existing submitted stored : Object (B kind)}
    (h : Exec absent s (.update kind name submitted) (.ok stored) s')
    (hfound : s.lookup kind name = some existing)
    (hlive : existing.metadata.deletionTimestamp = false) :
    ∃ object, s'.lookup kind name = some object ∧ object.metadata.uid = existing.metadata.uid ∧
      object.metadata.annotations = submitted.metadata.annotations ∧
      object.body = Resource.update kind existing.body submitted.body := by
  generalize ha : (Except.ok stored : Answer (.update kind name submitted : Request B)) = a at h
  cases h with
  | reply =>
    simp only [ApiServer.handle] at ha ⊢
    obtain ⟨_, e, heq⟩ | ⟨existing', hlookup, _, heq⟩ := s.update_cases kind name submitted
    · rw [heq] at ha
      cases ha
    · obtain rfl := Option.some.inj (hlookup.symm.trans hfound)
      rw [heq]
      obtain ⟨hsame, hrep⟩ | ⟨_, hfinished, _⟩ | ⟨_, _, hrep⟩ :=
        s.replace_cases name existing' (s.updated_uid_le hlookup submitted)
      · refine ⟨updated existing' submitted, ?_, rfl, rfl, rfl⟩
        rw [hrep, hlookup, hsame]
      · simp [finished, updated, hlive] at hfinished
      · exact ⟨s.stamp (updated existing' submitted), by
          rw [hrep, ApiServer.lookup_put], rfl, rfl, rfl⟩
  | fail => cases ha
  | lost => cases ha

/-- A delete that was accepted has begun the deletion of an object that finalizers hold back. -/
theorem Exec.delete_held {existing : Object (B kind)}
    {a : Answer (.delete kind name {} : Request B)}
    (h : Exec absent s (.delete kind name {}) a s') (hfound : s.lookup kind name = some existing)
    (hfinalizers : existing.metadata.finalizers ≠ [])
    (ha : a = .ok () ∨ ∃ e : StatusError, e.reason = .notFound ∧ a = .error e) :
    ∃ object, s'.lookup kind name = some object ∧ object.metadata.uid = existing.metadata.uid ∧
      object.metadata.deletionTimestamp = true := by
  cases h with
  | reply =>
    simp only [ApiServer.handle] at ha ⊢
    obtain ⟨e, heq, hnone⟩ | ⟨existing', hlookup, _,
      ⟨hempty, _⟩ | ⟨_, hdeleting, heq⟩ | ⟨_, _, heq⟩⟩ :=
      s.delete_cases kind name {}
    · rw [heq] at ha
      obtain hok | ⟨e', hreason, he⟩ := ha
      · cases hok
      · obtain rfl := Except.error.inj he
        rw [hnone hreason] at hfound
        cases hfound
    · obtain rfl := Option.some.inj (hlookup.symm.trans hfound)
      exact absurd hempty hfinalizers
    · obtain rfl := Option.some.inj (hlookup.symm.trans hfound)
      exact ⟨existing', by rw [heq, hlookup], rfl, hdeleting⟩
    · obtain rfl := Option.some.inj (hlookup.symm.trans hfound)
      exact ⟨s.stamp (deleting existing'), by rw [heq, ApiServer.lookup_put], rfl, rfl⟩
  | fail hfailure =>
    obtain hok | ⟨e', hreason, he⟩ := ha
    · cases hok
    · obtain rfl := Except.error.inj he
      simp [Failure, hreason] at hfailure
  | lost hother =>
    obtain hok | ⟨e', hreason, he⟩ := ha
    · cases hok
    · obtain rfl := Except.error.inj he
      rw [hreason] at hother
      cases hother

/-- What a write leaves of an object that is not being deleted. -/
inductive Kept (s : ApiServer B) (kind : Kind) (name : GoString) (object : Object (B kind)) :
    Request B → Object (B kind) → Prop where
  | same {request : Request B} : Kept s kind name object request object
  | updated {submitted : Object (B kind)}
      (hversion : submitted.metadata.resourceVersion = object.metadata.resourceVersion) :
      Kept s kind name object (.update kind name submitted) (s.stamp (updated object submitted))
  | statusUpdated {submitted : Object (B kind)} :
      Kept s kind name object (.updateStatus kind name submitted)
        (s.stamp (statusUpdated object submitted))

variable {object : Object (B kind)}

theorem Kept.live {request : Request B} {object' : Object (B kind)}
    (h : Kept s kind name object request object')
    (hlive : object.metadata.deletionTimestamp = false) :
    object'.metadata.deletionTimestamp = false := by
  cases h with
  | same => exact hlive
  | updated => exact hlive
  | statusUpdated => exact hlive

/-- Only a delete takes away an object that is not being deleted. -/
theorem ApiServer.handle_kept (s : ApiServer B) (request : Request B)
    (hdelete : ∀ p, request ≠ .delete kind name p) (hobject : s.lookup kind name = some object)
    (hlive : object.metadata.deletionTimestamp = false) :
    ∃ object', (s.handle request).2.lookup kind name = some object' ∧
    Kept s kind name object request object' := by
  by_cases htarget : request.target = some (kind, name)
  swap
  · exact ⟨object, by rw [s.handle_frame request htarget, hobject], .same⟩
  cases request with
  | get kind' name' => cases htarget
  | list kind' matching => cases htarget
  | create kind' name' submitted =>
    obtain ⟨rfl, rfl⟩ := Prod.mk.inj (Option.some.inj htarget)
    rcases s.create_cases kind' name' submitted with ⟨_, _, heq⟩ | ⟨hnone, _⟩
    · exact ⟨object, by simp only [handle, heq, hobject], .same⟩
    · rw [hobject] at hnone
      cases hnone
  | update kind' name' submitted =>
    obtain ⟨rfl, rfl⟩ := Prod.mk.inj (Option.some.inj htarget)
    simp only [handle]
    rcases s.update_cases kind' name' submitted with ⟨heq, _⟩ | ⟨existing, hlookup, hversion, heq⟩
    · exact ⟨object, by rw [heq, hobject], .same⟩
    · obtain rfl := Option.some.inj (hlookup.symm.trans hobject)
      rw [heq]
      rcases s.replace_cases name' existing (s.updated_uid_le hlookup submitted) with
        ⟨_, hrep⟩ | ⟨_, hfinished, _⟩ | ⟨_, _, hrep⟩
      · exact ⟨existing, by rw [hrep, hobject], .same⟩
      · simp [finished, apiserver.updated, hlive] at hfinished
      · exact ⟨_, by rw [hrep, lookup_put], .updated hversion⟩
  | updateStatus kind' name' submitted =>
    obtain ⟨rfl, rfl⟩ := Prod.mk.inj (Option.some.inj htarget)
    simp only [handle]
    rcases s.updateStatus_cases kind' name' submitted with ⟨heq, _⟩ | ⟨existing, hlookup, _, heq⟩
    · exact ⟨object, by rw [heq, hobject], .same⟩
    · obtain rfl := Option.some.inj (hlookup.symm.trans hobject)
      rw [heq]
      rcases s.replace_cases name' existing (s.statusUpdated_uid_le hlookup submitted) with
        ⟨_, hrep⟩ | ⟨_, hfinished, _⟩ | ⟨_, _, hrep⟩
      · exact ⟨existing, by rw [hrep, hobject], .same⟩
      · simp [finished, apiserver.statusUpdated, hlive] at hfinished
      · exact ⟨_, by rw [hrep, lookup_put], .statusUpdated⟩
  | delete kind' name' preconditions =>
    obtain ⟨rfl, rfl⟩ := Prod.mk.inj (Option.some.inj htarget)
    exact absurd rfl (hdelete preconditions)

theorem Exec.kept {request : Request B} {a : Answer request} (h : Exec absent s request a s')
    (hdelete : ∀ p, request ≠ .delete kind name p) (hobject : s.lookup kind name = some object)
    (hlive : object.metadata.deletionTimestamp = false) :
    ∃ object', s'.lookup kind name = some object' ∧ Kept s kind name object request object' := by
  cases h with
  | reply => exact s.handle_kept request hdelete hobject hlive
  | fail => exact ⟨object, hobject, .same⟩
  | lost => exact s.handle_kept request hdelete hobject hlive

end Accepted

/-- What a request creates. -/
def ApiServer.appeared (s s' : ApiServer B) : Request B → List (Kind × GoString)
  | .create kind name _ =>
    if (s.lookup kind name).isNone && (s'.lookup kind name).isSome then [(kind, name)] else []
  | _ => []

section Past

/-- An object that was stored under its name at some time: the one stored now
either is this object or has another version. -/
def Past (s : ApiServer B) (kind : Kind) (name : GoString) (object : Object (B kind)) : Prop :=
  object.metadata.resourceVersion < s.next ∧
    ∀ current : Object (B kind), s.lookup kind name = some current →
      current.metadata.resourceVersion = object.metadata.resourceVersion → current = object

theorem Past.of_lookup {object : Object (B kind)} (h : s.lookup kind name = some object) :
    Past s kind name object :=
  ⟨s.version_lt h, fun _ hcurrent _ => Option.some.inj (hcurrent.symm.trans h)⟩

theorem Past.handle {object : Object (B kind)} (h : Past s kind name object) (request : Request B) :
    Past (s.handle request).2 kind name object := by
  rcases s.handle_cases request with heq | ⟨kind', name', heq⟩ | ⟨kind', name', stored, huid, heq⟩
  · rwa [heq]
  · rw [heq]
    refine ⟨h.1, fun current hcurrent hversion => ?_⟩
    by_cases hkey : (kind, name) = (kind', name')
    · obtain ⟨rfl, rfl⟩ := Prod.mk.inj hkey
      rw [ApiServer.lookup_remove] at hcurrent
      cases hcurrent
    · rw [s.lookup_remove_ne hkey] at hcurrent
      exact h.2 current hcurrent hversion
  · rw [heq]
    refine ⟨Nat.lt_succ_of_lt h.1, fun current hcurrent hversion => ?_⟩
    by_cases hkey : (kind, name) = (kind', name')
    · obtain ⟨rfl, rfl⟩ := Prod.mk.inj hkey
      rw [ApiServer.lookup_put] at hcurrent
      obtain rfl := Option.some.inj hcurrent
      exact absurd hversion h.1.ne'
    · rw [s.lookup_put_ne huid hkey] at hcurrent
      exact h.2 current hcurrent hversion

theorem Past.exec {object : Object (B kind)} {request : Request B} {a : Answer request}
    (h : Past s kind name object)
    (hexec : Exec absent s request a s') : Past s' kind name object := by
  cases hexec with
  | reply => exact h.handle request
  | fail => exact h
  | lost => exact h.handle request

/-- What a request leaves is what was there, or of a new version. -/
theorem Origin.version {request : Request B} {object : Object (B kind)}
    (h : Origin s kind name request object) :
    s.lookup kind name = some object ∨ object.metadata.resourceVersion = s.next := by
  cases h with
  | kept hsame => exact .inl hsame
  | created => exact .inr rfl
  | updated => exact .inr rfl
  | statusUpdated => exact .inr rfl
  | deleting => exact .inr rfl

/-- The object stored now is of another version, if there is one. -/
def Superseded (s : ApiServer B) (kind : Kind) (name : GoString) (object : Object (B kind)) :
    Prop :=
  ∀ current : Object (B kind), s.lookup kind name = some current →
    current.metadata.resourceVersion ≠ object.metadata.resourceVersion

theorem Superseded.exec {object : Object (B kind)} {request : Request B} {a : Answer request}
    (h : Superseded s kind name object) (hpast : Past s kind name object)
    (hexec : Exec absent s request a s') :
    Superseded s' kind name object := by
  intro current hcurrent
  rcases (hexec.origin hcurrent).version with hsame | hnew
  · exact h current hsame
  · rw [hnew]
    exact hpast.1.ne'

/-- A change supersedes all that was stored before. -/
theorem Past.superseded {object : Object (B kind)} {request : Request B} {a : Answer request}
    (hpast : Past s kind name object) (hexec : Exec absent s request a s')
    (hchange : s'.lookup kind name ≠ s.lookup kind name) : Superseded s' kind name object := by
  intro current hcurrent
  rcases (hexec.origin hcurrent).version with hsame | hnew
  · rw [hcurrent, hsame] at hchange
    exact absurd rfl hchange
  · rw [hnew]
    exact hpast.1.ne'

end Past

end apiserver
