import ServingPack.Lib.ApiServer.Exec

open golang

namespace apiserver

set_option linter.unusedSectionVars false

variable {Kind : Type} [DecidableEq Kind] {B : Kind → Type} [Resource B]
  [∀ kind, DecidableEq (B kind)]

/-- A server and what it was at earlier times. -/
structure History (B : Kind → Type) where
  current : ApiServer B
  past : List (ApiServer B)

def History.advance (h : History B) (s : ApiServer B) : History B := ⟨s, h.current :: h.past⟩

/-- One request of a client that reads some kinds from a cache: a read of such a
kind is answered as the server would have answered it at some earlier time. -/
inductive Observed (absent : Kind → Prop) (cached : Kind → Bool) (h : History B) :
    (request : Request B) → Answer request → History B → Prop where
  | direct {request : Request B} {a : Answer request} {s : ApiServer B}
    (hexec : Exec absent h.current request a s) :
      Observed absent cached h request a (h.advance s)
  | cachedGet {kind : Kind} {name : GoString} {s : ApiServer B} (hcached : cached kind = true)
    (hpast : s ∈ h.past) :
      Observed absent cached h (.get kind name) (s.handle (.get kind name)).1 h
  | cachedList {kind : Kind} {matching : GoMap GoString} {s : ApiServer B}
    (hcached : cached kind = true)
      (hpast : s ∈ h.past) :
        Observed absent cached h (.list kind matching) (s.handle (.list kind matching)).1 h

variable {absent : Kind → Prop} {cached : Kind → Bool} {h h' : History B} {kind : Kind}
  {name : GoString}

section Coherent

/-- What was stored at an earlier time is a past object now. -/
def History.Coherent (h : History B) : Prop :=
  ∀ s ∈ h.past, ∀ kind name (object : Object (B kind)), s.lookup kind name = some object →
    Past h.current kind name object

theorem History.Coherent.advance (hc : h.Coherent) {request : Request B} {a : Answer request}
    {s : ApiServer B} (hexec : Exec absent h.current request a s) : (h.advance s).Coherent := by
  intro earlier hmem kind name object hlookup
  rcases List.mem_cons.mp hmem with rfl | hpast
  · exact (Past.of_lookup hlookup).exec hexec
  · exact (hc earlier hpast kind name object hlookup).exec hexec

theorem History.Coherent.observed (hc : h.Coherent) {request : Request B} {a : Answer request}
    (hobserved : Observed absent cached h request a h') : h'.Coherent := by
  cases hobserved with
  | direct hexec => exact hc.advance hexec
  | cachedGet => exact hc
  | cachedList => exact hc

theorem Past.observed {object : Object (B kind)} (hpast : Past h.current kind name object)
    {request : Request B} {a : Answer request} (hobserved : Observed absent cached h request a h') :
    Past h'.current kind name object := by
  cases hobserved with
  | direct hexec => exact hpast.exec hexec
  | cachedGet => exact hpast
  | cachedList => exact hpast

/-- What a read finds, in the cache or on the server, was stored at some time. -/
theorem History.Coherent.read (hc : h.Coherent) {object : Object (B kind)}
    (hobserved : Observed absent cached h (.get kind name) (.ok object) h') :
    Past h.current kind name object := by
  generalize ha : (Except.ok object : Answer (.get kind name : Request B)) = a at hobserved
  cases hobserved with
  | direct hexec => exact Past.of_lookup (hexec.get.2 object ha.symm)
  | @cachedGet _ _ s hcached hpast =>
    simp only [ApiServer.handle] at ha
    split at ha
    · next found hfound =>
      obtain rfl := Except.ok.inj ha
      exact hc s hpast kind name object hfound
    · cases ha

end Coherent

theorem Observed.origin {request : Request B} {a : Answer request} {object : Object (B kind)}
    (hobserved : Observed absent cached h request a h')
    (hobject : h'.current.lookup kind name = some object) :
    Origin h.current kind name request object := by
  cases hobserved with
  | direct hexec => exact hexec.origin hobject
  | cachedGet => exact .kept hobject
  | cachedList => exact .kept hobject

/-- A request that does not target an object leaves it as it was. -/
theorem Observed.frame {request : Request B} {a : Answer request}
    (hobserved : Observed absent cached h request a h')
    (htarget : request.target ≠ some (kind, name)) :
    h'.current.lookup kind name = h.current.lookup kind name := by
  cases hobserved with
  | direct hexec => exact hexec.frame htarget
  | cachedGet => rfl
  | cachedList => rfl

theorem Observed.kept {request : Request B} {a : Answer request} {object : Object (B kind)}
    (hobserved : Observed absent cached h request a h')
    (hdelete : ∀ p, request ≠ .delete kind name p)
    (hobject : h.current.lookup kind name = some object)
    (hlive : object.metadata.deletionTimestamp = false) :
    ∃ object', h'.current.lookup kind name = some object' ∧
    Kept h.current kind name object request object' := by
  cases hobserved with
  | direct hexec => exact hexec.kept hdelete hobject hlive
  | cachedGet => exact ⟨object, hobject, .same⟩
  | cachedList => exact ⟨object, hobject, .same⟩

theorem Observed.exec_of_target {request : Request B} {a : Answer request}
    (hobserved : Observed absent cached h request a h') (htarget : request.target ≠ none) :
    Exec absent h.current request a h'.current := by
  cases hobserved with
  | direct hexec => exact hexec
  | cachedGet => exact absurd rfl htarget
  | cachedList => exact absurd rfl htarget

/-- Only the server says that a kind is unknown, and only of a kind that can be. -/
theorem Observed.noMatch {request : Request B} {a : Answer request}
    (hobserved : Observed absent cached h request a h')
    {e : StatusError} (ha : a = .error e) (hreason : e.reason = .noMatch) :
    absent request.kind := by
  have hreply : ∀ (s : ApiServer B) (request : Request B), (s.handle request).1 = .error e →
      False := by
    intro s request heq
    have herror := s.handle_error heq
    rw [hreason] at herror
    rcases herror with h | h | h | h <;> cases h
  cases hobserved with
  | direct hexec =>
    cases hexec with
    | reply => exact (hreply _ _ ha).elim
    | fail hfailure =>
      obtain rfl := Except.error.inj ha
      rcases hfailure with hother | hconflict | ⟨_, habsent, _⟩
      · rw [hreason] at hother; cases hother
      · rw [hreason] at hconflict; cases hconflict
      · exact habsent
    | lost hother =>
      obtain rfl := Except.error.inj ha
      rw [hreason] at hother
      cases hother
  | cachedGet => exact (hreply _ _ ha).elim
  | cachedList => exact (hreply _ _ ha).elim

end apiserver
