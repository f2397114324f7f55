import ServingPack.Lib.ApiServer.Exec
import ServingPack.Lib.Protocol
import ServingPack.Webhook.Validators

open golang apiserver concurrency kube v1alpha1 reconcilers controller

namespace webhook

/-- The kind that shares its names with a kind of model. -/
def other : Kind → Option Kind
  | .llmModel => some .passthroughModel
  | .passthroughModel => some .llmModel
  | _ => none

namespace Validator

variable (v : Validator)

/-- The validating webhook of a kind. The kinds that are not models have none. -/
def validate : (kind : Kind) → GoString → Body kind → Call (List GoString)
  | .llmModel, name, model => v.validateLLMModel name model.spec
  | .passthroughModel, name, pm => v.validatePassthroughModel name pm.spec
  | _, _, _ => pure []

/-- What the webhook asks of the submitted object alone. -/
def Passes : (kind : Kind) → GoString → Body kind → Prop
  | .llmModel, name, model =>
    v.validateOperatorNamespace llmTexts = .ok () ∧
      validateAccess llmTexts model.spec.access = .ok () ∧
      (effectiveSubdomain v.sha256 name model.spec).map (fun _ => ()) = .ok ()
  | .passthroughModel, _, pm =>
    v.validateOperatorNamespace passthroughTexts = .ok () ∧
      validateAccess passthroughTexts pm.spec.access = .ok () ∧
      v.validateProvider pm.spec = .ok () ∧ validateModels pm.spec = .ok () ∧
        validateEndpoints pm.spec = .ok ()
  | _, _, _ => True

end Validator

/-- A write the API server sends through admission. -/
inductive Write where
  | create (kind : Kind) (name : GoString) (object : Object (Body kind))
  | update (kind : Kind) (name : GoString) (object : Object (Body kind))

/-- The webhook's checks, one read after the other, and then the write. -/
def Write.program (v : Validator) : Write → Program (Request Body) Answer (Except StatusError Unit)
  | .create kind name object => (do
      let _ ← v.validate kind name object.body
      let _ ← controller.create kind name object
      pure () : Call Unit).run
  | .update kind name object => (do
      let _ ← v.validate kind name object.body
      let _ ← controller.update kind name object
      pure () : Call Unit).run

structure State where
  cluster : Cluster
  /-- What was created since each request's last read. -/
  since : Nat → List (Kind × GoString)

/-- What was created since each request's last read, once a request has left `cluster`. -/
def watched (i : Nat) (s : State) (cluster : Cluster) : Request Body → Nat → List (Kind × GoString)
  | .get _ _ => Function.update s.since i []
  | .create kind name _ =>
    if (s.cluster.lookup kind name).isNone && (cluster.lookup kind name).isSome then
      fun j => (kind, name) :: s.since j
    else s.since
  | _ => s.since

/-- Whether a request passes no webhook: deletes and updates of the status subresource. -/
def unchecked : Request Body → Bool
  | .updateStatus _ _ _ => true
  | .delete _ _ _ => true
  | _ => false

/-- Any number of concurrent writes through admission, and any other requests
between their steps. Every request can fail. -/
def machine (v : Validator) :
    Machine State (Request Body) Answer (Except StatusError Unit) Nat where
  start _ s p s' := s' = s ∧ ∃ write : Write, p = write.program v
  exec i s q a s' := Exec (fun _ => True) s.cluster q a s'.cluster ∧
    s'.since = watched i s s'.cluster q
  finish _ s _ s' := s' = s
  env s s' := s'.since = s.since ∧
    ∃ (q : Request Body) (a : Answer q), unchecked q = true ∧
      Exec (fun _ => True) s.cluster q a s'.cluster

/-- No model of either kind is there. -/
def NoModels (s : State) : Prop :=
  ∀ kind name, (other kind).isSome = true → s.cluster.lookup kind name = none

/-- How far a request's webhook has come: whether its last read found no object. -/
inductive Phase where
  | quiet
  | absent (kind : Kind) (name : GoString)

def allowed (v : Validator) (φ : Phase) : Request Body → Prop
  | .get _ _ => True
  | .create kind name object =>
    v.Passes kind name object.body ∧ ∀ kind', other kind = some kind' → φ = .absent kind' name
  | .update kind name object => v.Passes kind name object.body
  | _ => False

def next (φ : Phase) : (q : Request Body) → Answer q → Phase
  | .get kind name, .error e => if e.reason = .notFound ∨ e.reason = .noMatch then .absent kind name
    else .quiet
  | .get _ _, .ok _ => .quiet
  | _, _ => φ

def protocol (v : Validator) : Protocol (Request Body) Answer Phase where
  allowed := allowed v
  next := next

section Follows

variable {v : Validator} {φ : Phase} {α : Type}

/-- The rest of a validation runs only after a favourable verdict. -/
theorem follows_check (verdict : Except StatusError Unit) {rest : Call α}
    {post : Except StatusError α → Phase → Prop}
    (hok : verdict = .ok () → (protocol v).Follows φ rest.run post)
    (herror : ∀ e, post (.error e) φ) :
    (protocol v).Follows φ (check verdict >>= fun _ => rest).run post := by
  cases verdict with
  | ok value => exact hok rfl
  | error e => exact herror e

private theorem follows_namespaceLabel {t : Texts} {rest : Call α}
    {post : Except StatusError α → Phase → Prop}
    (hok : ∀ φ', (protocol v).Follows φ' rest.run post) (herror : ∀ e φ', post (.error e) φ') :
    (protocol v).Follows φ (v.validateNamespaceLabel t >>= fun _ => rest).run post := by
  refine ⟨trivial, ?_⟩
  rintro (e | ns)
  · exact herror _ _
  · exact follows_check (v.checkManaged t ns) (fun _ => hok _) (fun e => herror e _)

private theorem follows_noNameCollision {t : Texts} {kind : Kind} {name : GoString} {rest : Call α}
    {post : Except StatusError α → Phase → Prop}
    (hok : (protocol v).Follows (.absent kind name) rest.run post)
    (herror : ∀ e φ', post (.error e) φ') :
    (protocol v).Follows φ (v.validateNoNameCollision t kind name >>= fun _ => rest).run post := by
  refine ⟨trivial, ?_⟩
  rintro (e | found)
  · change (protocol v).Follows (if e.reason = .notFound ∨
      e.reason = .noMatch then .absent kind name else .quiet)
      (check (if e.reason = .notFound ∨ e.reason = .noMatch then .ok () else _) >>= fun _ =>
        rest).run post
    split_ifs with hnone
    · exact hok
    · exact herror _ _
  · exact herror _ _

/-- A validation that accepts an object has found its other kind's name free last. -/
theorem follows_validate (kind : Kind) (name : GoString) (body : Body kind) :
    (protocol v).Follows φ (v.validate kind name body).run
    (fun r φ' => ∀ warnings, r = .ok warnings →
      v.Passes kind name body ∧ ∀ kind', other kind = some kind' → φ' = .absent kind' name) := by
  cases kind with
  | llmModel =>
    refine follows_check _ (fun hnamespace => ?_) nofun
    refine follows_namespaceLabel (fun _ => ?_) nofun
    refine follows_check _ (fun haccess => ?_) nofun
    refine follows_noNameCollision ?_ nofun
    refine follows_check _ (fun hsubdomain => ?_) nofun
    rintro _ -
    exact ⟨⟨hnamespace, haccess, hsubdomain⟩, fun _ hother => by rw [← Option.some.inj hother]⟩
  | passthroughModel =>
    refine follows_check _ (fun hnamespace => ?_) nofun
    refine follows_namespaceLabel (fun _ => ?_) nofun
    refine follows_check _ (fun haccess => ?_) nofun
    refine follows_check _ (fun hprovider => ?_) nofun
    refine follows_check _ (fun hmodels => ?_) nofun
    refine follows_check _ (fun hendpoints => ?_) nofun
    refine follows_noNameCollision ?_ nofun
    rintro _ -
    exact ⟨⟨hnamespace, haccess, hprovider, hmodels, hendpoints⟩,
      fun _ hother => by rw [← Option.some.inj hother]⟩
  | _ => exact fun _ _ => ⟨trivial, nofun⟩

/-- A write asks for its review before it is sent. -/
theorem follows_program (write : Write) :
    (protocol v).Follows φ (write.program v) (fun _ _ => True) := by
  cases write with
  | create kind name object =>
    refine Protocol.Follows.run_bind _ (follows_validate kind name object.body)
      (fun warnings φ' hmid => ?_)
      (fun _ _ _ => by trivial)
    refine ⟨hmid warnings rfl, ?_⟩
    rintro (e | stored)
    · trivial
    · trivial
  | update kind name object =>
    refine Protocol.Follows.run_bind _ (follows_validate kind name object.body)
      (fun warnings φ' hmid => ?_)
      (fun _ _ _ => by trivial)
    refine ⟨(hmid warnings rfl).1, ?_⟩
    rintro (e | stored)
    · trivial
    · trivial

end Follows

end webhook
