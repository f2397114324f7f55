import ServingPack.Operator.Controller.Apply
import ServingPack.Webhook.Uniqueness

open golang apiserver concurrency kube v1alpha1 reconcilers controller

namespace webhook

section Validation

variable {v : Validator} {s : Cluster} {α β : Type}

/-- The calls, answered by the server, end without an error. -/
def Succeeds (s : Cluster) (x : Call α) : Prop :=
  ∃ value, (x.run.eval ApiServer.handle s).1 = .ok value

/-- The namespace exists and carries nebari.dev/managed=true. -/
def NamespaceManaged (v : Validator) (s : Cluster) : Prop :=
  ∃ ns, s.lookup .namespace v.namespace = some ns ∧ Validator.managed ns = true

private theorem succeeds_bind {x : Call α} {rest : α → Call β} :
    Succeeds s (x >>= rest) ↔ ∃ value, (x.run.eval ApiServer.handle s).1 = .ok value ∧
      Succeeds (x.run.eval ApiServer.handle s).2 (rest value) := by
  unfold Succeeds
  rw [Fallible.run_bind_eq, Program.eval_bind]
  cases (x.run.eval ApiServer.handle s).1 with
  | ok value => simp
  | error e => simp [Program.eval]

private theorem succeeds_check {verdict : Except StatusError Unit} {rest : Call α} :
    Succeeds s (check verdict >>= fun _ => rest) ↔ verdict = .ok () ∧ Succeeds s rest := by
  rw [succeeds_bind]
  exact ⟨fun ⟨(), hok, hrest⟩ => ⟨hok, hrest⟩, fun ⟨hok, hrest⟩ => ⟨(), hok, hrest⟩⟩

private theorem checkManaged_ok {t : Texts} {ns : Object (Body .namespace)} :
    v.checkManaged t ns = .ok () ↔ Validator.managed ns = true := by
  unfold Validator.checkManaged
  split_ifs with h
  · exact iff_of_true rfl h
  · exact iff_of_false nofun h

/-- What a read answers, and that it changes nothing. -/
theorem eval_get (kind : Kind) (name : GoString) :
    (controller.get kind name).run.eval ApiServer.handle s =
      (match s.lookup kind name with
        | some object => .ok object
        | none => .error (notFound (B := Body) kind name), s) := by
  change ((s.handle (.get kind name)).1, (s.handle (.get kind name)).2) = _
  rw [s.handle_get]
  simp only [ApiServer.handle]
  cases s.lookup kind name with
  | some object => rfl
  | none => rfl

private theorem eval_namespaceLabel (t : Texts) :
    ((v.validateNamespaceLabel t).run.eval ApiServer.handle s).2 = s ∧
      (((v.validateNamespaceLabel t).run.eval ApiServer.handle s).1 = .ok () ↔
        NamespaceManaged v s) := by
  unfold Validator.validateNamespaceLabel Fallible.mapError
  rw [Fallible.run_bind_eq, ExceptT.run_mk, Program.eval_bind, Program.eval_bind, eval_get]
  cases hlookup : s.lookup .namespace v.namespace with
  | some ns => simp [Program.eval, check, NamespaceManaged, hlookup, checkManaged_ok]
  | none => simp [Program.eval, NamespaceManaged, hlookup]

private theorem succeeds_namespaceLabel {t : Texts} {rest : Call α} :
    Succeeds s (v.validateNamespaceLabel t >>= fun _ => rest) ↔
    NamespaceManaged v s ∧ Succeeds s rest := by
  obtain ⟨hstate, hverdict⟩ := eval_namespaceLabel (v := v) (s := s) t
  rw [succeeds_bind, hstate]
  exact ⟨fun ⟨(), hok, hrest⟩ => ⟨hverdict.mp hok, hrest⟩,
    fun ⟨hok, hrest⟩ => ⟨(), hverdict.mpr hok, hrest⟩⟩

private theorem eval_noNameCollision (t : Texts) (kind : Kind) (name : GoString) :
    ((v.validateNoNameCollision t kind name).run.eval ApiServer.handle s).2 = s ∧
      (((v.validateNoNameCollision t kind name).run.eval ApiServer.handle s).1 = .ok () ↔
        s.lookup kind name = none) := by
  unfold Validator.validateNoNameCollision
  rw [Fallible.run_bind_eq, Fallible.run_attempt, Program.eval_bind, Program.eval_bind, eval_get]
  cases hlookup : s.lookup kind name with
  | some object => simp [Program.eval, check, Validator.checkCollision]
  | none => simp [Program.eval, check, Validator.checkCollision, notFound]

private theorem succeeds_noNameCollision {t : Texts} {kind : Kind} {name : GoString}
    {rest : Call α} :
    Succeeds s (v.validateNoNameCollision t kind name >>= fun _ => rest) ↔
      s.lookup kind name = none ∧ Succeeds s rest := by
  obtain ⟨hstate, hverdict⟩ := eval_noNameCollision (v := v) (s := s) t kind name
  rw [succeeds_bind, hstate]
  exact ⟨fun ⟨(), hok, hrest⟩ => ⟨hverdict.mp hok, hrest⟩,
    fun ⟨hok, hrest⟩ => ⟨(), hverdict.mpr hok, hrest⟩⟩

private theorem succeeds_pure (value : α) : Succeeds s (pure value) := ⟨value, rfl⟩

/-- A model passes validation if and only if the object passes its own checks,
the namespace is managed and the other kind has no model of the name. -/
theorem succeeds_validate {kind kind' : Kind} (hother : other kind = some kind') (name : GoString)
    (body : Body kind) :
    Succeeds s (v.validate kind name body) ↔
      v.Passes kind name body ∧ NamespaceManaged v s ∧ s.lookup kind' name = none := by
  cases kind with
  | llmModel =>
    cases hother
    unfold Validator.validate Validator.validateLLMModel Validator.Passes
    rw [succeeds_check, succeeds_namespaceLabel, succeeds_check, succeeds_noNameCollision,
      succeeds_check, iff_true_intro (succeeds_pure _)]
    tauto
  | passthroughModel =>
    cases hother
    unfold Validator.validate Validator.validatePassthroughModel Validator.Passes
    rw [succeeds_check, succeeds_namespaceLabel, succeeds_check, succeeds_check, succeeds_check,
      succeeds_check, succeeds_noNameCollision, iff_true_intro (succeeds_pure _)]
    tauto
  | _ => cases hother

end Validation

section Runs

abbrev Admission := Config State (Request Body) Answer (Except StatusError Unit) Nat

/-- In every reachable state, whether or not a model is being deleted, the
webhook lets the update that removes its finalizer through if and only if the
namespace is managed and no model of the other kind has its name. -/
theorem finalizer_removal_admitted_iff (v : Validator) {c : Admission}
    (hreach : (machine v).Reachable NoModels c)
    {kind kind' : Kind} (hother : other kind = some kind') {name : GoString}
    {model : Object (Body kind)} (hmodel : c.state.cluster.lookup kind name = some model) :
    Succeeds c.state.cluster (v.validate kind name (removeFinalizer model).body) ↔
      NamespaceManaged v c.state.cluster ∧ c.state.cluster.lookup kind' name = none := by
  obtain ⟨φ, hinv, _⟩ := keeps_checked.reachable hreach
  rw [succeeds_validate hother]
  exact and_iff_right (hinv.passes kind name model hmodel)

def chatWithFinalizer : Object (Body .llmModel) := addFinalizer chatModel

/-- A model is created and its deletion begins. -/
def deletion : List (Machine.Move Nat Choice) :=
  [.start 0 (.write (.create .llmModel "chat" chatWithFinalizer)), .answer 0 .reply,
    .answer 0 .reply, .answer 0 .reply,
    .env (.other (.delete .llmModel "chat" {}))]

/-- Before its deletion the namespace loses its label. -/
def unmanaged : List (Machine.Move Nat Choice) :=
  deletion ++ [.start 1 (.write (.update .namespace "llm-serving" ⟨{ resourceVersion := 1 }, ()⟩)),
    .answer 1 .reply]

/-- Whether the deletion of a model waits for its finalizer. -/
def waiting (model : Object (Body .llmModel)) : Bool :=
  model.metadata.deletionTimestamp && containsFinalizer model

private theorem unmanaged_ends :
    ((runner servingValidator).run unmanaged ⟨servingState, fun _ => none⟩).any (fun c =>
      (c.state.cluster.lookup .llmModel "chat").any waiting &&
      (c.state.cluster.lookup .namespace "llm-serving").all (fun ns => !Validator.managed ns)) =
      true := by
  decide +kernel

/-- Once the namespace has lost its label, the webhook keeps the finalizer of a
model that it admitted from being removed. -/
theorem finalizer_removal_refused :
    ∃ c : Admission, (machine servingValidator).Reachable NoModels c ∧
    ∃ model, c.state.cluster.lookup .llmModel "chat" = some model ∧ waiting model = true ∧
      ¬Succeeds c.state.cluster
        (servingValidator.validate .llmModel "chat" (removeFinalizer model).body) := by
  obtain ⟨c, hrun, hends⟩ := (Option.any_eq_true _ _).mp unmanaged_ends
  rw [Bool.and_eq_true] at hends
  obtain ⟨model, hmodel, hwaiting⟩ := (Option.any_eq_true _ _).mp hends.1
  refine ⟨c, (runner_sound servingValidator).reachable (.init servingState_noModels) hrun, model,
    hmodel, hwaiting,
    fun hsucceeds => ?_⟩
  obtain ⟨_, ⟨ns, hns, hmanaged⟩, _⟩ :=
    (succeeds_validate rfl "chat" (removeFinalizer model).body).mp hsucceeds
  change c.state.cluster.lookup .namespace "llm-serving" = some ns at hns
  simp [hns, hmanaged] at hends

private theorem deletion_ends :
    ((runner servingValidator).run deletion ⟨servingState, fun _ => none⟩).any (fun c =>
      (c.state.cluster.lookup .llmModel "chat").any waiting &&
      (c.state.cluster.lookup .namespace "llm-serving").any Validator.managed &&
      (c.state.cluster.lookup .passthroughModel "chat").isNone) = true := by
  decide +kernel

/-- While the namespace is managed the model can be let go. -/
theorem finalizer_removal_admitted : ∃ c : Admission,
    ∃ model, c.state.cluster.lookup .llmModel "chat" = some model ∧ waiting model = true ∧
      Succeeds c.state.cluster
        (servingValidator.validate .llmModel "chat" (removeFinalizer model).body) := by
  obtain ⟨c, hrun, hends⟩ := (Option.any_eq_true _ _).mp deletion_ends
  rw [Bool.and_eq_true, Bool.and_eq_true, Option.isNone_iff_eq_none] at hends
  obtain ⟨⟨hchat, hns⟩, hnone⟩ := hends
  obtain ⟨model, hmodel, hwaiting⟩ := (Option.any_eq_true _ _).mp hchat
  exact ⟨c, model, hmodel, hwaiting, (finalizer_removal_admitted_iff servingValidator
    ((runner_sound servingValidator).reachable (.init servingState_noModels) hrun) rfl hmodel).mpr
      ⟨(Option.any_eq_true _ _).mp hns, hnone⟩⟩

end Runs

end webhook
