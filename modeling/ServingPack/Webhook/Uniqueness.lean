import ServingPack.Webhook.Checked

open golang apiserver concurrency kube v1alpha1 reconcilers controller

namespace webhook

/-- No two models of different kinds have one name. -/
def Unique (s : Cluster) : Prop :=
  ∀ kind kind' name, other kind = some kind' → s.lookup kind name = none ∨
    s.lookup kind' name = none

/-- No model of the other kind was created under the name since the request's last read. -/
def nameStillFree (i : Nat) (s : State) : (q : Request Body) → Answer q → State → Prop
  | .create kind name _, _, _ => ∀ kind' ∈ other kind, (kind', name) ∉ s.since i
  | _, _, _ => True

instance (i : Nat) (s : State) :
    (q : Request Body) → (a : Answer q) → (s' : State) → Decidable (nameStillFree i s q a s')
  | .create kind name _, _,
    _ => inferInstanceAs (Decidable (∀ kind' ∈ other kind, (kind', name) ∉ s.since i))
  | .get _ _, _, _ | .list _ _, _, _ | .update _ _ _, _, _ | .updateStatus _ _ _, _,
    _ | .delete _ _ _, _, _ =>
    inferInstanceAs (Decidable True)

/-- Models with the same api-keys Secret are the same model. -/
def OwnSecrets (s : Cluster) : Prop :=
  ∀ kind kind' name name', (other kind).isSome = true → (other kind').isSome = true →
    s.lookup kind name ≠ none →
    s.lookup kind' name' ≠ none → apiKeySecretName name = apiKeySecretName name' → kind = kind' ∧
      name = name'

section Uniqueness

variable {v : Validator} {s s' : State} {φ : Nat → Phase}

private theorem other_symm {kind kind' : Kind} (h : other kind = some kind') :
    other kind' = some kind := by
  cases kind <;> cases h <;> rfl

private theorem Unique.of_create {q : Request Body} {a : Answer q} (hunique : Unique s.cluster)
    (hexec : Exec (fun _ => True) s.cluster q a s'.cluster)
    (hfree : ∀ kind kind' name submitted, q = .create kind name submitted →
      other kind = some kind' →
      s.cluster.lookup kind' name = none) : Unique s'.cluster := by
  intro kind kind' name hother
  by_contra hboth
  rw [not_or] at hboth
  obtain ⟨object, hobject⟩ := Option.ne_none_iff_exists'.mp hboth.1
  obtain ⟨object', hobject'⟩ := Option.ne_none_iff_exists'.mp hboth.2
  rcases hunique kind kind' name hother with hnone | hnone
  · obtain ⟨submitted, rfl⟩ := (hexec.origin hobject).create_of_none hnone
    have hfree' := hfree kind kind' name submitted rfl hother
    obtain ⟨submitted', heq⟩ := (hexec.origin hobject').create_of_none hfree'
    cases heq
    cases kind <;> cases hother
  · obtain ⟨submitted, rfl⟩ := (hexec.origin hobject').create_of_none hnone
    have hfree' := hfree kind' kind name submitted rfl (other_symm hother)
    obtain ⟨submitted', heq⟩ := (hexec.origin hobject).create_of_none hfree'
    cases heq
    cases kind <;> cases hother

private theorem keeps_unique :
    (protocol v).Keeps ((machine v).restrict nameStillFree (fun _ _ => True)) NoModels .quiet
    (fun _ _ => True) (fun s φ => Checked v s φ ∧ Unique s.cluster) where
  init s h := ⟨.init h, fun kind kind' name hother => .inl (h kind name (by rw [hother]; rfl))⟩
  start i s φ p s' hinv hidle hstart := by
    obtain ⟨rfl, write, rfl⟩ := hstart
    refine ⟨.quiet, ?_, follows_program write⟩
    rw [← hidle, Function.update_eq_self]
    exact hinv
  exec i s φ q a s' hinv hallowed hexec := by
    obtain ⟨hchecked, hunique⟩ := hinv
    refine ⟨hchecked.exec hallowed hexec.1, hunique.of_create hexec.1.1 ?_⟩
    rintro kind kind' name submitted rfl hother
    by_contra hsome
    obtain ⟨existing, hexisting⟩ := Option.ne_none_iff_exists'.mp hsome
    exact hexec.2 kind' hother
      (hchecked.absent i kind' name (hallowed.2 kind' hother) existing hexisting)
  finish i s φ r s' hinv hpost hfinish := by
    obtain rfl : s' = s := hfinish
    exact ⟨keeps_checked.finish i s' φ r s' hinv.1 hpost rfl, hinv.2⟩
  env s φ s' hinv henv := by
    refine ⟨hinv.1.env henv.1, ?_⟩
    obtain ⟨_, q, a, hunchecked, hexec⟩ := henv.1
    refine hinv.2.of_create hexec ?_
    rintro kind kind' name submitted rfl
    cases hunchecked

private theorem Unique.ownSecrets {s : Cluster} (h : Unique s) : OwnSecrets s := by
  intro kind kind' name name' hkind hkind' hstored hstored' hsecret
  obtain rfl := apiKeySecretName_injective hsecret
  refine ⟨?_, rfl⟩
  by_contra hne
  have hother : other kind = some kind' := by
    cases kind <;> cases hkind <;> cases kind' <;> cases hkind' <;>
      first | rfl | exact absurd rfl hne
  exact (h kind kind' name hother).elim hstored hstored'

end Uniqueness

section Runs

/-- In every run in which each model is created under a name its request found
free and no model of the other kind was given since, no two models share a name
or an api-keys Secret. -/
theorem names_unique_of_nameStillFree (v : Validator)
    {c : Config State (Request Body) Answer (Except StatusError Unit) Nat}
    (hreach : ((machine v).restrict nameStillFree (fun _ _ => True)).Reachable NoModels c) :
    Unique c.state.cluster ∧ OwnSecrets c.state.cluster := by
  obtain ⟨φ, hinv, _⟩ := keeps_unique.reachable hreach
  exact ⟨hinv.2, hinv.2.ownSecrets⟩

/-- How a scripted step of admission is taken. -/
inductive Choice where
  | write (w : Write)
  | reply
  | other (q : Request Body)

def runner (v : Validator) :
    Machine.Runner State (Request Body) Answer (Except StatusError Unit) Nat Choice where
  start
    | .write w, _, s => some (w.program v, s)
    | _, _, _ => none
  answer _ i s q := some ((s.cluster.handle q).1,
    ⟨(s.cluster.handle q).2, watched i s (s.cluster.handle q).2 q⟩)
  finish _ s _ := some s
  env
    | .other q, s => if unchecked q then some ⟨(s.cluster.handle q).2, s.since⟩ else none
    | _, _ => none

/-- A schedule that is run step by step is a run of admission. -/
theorem runner_sound (v : Validator) : (runner v).Sound (machine v) where
  start o i s p s' h := by
    cases o with
    | write w =>
      obtain ⟨rfl, rfl⟩ := Prod.mk.inj (Option.some.inj h)
      exact ⟨rfl, w, rfl⟩
    | reply => cases h
    | other q => cases h
  answer o i s q a s' h := by
    obtain ⟨rfl, rfl⟩ := Prod.mk.inj (Option.some.inj h)
    exact ⟨.reply q, rfl⟩
  finish i s r s' h := (Option.some.inj h).symm
  env o s s' h := by
    cases o with
    | write w => cases h
    | reply => cases h
    | other q =>
      simp only [runner] at h
      split_ifs at h with hunchecked
      obtain rfl := Option.some.inj h
      exact ⟨rfl, q, _, hunchecked, .reply q⟩

/-- Validators of the namespace `llm-serving`, in which the operator runs. -/
def servingValidator : Validator where
  «namespace» := "llm-serving"
  operatorNamespace := "llm-serving"
  sha256 _ := []
  resolve p := .ok { hostname := p.hostname }

/-- The namespace, managed and without models. -/
def servingState : State where
  cluster := (ApiServer.empty.create .namespace "llm-serving"
    ⟨{ labels := GoMap.ofList [(managedLabel, "true")] }, ()⟩).2
  since _ := []

/-- The cluster the examples start from has no models. -/
theorem servingState_noModels : NoModels servingState := by
  intro kind name hkind
  cases kind with
  | llmModel => rfl
  | passthroughModel => rfl
  | _ => cases hkind

def chatModel : Object (Body .llmModel) where
  metadata := {}
  body := { spec := { model := { name := "meta-llama/Llama-3.1-8B-Instruct" }, access := { «public» := some true } } }

def chatPassthrough : Object (Body .passthroughModel) where
  metadata := {}
  body :=
    { spec :=
        { provider := { hostname := "api.openai.com", credentialSecretName := "openai" }
          models := { catchAll := true }
          access := { «public» := some true } } }

/-- Two creates of one name: each webhook looks for the other kind before either model is stored. -/
def race : List (Machine.Move Nat Choice) :=
  [.start 0 (.write (.create .llmModel "chat" chatModel)), .answer 0 .reply, .answer 0 .reply,
    .start 1 (.write (.create .passthroughModel "chat" chatPassthrough)), .answer 1 .reply,
      .answer 1 .reply,
    .answer 0 .reply, .answer 1 .reply]

private theorem race_ends :
    ((runner servingValidator).run race ⟨servingState, fun _ => none⟩).any (fun c =>
      (c.state.cluster.lookup .llmModel "chat").isSome && (c.state.cluster.lookup .passthroughModel "chat").isSome) = true := by
  decide +kernel

/-- After two overlapping creates both kinds have a model `chat`. -/
theorem race_shares_name : ∃ c : Config State (Request Body) Answer (Except StatusError Unit) Nat,
    (machine servingValidator).Reachable NoModels c ∧ ¬Unique c.state.cluster := by
  obtain ⟨c, hrun, hends⟩ := (Option.any_eq_true _ _).mp race_ends
  rw [Bool.and_eq_true] at hends
  refine ⟨c, (runner_sound servingValidator).reachable (.init servingState_noModels) hrun,
    fun hunique => ?_⟩
  rcases hunique .llmModel .passthroughModel "chat" rfl with hnone | hnone
  · simp [hnone] at hends
  · simp [hnone] at hends

/-- The second create begins after the first one ended. -/
def turns : List (Machine.Move Nat Choice) :=
  [.start 0 (.write (.create .llmModel "chat" chatModel)), .answer 0 .reply, .answer 0 .reply,
    .answer 0 .reply,
    .start 1 (.write (.create .passthroughModel "openai" chatPassthrough)), .answer 1 .reply,
      .answer 1 .reply,
    .answer 1 .reply]

private theorem turns_ends :
    (((runner servingValidator).guard nameStillFree (fun _ _ => True)).run turns ⟨servingState, fun _ => none⟩).any
      (fun c => (c.state.cluster.lookup .llmModel "chat").isSome &&
        (c.state.cluster.lookup .passthroughModel "openai").isSome) = true := by
  decide +kernel

/-- Creates that do not race leave a model of each kind, with a name of its own. -/
theorem turns_unique : ∃ c : Config State (Request Body) Answer (Except StatusError Unit) Nat,
    ((c.state.cluster.lookup .llmModel "chat").isSome &&
      (c.state.cluster.lookup .passthroughModel "openai").isSome) = true ∧
      Unique c.state.cluster ∧ OwnSecrets c.state.cluster := by
  obtain ⟨c, hrun, hends⟩ := (Option.any_eq_true _ _).mp turns_ends
  exact ⟨c, hends, names_unique_of_nameStillFree servingValidator
    (((runner_sound servingValidator).guard _ _).reachable (.init servingState_noModels) hrun)⟩

end Runs

end webhook
