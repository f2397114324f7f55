import ServingPack.Webhook.Admission

open golang apiserver concurrency kube v1alpha1 reconcilers controller

namespace webhook

section Invariant

variable {v : Validator}

private theorem passes_create (kind : Kind) (name : GoString) (body : Body kind) :
    v.Passes kind name (Resource.create kind body) ↔ v.Passes kind name body := by
  cases kind <;> exact Iff.rfl

private theorem passes_update (kind : Kind) (name : GoString) (existing submitted : Body kind) :
    v.Passes kind name (Resource.update kind existing submitted) ↔
    v.Passes kind name submitted := by
  cases kind <;> exact Iff.rfl

private theorem passes_updateStatus (kind : Kind) (name : GoString) (existing submitted : Body kind)
    (h : v.Passes kind name existing) :
    v.Passes kind name (Resource.updateStatus kind existing submitted) := by
  cases kind <;> exact h

/-- What is stored has passed its webhook's checks of the object, and a name
that a webhook found free is still free or was created since. -/
structure Checked (v : Validator) (s : State) (φ : Nat → Phase) : Prop where
  passes : ∀ (kind : Kind) (name : GoString) (object : Object (Body kind)),
    s.cluster.lookup kind name = some object → v.Passes kind name object.body
  absent : ∀ i kind name, φ i = .absent kind name →
    ∀ object, s.cluster.lookup kind name = some object →
    (kind, name) ∈ s.since i

/-- What a request stores has passed if what it submits has. -/
theorem passes_origin {s : Cluster} {kind : Kind} {name : GoString} {q : Request Body}
    {object : Object (Body kind)}
    (hpasses : ∀ existing, s.lookup kind name = some existing → v.Passes kind name existing.body)
    (hcreate : ∀ submitted, q = .create kind name submitted → v.Passes kind name submitted.body)
    (hupdate : ∀ submitted, q = .update kind name submitted → v.Passes kind name submitted.body)
    (h : Origin s kind name q object) : v.Passes kind name object.body := by
  cases h with
  | kept hsome => exact hpasses object hsome
  | created => exact (passes_create kind name _).mpr (hcreate _ rfl)
  | updated => exact (passes_update kind name _ _).mpr (hupdate _ rfl)
  | statusUpdated hsome => exact passes_updateStatus kind name _ _ (hpasses _ hsome)
  | deleting hsome =>
    have hexisting := hpasses _ hsome
    exact hexisting

/-- A request other than a read only adds to what was created since, and it
adds what it creates. -/
theorem mem_watched {s : State} {i j : Nat} {kind : Kind} {name : GoString} {q : Request Body}
    {cluster : Cluster} {object : Object (Body kind)} (hget : ∀ kind' name', q ≠ .get kind' name')
    (hbefore : ∀ existing, s.cluster.lookup kind name = some existing → (kind, name) ∈ s.since j)
    (hobject : cluster.lookup kind name = some object) (h : Origin s.cluster kind name q object) :
    (kind, name) ∈ watched i s cluster q j := by
  cases hlookup : s.cluster.lookup kind name with
  | none =>
    obtain ⟨submitted, rfl⟩ := h.create_of_none hlookup
    simp [watched, hlookup, hobject]
  | some existing =>
    have hmem := hbefore existing hlookup
    cases q with
    | get kind' name' => exact absurd rfl (hget kind' name')
    | create kind' name' submitted =>
      simp only [watched]
      split_ifs
      · exact List.mem_cons_of_mem _ hmem
      · exact hmem
    | list => exact hmem
    | update => exact hmem
    | updateStatus => exact hmem
    | delete => exact hmem

/-- A request that the protocol allows keeps the invariant, answered or failed. -/
theorem Checked.exec {s s' : State} {φ : Nat → Phase} {i : Nat} {q : Request Body} {a : Answer q}
    (hinv : Checked v s φ) (hallowed : allowed v (φ i) q) (hexec : (machine v).exec i s q a s') :
    Checked v s' (Function.update φ i (next (φ i) q a)) := by
  obtain ⟨hexec, hsince⟩ := hexec
  refine ⟨fun kind name object hobject => ?_, fun j kind name hj object hobject => ?_⟩
  · refine passes_origin (hinv.passes kind name) ?_ ?_ (hexec.origin hobject)
    · rintro submitted rfl
      exact hallowed.1
    · rintro submitted rfl
      exact hallowed
  · rw [hsince]
    by_cases hget : ∃ kind' name', q = .get kind' name'
    · obtain ⟨kind', name', rfl⟩ := hget
      rw [hexec.get.1] at hobject
      by_cases hij : j = i
      · -- what this read has missed is not stored
        subst hij
        rw [Function.update_self] at hj
        rcases a with e | found
        · simp only [next] at hj
          split_ifs at hj with hreason
          obtain ⟨rfl, rfl⟩ := Phase.absent.inj hj
          rw [hexec.get_absent hreason] at hobject
          cases hobject
        · cases hj
      · rw [Function.update_of_ne hij] at hj
        simpa only [watched, Function.update_of_ne hij]
          using hinv.absent j kind name hj object hobject
    · have hget' : ∀ kind' name', q ≠ .get kind' name' :=
        fun kind' name' heq => hget ⟨kind', name', heq⟩
      have hnext : next (φ i) q a = φ i := by
        cases q with
        | get kind' name' => exact absurd rfl (hget' kind' name')
        | _ => rfl
      rw [hnext, Function.update_eq_self] at hj
      exact mem_watched hget' (hinv.absent j kind name hj) hobject (hexec.origin hobject)

/-- So does what the cluster does by itself. -/
theorem Checked.env {s s' : State} {φ : Nat → Phase} (hinv : Checked v s φ)
    (henv : (machine v).env s s') :
    Checked v s' φ := by
  obtain ⟨hsince, q, a, hunchecked, hexec⟩ := henv
  refine ⟨fun kind name object hobject => ?_, fun j kind name hj object hobject => ?_⟩
  · refine passes_origin (hinv.passes kind name) ?_ ?_ (hexec.origin hobject)
    · rintro submitted rfl
      cases hunchecked
    · rintro submitted rfl
      cases hunchecked
  · rw [hsince]
    cases hlookup : s.cluster.lookup kind name with
    | none =>
      obtain ⟨submitted, rfl⟩ := (hexec.origin hobject).create_of_none hlookup
      cases hunchecked
    | some existing => exact hinv.absent j kind name hj existing hlookup

/-- A cluster without models meets it. -/
theorem Checked.init {s : State} (h : NoModels s) : Checked v s (fun _ => .quiet) where
  passes kind name object hobject := by
    cases kind with
    | llmModel => rw [h .llmModel name rfl] at hobject; cases hobject
    | passthroughModel => rw [h .passthroughModel name rfl] at hobject; cases hobject
    | _ => trivial
  absent _ _ _ hj := nomatch hj

/-- Every reachable state of admission meets `Checked`. -/
theorem keeps_checked :
    (protocol v).Keeps (machine v) NoModels .quiet (fun _ _ => True) (Checked v) where
  init _ h := .init h
  start i s φ p s' hinv hidle hstart := by
    obtain ⟨rfl, write, rfl⟩ := hstart
    exact Protocol.starts_idle hidle hinv (follows_program write)
  exec i s φ q a s' hinv hallowed hexec := hinv.exec hallowed hexec
  finish i s φ r s' hinv _ hfinish := by
    obtain rfl : s' = s := hfinish
    refine ⟨hinv.passes, fun j kind name hj => ?_⟩
    by_cases hij : j = i
    · rw [hij, Function.update_self] at hj
      cases hj
    · rw [Function.update_of_ne hij] at hj
      exact hinv.absent j kind name hj
  env s φ s' hinv henv := hinv.env henv

end Invariant

end webhook
