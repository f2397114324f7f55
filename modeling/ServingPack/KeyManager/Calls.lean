import ServingPack.KeyManager.Manager
import ServingPack.Lib.Protocol

open golang apiserver concurrency

namespace secrets

/-- A call of the key manager on one model. -/
inductive Operation where
  | create (creator : Creator) (description : GoString)
  | revoke (clientID : GoString)

abbrev Outcome := Except StatusError (Option CreateKeyResult)

def Operation.program (m : Manager) (modelName : GoString) :
    Operation → Program Request Answer Outcome
  | .create creator description => (do
      let result ← m.createKey modelName creator description
      pure (some result) : Call (Option CreateKeyResult)).run
  | .revoke clientID => (do
      Manager.revokeKey modelName clientID
      pure none : Call (Option CreateKeyResult)).run

/-- How a scripted step of the key manager is taken. -/
inductive Choice (C : Type) where
  | call (c : C)
  | reply
  | bytes (drawn : List UInt8)
  | seconds (now : Nat)

/-- A manager whose digest is the one of alice's keys for the model `chat`. -/
def chatManager : Manager where
  «namespace» := "llm-serving"
  sha256 _ := [57, 32, 77, 25, 78, 113, 207, 156, 227, 141, 1, 108, 210, 79, 255, 221, 235, 96, 52,
    164, 81, 123,
    204, 216, 209, 103, 236, 142, 22, 210, 243, 79]

def alice : Creator where
  username := "alice"
  subject := "0b9e2f6c"
  groups := []

section Follows

variable {P : Type} {π : Protocol Request Answer P} {I : P → Prop} {m : Manager}
  {modelName : GoString}

/-- Attempts that keep a condition on the phase until one succeeds. -/
theorem follows_retry_until {α : Type} {once : Call α} {tooMany : StatusError} (done : α → P → Prop)
    (honce : ∀ φ, I φ → π.Follows φ once.run (fun r φ' => (∃ value, r = .ok value ∧ done value φ') ∨
      (∃ e, r = .error e) ∧ I φ'))
    (attempts : Nat) {φ : P} (hφ : I φ) : π.Follows φ (retry tooMany once attempts).run
      (fun r φ' => (∃ value, r = .ok value ∧ done value φ') ∨ (∃ e, r = .error e) ∧ I φ') := by
  induction attempts generalizing φ with
  | zero => exact .inr ⟨⟨tooMany, rfl⟩, hφ⟩
  | succ attempts ih =>
    refine Protocol.Follows.run_bind
      (fun r φ' => ∃ r', r = .ok r' ∧
        ((∃ value, r' = .ok value ∧ done value φ') ∨ (∃ e, r' = .error e) ∧ I φ')) ?_ ?_ ?_
    · rw [Fallible.run_attempt]
      exact (honce φ hφ).bind (fun r φ' hr => ⟨r, rfl, hr⟩)
    · rintro r φ' ⟨r', hr, ⟨value, rfl, hdone⟩ | ⟨⟨e, rfl⟩, hφ'⟩⟩
      · obtain rfl := Except.ok.inj hr
        exact .inl ⟨value, rfl, hdone⟩
      · obtain rfl := Except.ok.inj hr
        change π.Follows φ' (if isConflict e then retry tooMany once attempts else throw e).run _
        split_ifs
        · exact ih hφ'
        · exact .inr ⟨⟨e, rfl⟩, hφ'⟩
    · rintro e φ' ⟨r', hr, _⟩
      cases hr

/-- Attempts that keep a condition on the phase keep it however often they are made. -/
theorem follows_retry {α : Type} {once : Call α} {tooMany : StatusError}
    (honce : ∀ φ, I φ → π.Follows φ once.run (fun _ φ' => I φ')) (attempts : Nat) {φ : P}
    (hφ : I φ) :
    π.Follows φ (retry tooMany once attempts).run (fun _ φ' => I φ') := by
  have hsplit (r : Except StatusError α) (φ' : P) (h : I φ') :
      (∃ value, r = .ok value ∧ I φ') ∨ (∃ e, r = .error e) ∧ I φ' := by
    cases r with
    | ok value => exact .inl ⟨value, rfl, h⟩
    | error e => exact .inr ⟨⟨e, rfl⟩, h⟩
  refine (follows_retry_until (fun _ φ' => I φ')
    (fun φ h => (honce φ h).mono hsplit) attempts hφ).mono ?_
  rintro r φ' (⟨_, _, h⟩ | ⟨_, h⟩)
  · exact h
  · exact h

/-- A call keeps what its single attempts keep. -/
theorem follows_program
    (hcreate : ∀ creator description φ, I φ →
      π.Follows φ (m.createKeyOnce modelName creator description).run (fun _ φ' => I φ'))
    (hrevoke : ∀ clientID φ, I φ →
      π.Follows φ (Manager.revokeKeyOnce modelName clientID).run (fun _ φ' => I φ'))
    (operation : Operation) {φ : P} (hφ : I φ) :
    π.Follows φ (operation.program m modelName) (fun _ φ' => I φ') := by
  cases operation with
  | create creator description =>
    refine Protocol.Follows.run_bind (fun _ φ' => I φ') ?_ (fun _ _ h => by exact h)
      (fun _ _ h => h)
    unfold Manager.createKey
    split_ifs
    · exact hφ
    · exact follows_retry (hcreate creator description) _ hφ
  | revoke clientID =>
    refine Protocol.Follows.run_bind (fun _ φ' => I φ') ?_ (fun _ _ h => by exact h)
      (fun _ _ h => h)
    exact follows_retry (hrevoke clientID) _ hφ

end Follows

end secrets
