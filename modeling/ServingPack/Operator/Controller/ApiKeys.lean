import ServingPack.Lib.Program
import ServingPack.Operator.Reconcilers.Auth

open golang apiserver concurrency kube v1alpha1 reconcilers

namespace controller

/-- A reconcile's calls of the API server. -/
abbrev Call := Fallible (Request Body) Answer StatusError

def get (kind : Kind) (name : GoString) : Call (Object (Body kind)) :=
  ExceptT.mk (Program.ask (Request.get kind name))

def list (kind : Kind) (matching : GoMap GoString) : Call (List (GoString × Object (Body kind))) :=
  ExceptT.mk (Program.ask (Request.list kind matching))

def create (kind : Kind) (name : GoString) (object : Object (Body kind)) :
    Call (Object (Body kind)) :=
  ExceptT.mk (Program.ask (Request.create kind name object))

def update (kind : Kind) (name : GoString) (object : Object (Body kind)) :
    Call (Object (Body kind)) :=
  ExceptT.mk (Program.ask (Request.update kind name object))

def updateStatus (kind : Kind) (name : GoString) (object : Object (Body kind)) :
    Call (Object (Body kind)) :=
  ExceptT.mk (Program.ask (Request.updateStatus kind name object))

def delete (kind : Kind) (name : GoString) (preconditions : Preconditions) : Call Unit :=
  ExceptT.mk (Program.ask (Request.delete kind name preconditions))

def wrapped (text : GoString) (e : StatusError) : StatusError := e.wrap text

def errorf (text : GoString) : StatusError := ⟨.other, text⟩

/-- The Secrets the operator's watches and listings see. -/
def managedByOperator : GoMap GoString := GoMap.ofList [(managedByLabel, operatorName)]

/-- The client IDs of a Secret that was looked up; none of a missing one. -/
def clientIDsOf : Except StatusError (Object SecretBody) → Call (List GoString)
  | .ok secret => pure (clientIDsFromSecret secret)
  | .error e => if e.reason = .notFound then pure [] else throw e

def apiKeyClientIDs (modelName : GoString) : Call (List GoString) := do
  clientIDsOf (← Fallible.attempt (get .secret (apiKeySecretName modelName)))

/-- The names that pool into every external policy: of the listed Secrets those
with the api-keys suffix, and the model's own, sorted and without repetitions. -/
def pooledNames (ownName : GoString) (listed : List (GoString × Object SecretBody)) :
    List GoString :=
  sortStrings (ownName :: (listed.map Prod.fst).filter (hasSuffix · apiKeySecretSuffix)).dedup

def apiKeySecretNamesWith (ownName : GoString) : Call (List GoString) := do
  let listed ← list .secret managedByOperator
  pure (pooledNames ownName listed)

/-- A pool is the model's own Secret and the listed ones with the suffix of an API-key Secret.
-/
theorem mem_pooledNames {ownName name : GoString} {listed : List (GoString × Object SecretBody)} :
    name ∈ pooledNames ownName listed ↔
      name = ownName ∨ (∃ secret, (name, secret) ∈ listed) ∧
      hasSuffix name apiKeySecretSuffix = true := by
  simp [pooledNames]

end controller
