import ServingPack.Operator.Controller.Apply

open golang apiserver concurrency kube v1alpha1 reconcilers

namespace controller

/-- When a reconcile asks to be run again. -/
inductive Result where
  | done
  | requeueAfter (milliseconds : Nat)
  deriving DecidableEq

def condSecurityPoliciesReady : GoString := "SecurityPoliciesReady"
def reasonApplyFailed : GoString := "ApplyFailed"
def reasonGatewayCRDUnavailable : GoString := "GatewayCRDUnavailable"

/-- 15 seconds. -/
def gatewayCRDRequeue : Nat := 15000

/-- `meta.FindStatusCondition`. -/
def findStatusCondition (conditions : List Condition) (type : GoString) : Option Condition :=
  conditions.find? (·.type = type)

/-- `meta.SetStatusCondition`: the condition takes the place of the one of its
type, or the last place. -/
def setStatusCondition (conditions : List Condition) (condition : Condition) : List Condition :=
  match findStatusCondition conditions condition.type with
  | some existing => conditions.map (fun c => if c = existing then condition else c)
  | none => conditions ++ [condition]

/-- Whether `meta.SetStatusCondition` changes anything. -/
def statusConditionChanges (conditions : List Condition) (condition : Condition) : Bool :=
  findStatusCondition conditions condition.type != some condition

/-- `meta.RemoveStatusCondition`. -/
def removeStatusCondition (conditions : List Condition) (type : GoString) : List Condition :=
  conditions.filter (·.type ≠ type)

/-- `errors.Join`, of an error that may be missing and one that is there. -/
def joinErrors : Option StatusError → StatusError → StatusError
  | none, e => e
  | some first, e => { first with message := first.message ++ ("\n" : GoString) ++ e.message }

def conditionFor (condType : GoString) (err : Option StatusError) (okMessage : GoString) :
    Condition :=
  match err with
  | some e =>
    { type := condType
      status := .false
      reason := if e.reason = .noMatch then reasonGatewayCRDUnavailable else reasonApplyFailed
      message := e.message }
  | none => { type := condType, status := .true, reason := "Applied", message := okMessage }

def disabledCondition (condType : GoString) : Condition where
  type := condType
  status := .false
  reason := "EndpointDisabled"
  message := "endpoint disabled in spec"

end controller
