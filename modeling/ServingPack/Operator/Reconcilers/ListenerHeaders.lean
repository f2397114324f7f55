import ServingPack.Lib.Memory
import ServingPack.Operator.Reconcilers.ClusterTLS

open golang unstructured

namespace reconcilers

/-- The headers the gateway writes once a caller is authenticated. -/
def callerIdentityHeaders : List GoString :=
  [apiKeyClientIDHeader, "x-auth-user", "x-auth-subject", "x-auth-groups"]

def listenerHeaderPolicyName (listenerName : GoString) : GoString :=
  listenerName ++ ("-client-headers" : GoString)

/-- The one target of a listener's policy. -/
def listenerTarget (gatewayName listenerName : GoString) : Value :=
  .slice [.map (Fields.of [("group", .string "gateway.networking.k8s.io"),
    ("kind", .string "Gateway"),
    ("name", .string gatewayName), ("sectionName", .string listenerName)])]

/-- The strings of a list within a map, none where it is no list of strings. -/
def stringsOrNil (m : Fields Value) (field : GoString) : List GoString :=
  match nestedStringSlice m [field] with
  | .ok (some strings) => strings
  | _ => []

/-- The headers with every identity header among them. -/
def addIdentityHeaders (remove : List GoString) : List GoString :=
  callerIdentityHeaders.foldl (fun remove h => if h ∈ remove then remove else remove ++ [h]) remove

/-- A listener's policy with its spec. -/
def listenerPolicyObject (gatewayNamespace listenerName : GoString) (spec : Fields Value) :
    Fields Value :=
  Fields.of [("apiVersion", .string "gateway.envoyproxy.io/v1alpha1"),
    ("kind", .string "ClientTrafficPolicy"),
    ("metadata", .map (Fields.of [("name", .string (listenerHeaderPolicyName listenerName)),
      ("namespace", .string gatewayNamespace), ("labels", .map sharedTLSLabels)])),
    ("spec", .map spec)]

/-- The copy the policy starts from, or a new map. -/
def copyOrMake : Option Ref → StateM Memory Ref
  | some r => deepCopyJSON r
  | none => makeMap

/-- `BuildListenerHeaderPolicy`. The inherited spec is a map of the caller. -/
def buildListenerHeaderPolicy (gatewayName gatewayNamespace listenerName : GoString)
    (inherited : Option Ref) :
    StateM Memory (Fields Value) := do
  let spec ← copyOrMake inherited
  deleteKey spec "targetRef"
  deleteKey spec "targetRefs"
  deleteKey spec "targetSelectors"
  setKey spec "targetRefs" (listenerTarget gatewayName listenerName)
  let headers ← orMake (nestedMapCopy spec "headers")
  setKey headers "requestID" (.string "Generate")
  let early ← orMake (nestedMapCopy headers "earlyRequestHeaders")
  let remove := addIdentityHeaders (stringsOrNil (← contents early) "remove")
  setKey early "remove" (.slice (remove.map .string))
  setKey headers "earlyRequestHeaders" (.map (← contents early))
  setKey spec "headers" (.map (← contents headers))
  return listenerPolicyObject gatewayNamespace listenerName (← contents spec)

section Spec

/-! What the policy's spec comes to, map by map. -/

def earlyOf (early : Fields Value) : Fields Value :=
  early.set "remove" (.slice ((addIdentityHeaders (stringsOrNil early "remove")).map .string))

def headersOf (headers : Fields Value) : Fields Value :=
  let headers := headers.set "requestID" (.string "Generate")
  headers.set "earlyRequestHeaders"
    (.map (earlyOf (Unstructured.nestedMapOrNil headers "earlyRequestHeaders")))

/-- A spec aimed at the one listener. -/
def targeting (gatewayName listenerName : GoString) (spec : Fields Value) : Fields Value :=
  (((spec.delete "targetRef").delete "targetRefs").delete "targetSelectors").set "targetRefs"
    (listenerTarget gatewayName listenerName)

def listenerPolicySpec (gatewayName listenerName : GoString) (inherited : Option (Fields Value)) :
    Fields Value :=
  let spec := targeting gatewayName listenerName (inherited.getD [])
  spec.set "headers" (.map (headersOf (Unstructured.nestedMapOrNil spec "headers")))

end Spec

variable {gatewayName gatewayNamespace listenerName : GoString} {mem : Memory}
  {inherited : Option Ref}

/-- The policy is built from what the caller's map shows, and beside what the memory had. -/
theorem buildListenerHeaderPolicy_eq (gatewayName gatewayNamespace listenerName : GoString)
    (mem : Memory) (inherited : Option Ref) :
    ∃ own, buildListenerHeaderPolicy gatewayName gatewayNamespace listenerName inherited mem =
      (listenerPolicyObject gatewayNamespace listenerName
        (listenerPolicySpec gatewayName listenerName (inherited.map (fun r => mem.getD r []))),
        mem ++ own) := by
  have hspec : copyOrMake inherited mem =
      (mem.length + 0, mem ++ [(inherited.map (fun r => mem.getD r [])).getD []]) := by
    cases inherited with
    | none => rfl
    | some r => rfl
  generalize (inherited.map (fun r => mem.getD r [])) = shown at hspec ⊢
  let headers := headersOf
    (Unstructured.nestedMapOrNil (targeting gatewayName listenerName (shown.getD [])) "headers")
  let early := earlyOf (Unstructured.nestedMapOrNil ((Unstructured.nestedMapOrNil
    (targeting gatewayName listenerName (shown.getD [])) "headers").set "requestID"
      (.string "Generate"))
    "earlyRequestHeaders")
  refine ⟨[listenerPolicySpec gatewayName listenerName shown, headers, early], ?_⟩
  unfold buildListenerHeaderPolicy
  rw [run_bind hspec, run_bind (deleteKey_own ..), run_bind (deleteKey_own ..),
    run_bind (deleteKey_own ..), run_bind (setKey_own ..), run_bind (orMake_own ..),
    run_bind (setKey_own ..), run_bind (orMake_own ..), run_bind (contents_own ..),
    run_bind (setKey_own ..), run_bind (contents_own ..), run_bind (setKey_own ..),
    run_bind (contents_own ..), run_bind (setKey_own ..), run_bind (contents_own ..)]
  rfl

end reconcilers
