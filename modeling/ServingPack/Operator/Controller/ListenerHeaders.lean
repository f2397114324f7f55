import ServingPack.Operator.Controller.ClusterTLS
import ServingPack.Operator.ListenerHeaders

open golang apiserver concurrency unstructured reconcilers

namespace controller

namespace ClusterTLSSingleton

def clientTrafficPolicyVersion : GoString := "gateway.envoyproxy.io/v1alpha1"
def clientTrafficPolicyKind : GoString := "ClientTrafficPolicy"
def gatewayVersion : GoString := "gateway.networking.k8s.io/v1"
def gatewayKind : GoString := "Gateway"

/-- What the reconciler uses of apimachinery on fields of objects. -/
structure Tools where
  /-- The time a text gives, the zero time where it gives none. -/
  parseTime : GoString → Int
  /-- Whether a label selector, given with other fields, matches labels. Selectors
  that cannot be converted or parsed are errors. -/
  selectorMatches : Fields Value → Fields Value → Except StatusError Bool

/-- `isListenerHeaderPolicy`. -/
def isListenerHeaderPolicy (p : Unstructured) : Bool :=
  (p.getLabels.get managedByLabel).elim [] Value.asString == operatorName &&
    (p.getName == listenerHeaderPolicyName externalHTTPSListenerName ||
      p.getName == listenerHeaderPolicyName internalHTTPSListenerName)

/-- How a ClientTrafficPolicy applies to a listener. -/
inductive PolicyScope where
  | none
  | gateway
  | listener
  deriving DecidableEq

/-- Whether a field of a map is a string of its own. -/
def holdsString (m : Fields Value) (k s : GoString) : Bool :=
  match m.get k with
  | some (.string s') => s' == s
  | _ => false

/-- A field of a map as a string, empty where it is none. -/
def stringField (m : Fields Value) (k : GoString) : GoString := (m.get k).elim [] Value.asString

def isGatewayKind (ref : Fields Value) : Bool :=
  holdsString ref "kind" "Gateway" &&
    (stringField ref "group" == [] || stringField ref "group" == lit "gateway.networking.k8s.io")

/-- The loop over a policy's targets. -/
def scopeOfRefs (gw : Unstructured) (listenerName : GoString) (scope : PolicyScope) :
    List Value → PolicyScope
  | [] => scope
  | .map ref :: rest =>
    if !isGatewayKind ref || !holdsString ref "name" gw.getName
      then scopeOfRefs gw listenerName scope rest
    else if stringField ref "sectionName" = listenerName then .listener
    else if stringField ref "sectionName" = [] then scopeOfRefs gw listenerName .gateway rest
    else scopeOfRefs gw listenerName scope rest
  | _ :: rest => scopeOfRefs gw listenerName scope rest

/-- The loop over a policy's selectors. -/
def scopeOfSelectors (t : Tools) (gw : Unstructured) : List Value → Except StatusError PolicyScope
  | [] => .ok .none
  | .map sel :: rest =>
    if !isGatewayKind sel then scopeOfSelectors t gw rest
    else
      match t.selectorMatches sel gw.getLabels with
      | .error e => .error e
      | .ok true => .ok .gateway
      | .ok false => scopeOfSelectors t gw rest
  | _ :: rest => scopeOfSelectors t gw rest

/-- A list within a map, none where there is none. -/
def sliceOrNil (m : Fields Value) (field : GoString) : List Value :=
  match nestedSlice m [field] with
  | .ok (some elems) => elems
  | _ => []

/-- The targets of a policy: those of `targetRefs`, and the deprecated `targetRef`. -/
def targetsOf (p : Unstructured) : List Value :=
  sliceOrNil p.spec "targetRefs" ++
    match nestedMap p.spec ["targetRef"] with
    | .ok (some ref) => [.map ref]
    | _ => []

/-- `policyScopeForListener`. -/
def policyScopeForListener (t : Tools) (p gw : Unstructured) (listenerName : GoString) :
    Except StatusError PolicyScope :=
  match scopeOfRefs gw listenerName .none (targetsOf p) with
  | .listener => .ok .listener
  | .gateway => .ok .gateway
  | .none => scopeOfSelectors t gw (sliceOrNil p.spec "targetSelectors")

/-- `strings.Compare`. -/
def compareStrings (s t : GoString) : Int := if s = t then 0 else if before s t then -1 else 1

def qualifiedName (p : Unstructured) : GoString := p.getNamespace ++ ("/" : GoString) ++ p.getName

def creationTime (t : Tools) (p : Unstructured) : Int :=
  t.parseTime (p.getNestedString ["metadata", "creationTimestamp"])

def comparePolicies (t : Tools) (a b : Unstructured) : Int :=
  if creationTime t a ≠ creationTime t b
    then (if creationTime t a < creationTime t b then -1 else 1)
  else compareStrings (qualifiedName a) (qualifiedName b)

/-- `slices.MinFunc` of a list that begins with `m`. -/
def minFunc {α : Type} (cmp : α → α → Int) (m : α) (rest : List α) : α :=
  rest.foldl (fun m x => if cmp x m < 0 then x else m) m

/-- `appliedGatewayWidePolicy`. -/
def appliedGatewayWidePolicy (t : Tools) : List Unstructured → Option Unstructured
  | [] => none
  | p :: rest => some (minFunc (comparePolicies t) p rest)

/-- What the loop over the policies of a namespace comes to. -/
inductive Scan where
  | failed (p : Unstructured) (e : StatusError)
  | taken (p : Unstructured)
  | free (gatewayWide : List Unstructured)

def scanPolicies (t : Tools) (gw : Unstructured) (listenerName : GoString)
    (gatewayWide : List Unstructured) :
    List Unstructured → Scan
  | [] => .free gatewayWide
  | p :: rest =>
    if isListenerHeaderPolicy p then scanPolicies t gw listenerName gatewayWide rest
    else
      match policyScopeForListener t p gw listenerName with
      | .error e => .failed p e
      | .ok .listener => .taken p
      | .ok .gateway => scanPolicies t gw listenerName (gatewayWide ++ [p]) rest
      | .ok .none => scanPolicies t gw listenerName gatewayWide rest

/-- `warnUnprotected`. -/
def warnUnprotected (gw : Unstructured) (listenerName why : GoString) : Call Unit :=
  event (keyOf gw) "UsageHeadersNotProtected"
    (("usage metering: caller-sent identity headers are NOT removed on listener " : GoString) ++
      listenerName ++
      (", so callers can choose the identity usage is billed under: " : GoString) ++ why)

/-- Why a listener whose policy is another's is not protected. -/
def takenBy (p : Unstructured) : GoString :=
  ("ClientTrafficPolicy " : GoString) ++ qualifiedName p ++
    (" targets the listener and Envoy Gateway applies one policy per listener; add headers.earlyRequestHeaders.remove [" :
      GoString) ++
    (lit ", ").intercalate callerIdentityHeaders ++
      ("] and headers.requestID Generate to that policy" : GoString)

/-- What `BuildListenerHeaderPolicy` comes to on the spec of an applied policy. -/
theorem built_eq (gatewayName gatewayNamespace listenerName : GoString)
    (applied : Option Unstructured) :
    (buildListenerHeaderPolicy gatewayName gatewayNamespace listenerName (applied.map (fun _ => 0))
        (applied.map Unstructured.spec).toList).1 =
      listenerPolicyObject gatewayNamespace listenerName
        (listenerPolicySpec gatewayName listenerName
          (some ((applied.map Unstructured.spec).getD []))) := by
  obtain ⟨own, hbuild⟩ := buildListenerHeaderPolicy_eq gatewayName gatewayNamespace listenerName
    (applied.map Unstructured.spec).toList
    (applied.map (fun _ => 0))
  rw [hbuild]
  cases applied with
  | none => rfl
  | some p => rfl

private theorem wellFormed_listenerPolicyObject {spec : Fields Value}
    (gatewayNamespace listenerName : GoString) (h : (Value.map spec).wellFormed = true) :
    (Value.map (listenerPolicyObject gatewayNamespace listenerName spec)).wellFormed = true := by
  have hshell : (Value.map (Fields.of [("apiVersion", .string "gateway.envoyproxy.io/v1alpha1"),
      ("kind", .string "ClientTrafficPolicy"),
      ("metadata", .map (Fields.of [("name", .string (listenerHeaderPolicyName listenerName)),
        ("namespace", .string gatewayNamespace), ("labels", .map sharedTLSLabels)]))])).wellFormed =
          true := rfl
  exact Value.wellFormed_set (k := "spec") hshell h

/-- The policy built on an inherited one, as `BuildListenerHeaderPolicy` returns it. -/
def listenerPolicy (gatewayName gatewayNamespace listenerName : GoString)
    (applied : Option Unstructured) :
    Unstructured where
  object := (buildListenerHeaderPolicy gatewayName gatewayNamespace listenerName
    (applied.map (fun _ => 0))
    (applied.map Unstructured.spec).toList).1
  wellFormed := by
    rw [built_eq]
    apply wellFormed_listenerPolicyObject
    apply listenerheaders.wellFormed_listenerPolicySpec
    cases applied with
    | none => rfl
    | some p => exact Unstructured.wellFormed_nestedMapOrNil p.wellFormed _

/-- The end of a delete: an object that is gone already is no error. -/
def ignoreGone (stale : Unstructured) : Except StatusError Unit → Call Unit
  | .ok () => pure ()
  | .error e =>
    if e.reason = .notFound then pure ()
    else throw (e.wrap (("deleting ClientTrafficPolicy " : GoString) ++ qualifiedName stale))

/-- The end of `ensureListenerHeaderPolicy`, once the policies were scanned. -/
def applyScan (t : Tools) (gw : Unstructured)
    (gatewayName gatewayNamespace listenerName : GoString) : Scan → Call Unit
  | .failed p e => throw (e.wrap (("reading ClientTrafficPolicy " : GoString) ++ qualifiedName p))
  | .taken p => do
    warnUnprotected gw listenerName (takenBy p)
    let stale := listenerPolicy gatewayName gatewayNamespace listenerName none
    let deleted ← Fallible.attempt (delete stale)
    ignoreGone stale deleted
  | .free gatewayWide =>
    createOrUpdateUnstructured (listenerPolicy gatewayName gatewayNamespace listenerName
      (appliedGatewayWidePolicy t gatewayWide))

/-- `ensureListenerHeaderPolicy`, once the policies were listed. -/
def ensureListed (t : Tools) (gw : Unstructured)
    (gatewayName gatewayNamespace listenerName : GoString) :
    Except StatusError (List Unstructured) → Call Unit
  | .error e =>
    if e.reason = .noMatch
      then warnUnprotected gw listenerName "the ClientTrafficPolicy CRD is not installed"
    else throw (e.wrap (("listing ClientTrafficPolicies in " : GoString) ++ gatewayNamespace))
  | .ok policies =>
    applyScan t gw gatewayName gatewayNamespace listenerName
      (scanPolicies t gw listenerName [] policies)

/-- `ensureListenerHeaderPolicy`, once the Gateway was looked up. -/
def ensureFound (t : Tools) (gatewayName gatewayNamespace listenerName : GoString) :
    Except StatusError Unstructured → Call Unit
  | .error e =>
    if e.reason = .notFound then pure ()
    else throw (e.wrap (("getting Gateway " : GoString) ++ gatewayNamespace ++ ("/" : GoString) ++
      gatewayName))
  | .ok gw => do
    let policies ← Fallible.attempt
      (list clientTrafficPolicyVersion clientTrafficPolicyKind gatewayNamespace)
    ensureListed t gw gatewayName gatewayNamespace listenerName policies

def ensureListenerHeaderPolicy (t : Tools) (gatewayName gatewayNamespace listenerName : GoString) :
    Call Unit := do
  let found ← Fallible.attempt (get ⟨gatewayVersion, gatewayKind, gatewayNamespace, gatewayName⟩)
  ensureFound t gatewayName gatewayNamespace listenerName found

end ClusterTLSSingleton

end controller
