import ServingPack.Lib.Unstructured
import ServingPack.Operator.Reconcilers.Routing

open golang unstructured

namespace reconcilers

/-- The labels of what the shared-TLS reconciler manages. -/
def sharedTLSLabels : Fields Value :=
  Fields.of [(managedByLabel, .string operatorName), (nameLabel, .string "shared-tls"),
    ("app.kubernetes.io/component", .string "routing")]

def buildHTTPSListener (name hostname secretName secretNamespace : GoString) : Fields Value :=
  Fields.of [("name", .string name), ("protocol", .string "HTTPS"), ("port", .int 443),
    ("hostname", .string hostname),
    ("tls", .map (Fields.of [("mode", .string "Terminate"),
      ("certificateRefs", .slice
        [.map (Fields.of [("kind", .string "Secret"), ("name", .string secretName),
        ("namespace", .string secretNamespace)])])])),
    ("allowedRoutes", .map
      (Fields.of [("namespaces", .map (Fields.of [("from", .string "All")]))]))]

/-- `listenersEqual`: whether the fields the reconciler sets print alike. -/
def listenersEqual (a b : Fields Value) : Bool :=
  [lit "name", lit "protocol", lit "port", lit "hostname"].all
    (fun k => textOf a k == textOf b k) &&
    textOf (asMap (a.get "tls")) "mode" == textOf (asMap (b.get "tls")) "mode" &&
    (let aRefs := asSlice ((asMap (a.get "tls")).get "certificateRefs")
     let bRefs := asSlice ((asMap (b.get "tls")).get "certificateRefs")
     aRefs.length == bRefs.length && (aRefs.zip bRefs).all (fun (ar, br) =>
       [lit "kind", lit "name", lit "namespace"].all (fun k =>
         textOf (asMap (some ar)) k == textOf (asMap (some br)) k))) &&
    textOf (asMap ((asMap (a.get "allowedRoutes")).get "namespaces")) "from" ==
      textOf (asMap ((asMap (b.get "allowedRoutes")).get "namespaces")) "from"

/-- The name of a listener, empty where it has none. -/
def listenerName (l : Fields Value) : GoString := ((l.get "name").getD .null).asString

/-- What the scan for a listener by its name comes to. -/
inductive Scanned where
  | missing
  | equal
  | replaced (listeners : List Value)

/-- What the scan comes to with one more listener before those it is over. -/
def Scanned.behind (raw : Value) : Scanned → Scanned
  | .replaced listeners => .replaced (raw :: listeners)
  | scanned => scanned

/-- The loop of `MergeHTTPSListener`: the first listener of the name decides. -/
def scanListeners (name : GoString) (desired : Fields Value) : List Value → Scanned
  | [] => .missing
  | .map l :: rest =>
    if listenerName l = name then
      if listenersEqual l desired then .equal else .replaced (.map desired :: rest)
    else (scanListeners name desired rest).behind (.map l)
  | raw :: rest => (scanListeners name desired rest).behind raw

/-- Why a listener could not be merged: a text, and the error it describes further. -/
structure MergeError where
  text : GoString
  cause : Option NestedError := none

def writeListeners (gateway : Fields Value) (listeners : List Value) :
    Except MergeError (Bool × Fields Value) :=
  match setNestedField gateway (.slice listeners) ["spec", "listeners"] with
  | .error e => .error ⟨"writing spec.listeners", some e⟩
  | .ok gateway' => .ok (true, gateway')

/-- `MergeHTTPSListener`: whether the Gateway was modified, and the Gateway. -/
def mergeHTTPSListener (gateway : Option (Fields Value))
    (name hostname secretName secretNamespace : GoString) :
    Except MergeError (Bool × Fields Value) :=
  match gateway with
  | none => .error { text := "gateway must be non-nil" }
  | some gateway =>
    let desired := buildHTTPSListener name hostname secretName secretNamespace
    match nestedSlice gateway ["spec", "listeners"] with
    | .error e => .error ⟨"reading spec.listeners", some e⟩
    | .ok found =>
      let listeners := found.getD []
      match scanListeners name desired listeners with
      | .equal => .ok (false, gateway)
      | .replaced listeners' => writeListeners gateway listeners'
      | .missing => writeListeners gateway (listeners ++ [.map desired])

def sharedTLSCertificateName : GoString := "nebari-llm-shared-tls"

def sharedTLSSecretName : GoString := "nebari-llm-shared-tls"

/-- `BuildSharedCertificate`: the Certificate, or why there is none. -/
def buildSharedCertificate (baseDomain ns clusterIssuerName : GoString) :
    Except GoString Unstructured :=
  if baseDomain = [] then .error "baseDomain must be non-empty to build the shared TLS Certificate"
  else if ns = [] then .error "namespace must be non-empty"
  else if clusterIssuerName = [] then .error "clusterIssuerName must be non-empty"
  else
    .ok
      { object := Fields.of [("apiVersion", .string "cert-manager.io/v1"),
        ("kind", .string "Certificate"),
          ("metadata", .map (Fields.of [("name", .string sharedTLSCertificateName),
            ("namespace", .string ns),
            ("labels", .map sharedTLSLabels)])),
          ("spec", .map (Fields.of [("secretName", .string sharedTLSSecretName),
            ("dnsNames", .slice [.string (sharedExternalHostname baseDomain),
              .string (sharedInternalHostname baseDomain)]),
            ("issuerRef", .map (Fields.of [("kind", .string "ClusterIssuer"),
              ("name", .string clusterIssuerName),
              ("group", .string "cert-manager.io")]))]))]
        wellFormed := rfl }

/-- `BuildSecretReferenceGrant`. -/
def buildSecretReferenceGrant (fromNamespace secretNamespace secretName : GoString) :
    Unstructured where
  object := Fields.of [("apiVersion", .string "gateway.networking.k8s.io/v1beta1"),
    ("kind", .string "ReferenceGrant"),
    ("metadata", .map (Fields.of
      [("name", .string (("nebari-llm-shared-tls-from-" : GoString) ++ fromNamespace)),
      ("namespace", .string secretNamespace), ("labels", .map sharedTLSLabels)])),
    ("spec", .map (Fields.of [
      ("from", .slice [.map
        (Fields.of [("group", .string "gateway.networking.k8s.io"), ("kind", .string "Gateway"),
        ("namespace", .string fromNamespace)])]),
      ("to", .slice [.map (Fields.of [("group", .string []), ("kind", .string "Secret"),
        ("name", .string secretName)])])]))]
  wellFormed := rfl

private theorem wellFormed_buildHTTPSListener
    (name hostname secretName secretNamespace : GoString) :
    (Value.map (buildHTTPSListener name hostname secretName secretNamespace)).wellFormed = true :=
  rfl

private theorem wellFormed_scanListeners {name : GoString} {desired : Fields Value}
    {listeners listeners' : List Value}
    (hdesired : (Value.map desired).wellFormed = true) (h : ∀ v ∈ listeners, v.wellFormed = true)
    (hscan : scanListeners name desired listeners = .replaced listeners') :
    ∀ v ∈ listeners', v.wellFormed = true := by
  induction listeners generalizing listeners' with
  | nil => cases hscan
  | cons raw rest ih =>
    obtain ⟨hraw, hrest⟩ := List.forall_mem_cons.mp h
    have hbehind : (scanListeners name desired rest).behind raw = .replaced listeners' →
        ∀ v ∈ listeners', v.wellFormed = true := by
      intro hbehind
      cases hscanned : scanListeners name desired rest with
      | missing | equal => simp [hscanned, Scanned.behind] at hbehind
      | replaced rest' =>
        simp only [hscanned, Scanned.behind, Scanned.replaced.injEq] at hbehind
        rw [← hbehind]
        exact List.forall_mem_cons.mpr ⟨hraw, ih hrest hscanned⟩
    cases raw with
    | map l =>
      rw [scanListeners] at hscan
      split_ifs at hscan
      · obtain rfl := Scanned.replaced.inj hscan
        exact List.forall_mem_cons.mpr ⟨hdesired, hrest⟩
      · exact hbehind hscan
    | null | bool | int | float | string | slice => exact hbehind hscan

/-- A merge leaves a Gateway that is JSON as much as the one it was given. -/
theorem wellFormed_mergeHTTPSListener {gateway gateway' : Fields Value} {changed : Bool}
    {name hostname secretName secretNamespace : GoString}
    (h : (Value.map gateway).wellFormed = true)
    (hmerge : mergeHTTPSListener (some gateway) name hostname secretName secretNamespace =
      .ok (changed, gateway')) :
    (Value.map gateway').wellFormed = true := by
  have hwrite : ∀ listeners, (∀ v ∈ listeners, v.wellFormed = true) →
      writeListeners gateway listeners = .ok (changed, gateway') →
        (Value.map gateway').wellFormed = true := by
    intro listeners hlisteners hwrite
    rw [writeListeners] at hwrite
    split at hwrite
    · cases hwrite
    · next gateway'' hset =>
      obtain ⟨-, rfl⟩ := Prod.mk.inj (Except.ok.inj hwrite)
      exact Unstructured.wellFormed_setNestedField h (Value.wellFormed_slice.mpr hlisteners) hset
  simp only [mergeHTTPSListener] at hmerge
  split at hmerge
  · cases hmerge
  · next found hread =>
    have hfound : ∀ v ∈ found.getD [], v.wellFormed = true := by
      cases found with
      | none => simp
      | some listeners => exact Value.wellFormed_slice.mp (Unstructured.wellFormed_nestedSlice h hread)
    split at hmerge
    · obtain ⟨-, rfl⟩ := Prod.mk.inj (Except.ok.inj hmerge)
      exact h
    · next hscan => exact hwrite _ (wellFormed_scanListeners (wellFormed_buildHTTPSListener ..) hfound hscan) hmerge
    · refine hwrite _ ?_ hmerge
      intro v hv
      obtain hv | hv := List.mem_append.mp hv
      · exact hfound v hv
      · obtain rfl := List.mem_singleton.mp hv
        exact wellFormed_buildHTTPSListener ..

end reconcilers
