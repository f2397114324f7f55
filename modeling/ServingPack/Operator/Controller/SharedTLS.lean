import ServingPack.Lib.Upkeep
import ServingPack.Operator.Controller.ListenerHeaders

open golang apiserver concurrency unstructured reconcilers

namespace controller

namespace ClusterTLSSingleton

/-- What the reconciler reads of the operator's configuration. -/
structure SharedTLSConfig extends config.OperatorConfig where
  operatorNamespace : GoString
  clusterIssuerName : GoString
  tlsSecretName : GoString := []
  manageSharedListeners : Bool := true

def sharedSecretName (c : SharedTLSConfig) : GoString :=
  if c.tlsSecretName ≠ [] then c.tlsSecretName else sharedTLSSecretName

def distinctGatewayNamespaces (c : SharedTLSConfig) : List GoString :=
  if c.externalGatewayNS = c.internalGatewayNS then [c.externalGatewayNS]
    else [c.externalGatewayNS, c.internalGatewayNS]

def ensureCertificate (c : SharedTLSConfig) : Call Unit :=
  match buildSharedCertificate c.baseDomain c.operatorNamespace c.clusterIssuerName with
  | .error text => throw ⟨.other, text⟩
  | .ok desired => createOrUpdateUnstructured desired

def ensureReferenceGrant (c : SharedTLSConfig) (fromNamespace : GoString) : Call Unit :=
  createOrUpdateUnstructured
    (buildSecretReferenceGrant fromNamespace c.operatorNamespace (sharedSecretName c))

/-- What names the Certificate in its delete. -/
def managedCertificate (ns : GoString) : Unstructured where
  object := Fields.of [("apiVersion", .string "cert-manager.io/v1"),
    ("kind", .string "Certificate"),
    ("metadata", .map (Fields.of [("name", .string sharedTLSCertificateName),
      ("namespace", .string ns)]))]
  wellFormed := rfl

/-- The end of the Certificate's delete: cert-manager need not be installed. -/
def ignoreUnmanaged : Except StatusError Unit → Call Unit
  | .ok () => pure ()
  | .error e => if e.reason = .notFound ∨ e.reason = .noMatch then pure () else throw e

def deleteManagedCertificate (c : SharedTLSConfig) : Call Unit := do
  let deleted ← Fallible.attempt (delete (managedCertificate c.operatorNamespace))
  ignoreUnmanaged deleted

/-- `checkUserSecret`. Whatever the look comes to is only logged. -/
def checkUserSecret (c : SharedTLSConfig) : Call Unit := do
  let _ ← Fallible.attempt (get ⟨"v1", "Secret", c.operatorNamespace, c.tlsSecretName⟩)
  pure ()

/-- The first step of `Reconcile`: the source of the TLS Secret. -/
def ensureTLSSource (c : SharedTLSConfig) : Call Unit :=
  if c.tlsSecretName ≠ [] then do
    describing "deleting managed Certificate after switch to user-provided TLS secret"
      (deleteManagedCertificate c)
    checkUserSecret c
  else describing "ensuring Certificate" (ensureCertificate c)

/-- The loop of `Reconcile` over the Gateways' namespaces. -/
def ensureReferenceGrants (c : SharedTLSConfig) : List GoString → Call Unit
  | [] => pure ()
  | ns :: rest =>
    if ns = c.operatorNamespace then ensureReferenceGrants c rest
    else do
      describing (("ensuring ReferenceGrant from " : GoString) ++ ns) (ensureReferenceGrant c ns)
      ensureReferenceGrants c rest

def ensureListenerHeaderPolicies (t : Tools) (c : SharedTLSConfig) : Call Unit :=
  if !c.usageMeteringEnabled then pure ()
  else do
    describing "external listener header policy"
      (ensureListenerHeaderPolicy t c.externalGatewayName c.externalGatewayNS
        externalHTTPSListenerName)
    describing "internal listener header policy"
      (ensureListenerHeaderPolicy t c.internalGatewayName c.internalGatewayNS
        internalHTTPSListenerName)

/-- A Gateway's name as the errors give it. -/
def gatewayText (gatewayName gatewayNamespace : GoString) : GoString :=
  ("Gateway " : GoString) ++ gatewayNamespace ++ ("/" : GoString) ++ gatewayName

/-- The end of `patchGatewayListener`, once the listener was merged. -/
def writeMerged (gatewayName gatewayNamespace : GoString) :
    (merged : Except MergeError (Bool × Fields Value)) →
    (∀ changed gateway, merged = .ok (changed, gateway) → (Value.map gateway).wellFormed = true) →
    Call Unit
  | .error e, _ => throw ((⟨.other, e.text⟩ : StatusError).wrap "merging listener")
  | .ok (false, _), _ => pure ()
  | .ok (true, gateway), hwf =>
    describing (("updating " : GoString) ++ gatewayText gatewayName gatewayNamespace)
      (update ⟨gateway, hwf true gateway rfl⟩)

/-- `patchGatewayListener`, once the Gateway was looked up. -/
def patchFound (c : SharedTLSConfig)
    (gatewayName gatewayNamespace listenerName hostname : GoString) :
    Except StatusError Unstructured → Call Unit
  | .error e =>
    if e.reason = .notFound then pure ()
    else throw (e.wrap (("getting " : GoString) ++ gatewayText gatewayName gatewayNamespace))
  | .ok gw => writeMerged gatewayName gatewayNamespace
      (mergeHTTPSListener (some gw.object) listenerName hostname
        (sharedSecretName c) c.operatorNamespace)
      (fun _ _ => wellFormed_mergeHTTPSListener gw.wellFormed)

def patchGatewayListener (c : SharedTLSConfig)
    (gatewayName gatewayNamespace listenerName hostname : GoString) :
    Call Unit := do
  let found ← Fallible.attempt (get ⟨gatewayVersion, gatewayKind, gatewayNamespace, gatewayName⟩)
  patchFound c gatewayName gatewayNamespace listenerName hostname found

/-- The last step of `Reconcile`: the listeners of both Gateways. -/
def patchGatewayListeners (c : SharedTLSConfig) : Call Unit :=
  if !c.manageSharedListeners then pure ()
  else do
    describing "patching external Gateway listener"
      (patchGatewayListener c c.externalGatewayName c.externalGatewayNS externalHTTPSListenerName
        (sharedExternalHostname c.baseDomain))
    describing "patching internal Gateway listener"
      (patchGatewayListener c c.internalGatewayName c.internalGatewayNS internalHTTPSListenerName
        (sharedInternalHostname c.baseDomain))

/-- `Reconcile`. What the header policies came to does not hold up the listeners, and
is returned at the end. -/
def reconcile (t : Tools) : Option SharedTLSConfig → Call Unit
  | none => throw ⟨.other, "operator config is nil"⟩
  | some c =>
    if c.baseDomain = [] then pure ()
    else if c.operatorNamespace = [] then pure ()
    else do
      ensureTLSSource c
      ensureReferenceGrants c (distinctGatewayNamespaces c)
      let headerPolicyErr ← Fallible.attempt (ensureListenerHeaderPolicies t c)
      patchGatewayListeners c
      Fallible.ofExcept headerPolicyErr

end ClusterTLSSingleton

end controller
