import ServingPack.Operator.Controller.SharedTLS
import ServingPack.Operator.ListenerPolicies
import ServingPack.Operator.SharedListeners

open golang apiserver concurrency unstructured reconcilers controller controller.ClusterTLSSingleton
  listenerpolicies
  sharedlisteners specequality

namespace sharedtls

section Parts

variable (c : SharedTLSConfig)

def gatewayName : Endpoint → GoString
  | .external => c.externalGatewayName
  | .internal => c.internalGatewayName

def gatewayNS : Endpoint → GoString
  | .external => c.externalGatewayNS
  | .internal => c.internalGatewayNS

def hostname : Endpoint → GoString
  | .external => sharedExternalHostname c.baseDomain
  | .internal => sharedInternalHostname c.baseDomain

/-- The listener that the operator keeps on an endpoint's Gateway. -/
def listener : Endpoint → GoString
  | .external => externalHTTPSListenerName
  | .internal => internalHTTPSListenerName

def gatewayKey (e : Endpoint) : Key := ⟨gatewayVersion, gatewayKind, gatewayNS c e, gatewayName c e⟩

/-- The grant that lets the Gateways of a namespace use the Secret. -/
def grant (ns : GoString) : Unstructured :=
  buildSecretReferenceGrant ns c.operatorNamespace (sharedSecretName c)

/-- What the operator keeps in order. -/
inductive Part where
  | source
  | grant (ns : GoString)
  | policy (e : Endpoint)
  | listener (e : Endpoint)

/-- Where a part is stored. -/
def partKey : Part → Key
  | .source => keyOf (managedCertificate c.operatorNamespace)
  | .grant ns => keyOf (grant c ns)
  | .policy e => ownKey (gatewayNS c e) (listener e)
  | .listener e => gatewayKey c e

/-- The parts that a configuration calls for. -/
def Wanted : Part → Prop
  | .source => True
  | .grant ns => ns ∈ distinctGatewayNamespaces c ∧ ns ≠ c.operatorNamespace
  | .policy _ => c.usageMeteringEnabled = true
  | .listener _ => c.manageSharedListeners = true

end Parts

/-- An object whose spec the code takes for the desired one. -/
def Placed (desired : Unstructured) (s : State) : Prop :=
  ∃ stored, s.objects (keyOf desired) = some stored ∧
    nestedSpecsEqual desired.spec stored.spec = true

/-- The operator's own Certificate is there, or is gone where the user has a Secret. -/
def Sourced (c : SharedTLSConfig) (s : State) : Prop :=
  if c.tlsSecretName ≠ [] then s.objects (partKey c .source) = none
  else ∃ desired, buildSharedCertificate c.baseDomain c.operatorNamespace c.clusterIssuerName =
    .ok desired ∧ Placed desired s

/-- The listener's own policy is there, with what it is to copy from another's, or is
gone where another's targets the listener. -/
def Guarded (t : Tools) (c : SharedTLSConfig) (s : State) (e : Endpoint) : Prop :=
  ∀ gw, s.objects (gatewayKey c e) = some gw →
    Taken s gw (gatewayNS c e) (listener e) ∧ s.objects (partKey c (.policy e)) = none ∨
      ¬Taken s gw (gatewayNS c e) (listener e) ∧
        ∃ applied, listenerpolicies.Applied t s gw (gatewayNS c e) applied ∧
        Placed (listenerPolicy (gatewayName c e) (gatewayNS c e) (listener e) applied) s

/-- The Gateway, if there is one, has the listener. -/
def Attached (c : SharedTLSConfig) (s : State) (e : Endpoint) : Prop :=
  ∀ gw, s.objects (gatewayKey c e) = some gw → ∃ listeners l, Listed gw.object listeners ∧
    .map l ∈ listeners ∧
    listenerName l = listener e ∧
      ReadsAsBuilt (listener e) (hostname c e) (sharedSecretName c) c.operatorNamespace l

/-- What is to hold of a part. -/
def InOrder (t : Tools) (c : SharedTLSConfig) : Part → State → Prop
  | .source, s => Sourced c s
  | .grant ns, s => Placed (grant c ns) s
  | .policy e, s => Guarded t c s e
  | .listener e, s => Attached c s e

/-- Everything that the configuration calls for is in order. -/
def Settled (t : Tools) (c : SharedTLSConfig) (s : State) : Prop :=
  ∀ i, Wanted c i → InOrder t c i s

/-- A listener of none of some names. -/
def outside (names : List GoString) (v : Value) : Bool := names.all (fun name => !named name v)

/-- A Gateway changed in nothing but its listeners of some names. -/
structure Relisted (names : List GoString) (gw gw' : Unstructured) : Prop where
  rest : ∀ path, ¬path <+: listenersPath → ¬listenersPath <+: path →
    nestedFieldNoCopy (.map gw'.object) path = nestedFieldNoCopy (.map gw.object) path
  listeners : ∀ listeners, Listed gw.object listeners → ∃ listeners', Listed gw'.object listeners' ∧
    listeners'.filter (outside names) = listeners.filter (outside names)

/-- A state changed in nothing but the parts that the configuration calls for: of the
Gateways these are the two listeners, and no Gateway comes or goes. -/
structure Confined (c : SharedTLSConfig) (s s' : State) : Prop where
  others : ∀ key, (∀ i, Wanted c i → key ≠ partKey c i) → s'.objects key = s.objects key
  missing : ∀ e, s.objects (gatewayKey c e) = none → s'.objects (gatewayKey c e) = none
  gateways : ∀ e gw, s.objects (gatewayKey c e) = some gw →
    ∃ gw', s'.objects (gatewayKey c e) = some gw' ∧
    Relisted [externalHTTPSListenerName, internalHTTPSListenerName] gw gw'

/-- What the reconciler can work with: a complete configuration, policies it can read,
nothing of another's under its policies' names, and Gateways with lists of listeners. -/
structure Ready (t : Tools) (c : SharedTLSConfig) (s : State) : Prop where
  domain : c.baseDomain ≠ []
  home : c.operatorNamespace ≠ []
  issuer : c.tlsSecretName = [] → c.clusterIssuerName ≠ []
  finite : ∃ objs : List Unstructured, ∀ key obj, s.objects key = some obj → obj ∈ objs
  owned : c.usageMeteringEnabled = true → ∀ e, Owned s (gatewayNS c e) (listener e)
  parsed : c.usageMeteringEnabled = true → ∀ e gw, s.objects (gatewayKey c e) = some gw →
    ∀ p, Foreign s (gatewayNS c e) p → Parsed t gw p
  listed : c.manageSharedListeners = true → ∀ e gw, s.objects (gatewayKey c e) = some gw →
    ∃ listeners, Listed gw.object listeners

section Relisted

variable {names names' : List GoString} {gw gw' gw'' : Unstructured}

private theorem Relisted.refl (names : List GoString) (gw : Unstructured) : Relisted names gw gw :=
  ⟨fun _ _ _ => rfl, fun listeners h => ⟨listeners, h, rfl⟩⟩

private theorem Relisted.trans (h : Relisted names gw gw') (h' : Relisted names gw' gw'') :
    Relisted names gw gw'' where
  rest := fun path hshort hlong => (h'.rest path hshort hlong).trans (h.rest path hshort hlong)
  listeners := by
    intro listeners hlisted
    obtain ⟨listeners', hlisted', hsame⟩ := h.listeners listeners hlisted
    obtain ⟨listeners'', hlisted'', hsame'⟩ := h'.listeners listeners' hlisted'
    exact ⟨listeners'', hlisted'', hsame'.trans hsame⟩

private theorem filter_outside (hsub : ∀ name ∈ names, name ∈ names') (l : List Value) :
    (l.filter (outside names)).filter (outside names') = l.filter (outside names') := by
  rw [List.filter_filter]
  apply List.filter_congr
  intro v _
  cases hv : outside names' v with
  | false => simp
  | true =>
    rw [outside, List.all_eq_true] at hv
    rw [Bool.true_and, outside, List.all_eq_true]
    exact fun name hname => hv name (hsub name hname)

private theorem Relisted.mono (h : Relisted names gw gw') (hsub : ∀ name ∈ names, name ∈ names') :
    Relisted names' gw gw' where
  rest := h.rest
  listeners := by
    intro listeners hlisted
    obtain ⟨listeners', hlisted', hsame⟩ := h.listeners listeners hlisted
    refine ⟨listeners', hlisted', ?_⟩
    rw [← filter_outside hsub listeners', hsame, filter_outside hsub]

private theorem Relisted.name (h : Relisted names gw gw') : gw'.getName = gw.getName := by
  rw [Unstructured.getName, Unstructured.getName, Unstructured.getNestedString,
    Unstructured.getNestedString, nestedString, nestedString, h.rest _ (by decide) (by decide)]

private theorem Relisted.labels (h : Relisted names gw gw') : gw'.getLabels = gw.getLabels := by
  rw [Unstructured.getLabels, Unstructured.getLabels, nestedMap, nestedMap,
    h.rest _ (by decide) (by decide)]

/-- Patching listeners leaves the Gateway the object it is. -/
theorem Relisted.key (h : Relisted names gw gw') : keyOf gw' = keyOf gw := by
  have hfield : ∀ path, ¬path <+: listenersPath → ¬listenersPath <+: path →
      gw'.getNestedString path = gw.getNestedString path := by
    intro path hshort hlong
    rw [Unstructured.getNestedString, Unstructured.getNestedString, nestedString, nestedString,
      h.rest path hshort hlong]
  rw [keyOf, keyOf, h.name, Unstructured.getAPIVersion, Unstructured.getAPIVersion,
    Unstructured.getKind, Unstructured.getKind, Unstructured.getNamespace,
    Unstructured.getNamespace, hfield _ (by decide) (by decide), hfield _ (by decide) (by decide),
    hfield _ (by decide) (by decide)]

end Relisted

section Confined

variable {c : SharedTLSConfig} {s s' s'' : State}

/-- A pass that writes nothing stays within bounds. -/
theorem Confined.refl (c : SharedTLSConfig) (s : State) : Confined c s s :=
  ⟨fun _ _ => rfl, fun _ h => h, fun _ gw h => ⟨gw, h, .refl _ gw⟩⟩

/-- Passes that stay within bounds do so together. -/
theorem Confined.trans (h : Confined c s s') (h' : Confined c s' s'') : Confined c s s'' where
  others := fun key hkey => (h'.others key hkey).trans (h.others key hkey)
  missing := fun e hnone => h'.missing e (h.missing e hnone)
  gateways := by
    intro e gw hgw
    obtain ⟨gw', hgw', hrelisted⟩ := h.gateways e gw hgw
    obtain ⟨gw'', hgw'', hrelisted'⟩ := h'.gateways e gw' hgw'
    exact ⟨gw'', hgw'', hrelisted.trans hrelisted'⟩

end Confined

section Keys

variable {c : SharedTLSConfig} {i j : Part}

/-- The kind of the object a part is stored in. -/
def partKind : Part → GoString
  | .source => "Certificate"
  | .grant _ => "ReferenceGrant"
  | .policy _ => clientTrafficPolicyKind
  | .listener _ => gatewayKind

private theorem partKey_kind (c : SharedTLSConfig) (i : Part) :
    (partKey c i).kind = partKind i := by
  cases i with
  | source | grant | policy | listener => rfl

private theorem partKey_ne_of_kind (h : partKind i ≠ partKind j) : partKey c i ≠ partKey c j := by
  intro hkey
  apply h
  rw [← partKey_kind c i, ← partKey_kind c j, hkey]

private theorem listener_injective {e e' : Endpoint}
    (h : listenerHeaderPolicyName (listener e) = listenerHeaderPolicyName (listener e')) :
    e = e' := by
  cases e with
  | external =>
    cases e' with
    | external => rfl
    | internal => exact absurd h (by decide)
  | internal =>
    cases e' with
    | external => exact absurd h (by decide)
    | internal => rfl

/-- Two parts are stored apart, but for the listeners of one Gateway. -/
theorem partKey_ne (h : i ≠ j) (hlistener : ∀ e, i ≠ .listener e) : partKey c i ≠ partKey c j := by
  by_cases hkind : partKind i = partKind j
  · cases i with
    | source =>
      cases j with
      | source => exact absurd rfl h
      | grant | policy | listener => exact absurd hkind (by rw [partKind, partKind]; decide)
    | grant ns =>
      cases j with
      | grant ns' =>
        intro hkey
        have hname : ("nebari-llm-shared-tls-from-" : GoString) ++ ns =
            ("nebari-llm-shared-tls-from-" : GoString) ++ ns' :=
          congrArg Key.name hkey
        exact h (congrArg Part.grant (List.append_cancel_left hname))
      | source | policy | listener => exact absurd hkind (by rw [partKind, partKind]; decide)
    | policy e =>
      cases j with
      | policy e' =>
        intro hkey
        exact h (congrArg Part.policy (listener_injective (congrArg Key.name hkey)))
      | source | grant | listener => exact absurd hkind (by rw [partKind, partKind]; decide)
    | listener e => exact absurd rfl (hlistener e)
  · exact partKey_ne_of_kind hkind

end Keys

/-- What the writes of one part can change. -/
structure Moved (c : SharedTLSConfig) (i : Part) (s s' : State) : Prop where
  only : ∀ key, key ≠ partKey c i → s'.objects key = s.objects key
  owned : ∀ e, i = .policy e → Owned s' (gatewayNS c e) (listener e)
  missing : ∀ e, i = .listener e → s.objects (gatewayKey c e) = none →
    s'.objects (gatewayKey c e) = none
  relisted : ∀ e, i = .listener e → ∀ gw, s.objects (gatewayKey c e) = some gw →
    ∃ gw', s'.objects (gatewayKey c e) = some gw' ∧ Relisted [listener e] gw gw'

section Moved

variable {t : Tools} {c : SharedTLSConfig} {s s' : State} {i j : Part} {e : Endpoint}
  {gw' p : Unstructured}

/-- The names of the listeners that the writes of a part can change. -/
def partNames : Part → List GoString
  | .listener e => [listener e]
  | _ => []

private theorem Moved.gateway (h : Moved c i s s') (e : Endpoint) :
    (s.objects (gatewayKey c e) = none → s'.objects (gatewayKey c e) = none) ∧
      ∀ gw, s.objects (gatewayKey c e) = some gw →
        ∃ gw', s'.objects (gatewayKey c e) = some gw' ∧ Relisted (partNames i) gw gw' := by
  by_cases hkey : gatewayKey c e = partKey c i
  · have hkind : gatewayKind = partKind i := by
      rw [← partKey_kind c i, ← hkey]
      rfl
    cases i with
    | listener e' =>
      have hsame : gatewayKey c e = gatewayKey c e' := hkey
      rw [hsame]
      exact ⟨h.missing e' rfl, h.relisted e' rfl⟩
    | source | grant | policy => exact absurd hkind (by rw [partKind]; decide)
  · rw [h.only _ hkey]
    exact ⟨fun hnone => hnone, fun gw hgw => ⟨gw, hgw, .refl _ gw⟩⟩

/-- A Gateway that is there afterwards was there before. -/
theorem Moved.back (h : Moved c i s s') (hgw' : s'.objects (gatewayKey c e) = some gw') :
    ∃ gw, s.objects (gatewayKey c e) = some gw ∧ Relisted (partNames i) gw gw' := by
  obtain ⟨hmissing, hrelisted⟩ := h.gateway e
  cases hgw : s.objects (gatewayKey c e) with
  | none =>
    rw [hmissing hgw] at hgw'
    cases hgw'
  | some gw =>
    obtain ⟨gw'', hgw'', hsame⟩ := hrelisted gw hgw
    obtain rfl := Option.some.inj (hgw''.symm.trans hgw')
    exact ⟨gw, rfl, hsame⟩

/-- A policy of another's is nothing the writes of a part go to. -/
theorem foreign_ne (howned : ∀ e, i = .policy e → Owned s (gatewayNS c e) (listener e))
    (hp : Foreign s (gatewayNS c e) p) : keyOf p ≠ partKey c i := by
  intro hkey
  have hkind : clientTrafficPolicyKind = partKind i := by
    rw [← partKey_kind c i, ← hkey, keyOf, hp.1.2.2.1]
  cases i with
  | policy e' =>
    have hown := howned e' rfl p (by rw [← hp.1.1, hkey]; rfl)
    rw [hp.2] at hown
    cases hown
  | source | grant | listener => exact absurd hkind (by rw [partKind]; decide)

/-- Writing a part of the operator's own leaves the policies of others theirs. -/
theorem Moved.foreign (h : Moved c i s s') (howned : ∀ e, Owned s (gatewayNS c e) (listener e)) :
    Foreign s' (gatewayNS c e) p ↔ Foreign s (gatewayNS c e) p := by
  constructor
  · intro hp
    have hne := foreign_ne h.owned hp
    rw [Foreign, Policy, h.only _ hne] at hp
    exact hp
  · intro hp
    have hne : keyOf p ≠ partKey c i := foreign_ne (fun e _ => howned e) hp
    rw [Foreign, Policy, h.only _ hne]
    exact hp

private theorem Moved.owned_all (h : Moved c i s s')
    (howned : ∀ e, Owned s (gatewayNS c e) (listener e)) (e : Endpoint) :
    Owned s' (gatewayNS c e) (listener e) := by
  by_cases hi : i = .policy e
  · exact h.owned e hi
  · have hne : partKey c (.policy e) ≠ partKey c i :=
      partKey_ne (fun heq => hi heq.symm) (fun _ => by simp)
    intro o ho
    have hsame : s'.objects (ownKey (gatewayNS c e) (listener e)) =
        s.objects (ownKey (gatewayNS c e) (listener e)) :=
      h.only _ hne
    rw [hsame] at ho
    exact howned e o ho

/-- Writing one part keeps what the other parts rely on. -/
theorem Moved.ready (h : Moved c i s s') (hs : Ready t c s) : Ready t c s' where
  domain := hs.domain
  home := hs.home
  issuer := hs.issuer
  finite := by
    obtain ⟨objs, hobjs⟩ := hs.finite
    refine ⟨(s'.objects (partKey c i)).toList ++ objs, fun key obj hobj => ?_⟩
    rw [List.mem_append, Option.mem_toList]
    by_cases hkey : key = partKey c i
    · left
      rw [hkey] at hobj
      exact hobj
    · right
      rw [h.only _ hkey] at hobj
      exact hobjs key obj hobj
  owned := fun hmetering e => h.owned_all (hs.owned hmetering) e
  parsed := by
    intro hmetering e gw' hgw' p hp
    obtain ⟨gw, hgw, hsame⟩ := h.back hgw'
    have hparsed := hs.parsed hmetering e gw hgw p ((h.foreign (hs.owned hmetering)).mp hp)
    intro sel hsel
    rw [hsame.labels]
    exact hparsed sel hsel
  listed := by
    intro hmanaged e gw' hgw'
    obtain ⟨gw, hgw, hsame⟩ := h.back hgw'
    obtain ⟨listeners, hlisted⟩ := hs.listed hmanaged e gw hgw
    obtain ⟨listeners', hlisted', -⟩ := hsame.listeners listeners hlisted
    exact ⟨listeners', hlisted'⟩

private theorem partNames_mem {name : GoString} (h : name ∈ partNames i) :
    name ∈ [externalHTTPSListenerName, internalHTTPSListenerName] := by
  cases i with
  | listener e =>
    rw [partNames, List.mem_singleton] at h
    rw [h]
    cases e with
    | external => exact List.mem_cons_self
    | internal => exact List.mem_cons_of_mem _ List.mem_cons_self
  | source | grant | policy => exact absurd h List.not_mem_nil

/-- Writing a part that is wanted stays within bounds. -/
theorem Moved.confined (h : Moved c i s s') (hwanted : Wanted c i) : Confined c s s' where
  others := fun key hkey => h.only key (hkey i hwanted)
  missing := fun e => (h.gateway e).1
  gateways := by
    intro e gw hgw
    obtain ⟨gw', hgw', hsame⟩ := (h.gateway e).2 gw hgw
    exact ⟨gw', hgw', hsame.mono (fun name hname => partNames_mem hname)⟩

private theorem Placed.congr {desired : Unstructured} (h : Placed desired s)
    (hsame : s'.objects (keyOf desired) = s.objects (keyOf desired)) : Placed desired s' := by
  obtain ⟨stored, hstored, hequal⟩ := h
  exact ⟨stored, hsame.trans hstored, hequal⟩

/-- The built Certificate goes under the name the configuration gives it. -/
theorem keyOf_certificate {desired : Unstructured}
    (h : buildSharedCertificate c.baseDomain c.operatorNamespace c.clusterIssuerName =
      .ok desired) :
    keyOf desired = partKey c .source := by
  rw [buildSharedCertificate] at h
  split_ifs at h
  obtain rfl := Except.ok.inj h
  rfl

/-- A Gateway changed in its listeners alone has the policies it had. -/
theorem Guarded.congr (h : Guarded t c s e) (howned : ∀ e, Owned s (gatewayNS c e) (listener e))
    (hmoved : Moved c i s s')
    (hown : s'.objects (partKey c (.policy e)) = s.objects (partKey c (.policy e))) :
    Guarded t c s' e := by
  intro gw' hgw'
  obtain ⟨gw, hgw, hsame⟩ := hmoved.back hgw'
  have hforeign : ∀ p, Foreign s' (gatewayNS c e) p ↔ Foreign s (gatewayNS c e) p :=
    fun p => hmoved.foreign howned
  have htargets : ∀ p, TargetsListener gw' (listener e) p ↔ TargetsListener gw (listener e) p := by
    intro p
    simp only [TargetsListener, AimsAt, hsame.name]
  have hgateway : ∀ p, TargetsGateway t gw' p ↔ TargetsGateway t gw p := by
    intro p
    simp only [TargetsGateway, AimsAt, hsame.name, hsame.labels]
  have htaken : Taken s' gw' (gatewayNS c e) (listener e) ↔
      Taken s gw (gatewayNS c e) (listener e) := by
    simp only [Taken, hforeign, htargets]
  obtain ⟨htakenBefore, hnone⟩ | ⟨hfree, applied, happlied, hplaced⟩ := h gw hgw
  · exact .inl ⟨htaken.mpr htakenBefore, hown.trans hnone⟩
  · refine .inr ⟨fun htakenAfter => hfree (htaken.mp htakenAfter), applied, ?_, hplaced.congr ?_⟩
    · cases applied with
      | none =>
        intro p hp htarget
        exact happlied p ((hforeign p).mp hp) ((hgateway p).mp htarget)
      | some p =>
        obtain ⟨hp, htarget, hfirst⟩ := happlied
        refine ⟨(hforeign p).mpr hp, (hgateway p).mpr htarget, fun q hq hqtarget => ?_⟩
        exact hfirst q ((hforeign q).mp hq) ((hgateway q).mp hqtarget)
    · rw [keyOf_listenerPolicy]
      exact hown

/-- The writes of one part leave the others in order. -/
theorem Moved.inOrder (h : Moved c i s s') (hs : Ready t c s) (hne : j ≠ i) (hwanted : Wanted c j)
    (hj : InOrder t c j s) : InOrder t c j s' := by
  cases j with
  | source =>
    have hsame := h.only _ (partKey_ne hne (fun _ => by simp))
    have hsourced : Sourced c s := hj
    change Sourced c s'
    rw [Sourced] at hsourced ⊢
    split_ifs at hsourced ⊢ with htls
    · exact hsame.trans hsourced
    · obtain ⟨desired, hbuilt, hplaced⟩ := hsourced
      refine ⟨desired, hbuilt, hplaced.congr ?_⟩
      rw [keyOf_certificate hbuilt]
      exact hsame
  | grant ns => exact Placed.congr hj (h.only _ (partKey_ne hne (fun _ => by simp)))
  | policy e => exact Guarded.congr hj (hs.owned hwanted) h (h.only _ (partKey_ne hne (fun _ => by simp)))
  | listener e =>
    intro gw' hgw'
    obtain ⟨gw, hgw, hsame⟩ := h.back hgw'
    obtain ⟨listeners, l, hlisted, hl, hname, hreads⟩ := hj gw hgw
    obtain ⟨listeners', hlisted', hothers⟩ := hsame.listeners listeners hlisted
    refine ⟨listeners', l, hlisted', ?_, hname, hreads⟩
    have houtside : outside (partNames i) (.map l) = true := by
      rw [outside, List.all_eq_true]
      intro name hmem
      rw [Bool.not_eq_true', Bool.eq_false_iff, ne_eq, named_map, hname]
      intro heq
      cases i with
      | listener e' =>
        rw [partNames, List.mem_singleton, ← heq] at hmem
        exact hne (congrArg Part.listener
          (listener_injective (congrArg listenerHeaderPolicyName hmem)))
      | source | grant | policy => exact absurd hmem List.not_mem_nil
    have hkept : Value.map l ∈ listeners.filter (outside (partNames i)) :=
      List.mem_filter.mpr ⟨hl, houtside⟩
    rw [← hothers] at hkept
    exact (List.mem_filter.mp hkept).1

end Moved

end sharedtls
