import Mathlib.Data.List.Count
import ServingPack.Operator.Reconcilers.ClusterTLS

open golang unstructured unstructured.Value reconcilers

namespace sharedlisteners

/-- The fields a Gateway's listeners stand under. -/
def listenersPath : List GoString := ["spec", "listeners"]

/-- Whether a value is a listener of a name. -/
def named (name : GoString) (v : Value) : Bool := v.isMap && listenerName (asMap (some v)) == name

/-- A Gateway whose `spec.listeners` is a list of listener objects with distinct names. -/
structure Listed (gateway : Fields Value) (listeners : List Value) : Prop where
  read : nestedSlice gateway listenersPath = .ok (some listeners)
  objects : ∀ v ∈ listeners, v.isMap = true
  distinct : (listeners.map (fun v => listenerName (asMap (some v)))).Nodup

/-- What a merge that returns without an error is to leave. -/
structure Merged (name hostname secretName secretNamespace : GoString) (listeners : List Value)
    (gateway gateway' : Fields Value) (changed : Bool) : Prop where
  one : ∃ listeners', nestedSlice gateway' listenersPath = .ok (some listeners') ∧
    listeners'.filter (named name) =
      [.map (buildHTTPSListener name hostname secretName secretNamespace)] ∧
    listeners'.filter (fun v => !named name v) = listeners.filter (fun v => !named name v)
  rest : ∀ path, ¬path <+: listenersPath → ¬listenersPath <+: path →
    nestedFieldNoCopy (.map gateway') path = nestedFieldNoCopy (.map gateway) path
  reported : changed = false ↔
    listeners.filter (named name) =
      [.map (buildHTTPSListener name hostname secretName secretNamespace)]
  unchanged : changed = false → gateway' = gateway
  again : mergeHTTPSListener (some gateway') name hostname secretName secretNamespace =
    .ok (false, gateway')

/-- A listener whose fields that the reconciler sets print as it sets them. What
else it has does not matter. -/
structure ReadsAsBuilt (name hostname secretName secretNamespace : GoString) (l : Fields Value) :
    Prop where
  name : textOf l "name" = name
  protocol : textOf l "protocol" = lit "HTTPS"
  port : textOf l "port" = lit "443"
  hostname : textOf l "hostname" = hostname
  mode : textOf (asMap (l.get "tls")) "mode" = lit "Terminate"
  certificateRef : ∃ ref, asSlice ((asMap (l.get "tls")).get "certificateRefs") = [ref] ∧
    textOf (asMap (some ref)) "kind" = lit "Secret" ∧
      textOf (asMap (some ref)) "name" = secretName ∧
    textOf (asMap (some ref)) "namespace" = secretNamespace
  allowed : textOf (asMap ((asMap (l.get "allowedRoutes")).get "namespaces")) "from" = lit "All"

section Compare

variable {name hostname secretName secretNamespace : GoString} {l : Fields Value}

private theorem listenersEqual_iff :
    listenersEqual l (buildHTTPSListener name hostname secretName secretNamespace) = true ↔
      ReadsAsBuilt name hostname secretName secretNamespace l := by
  have hname : textOf (buildHTTPSListener name hostname secretName secretNamespace) "name" = name :=
    rfl
  have hprotocol : textOf (buildHTTPSListener name hostname secretName secretNamespace) "protocol" =
    lit "HTTPS" := rfl
  have hport : textOf (buildHTTPSListener name hostname secretName secretNamespace) "port" =
    lit "443" := rfl
  have hhostname : textOf (buildHTTPSListener name hostname secretName secretNamespace) "hostname" =
    hostname := rfl
  have hmode : textOf (asMap
    ((buildHTTPSListener name hostname secretName secretNamespace).get "tls")) "mode" =
      lit "Terminate" := rfl
  have hrefs :
    asSlice ((asMap ((buildHTTPSListener name hostname secretName secretNamespace).get "tls")).get
      "certificateRefs") = [.map [("kind", .string "Secret"), ("name", .string secretName),
        ("namespace", .string secretNamespace)]] := rfl
  have hfrom :
    textOf (asMap ((asMap ((buildHTTPSListener name hostname secretName secretNamespace).get
      "allowedRoutes")).get "namespaces")) "from" = lit "All" := rfl
  have hkind : ∀ s t : GoString,
    textOf [("kind", .string "Secret"), ("name", .string s), ("namespace", .string t)]
      "kind" = lit "Secret" := fun _ _ => rfl
  have hrefName : ∀ s t : GoString,
    textOf [("kind", .string "Secret"), ("name", .string s), ("namespace", .string t)]
      "name" = s := fun _ _ => rfl
  have hrefNamespace : ∀ s t : GoString, textOf [("kind", .string "Secret"), ("name", .string s),
      ("namespace", .string t)] "namespace" = t := fun _ _ => rfl
  simp only [listenersEqual, List.all_cons, List.all_nil, hname, hprotocol, hport, hhostname, hmode,
    hrefs, hfrom, Bool.and_eq_true, beq_iff_eq, and_true]
  constructor
  · intro ⟨⟨⟨⟨h1, h2, h3, h4⟩, h5⟩, h6, h7⟩, h8⟩
    obtain ⟨ref, href⟩ := List.length_eq_one_iff.mp h6
    rw [href] at h7
    simp only [List.zip_cons_cons, List.zip_nil_right, List.all_cons, List.all_nil, asMap, hkind,
      hrefName, hrefNamespace, Bool.and_eq_true, beq_iff_eq, and_true] at h7
    exact ⟨h1, h2, h3, h4, h5, ⟨ref, href, h7⟩, h8⟩
  · intro h
    obtain ⟨ref, href, hkinds⟩ := h.certificateRef
    refine ⟨⟨⟨⟨h.name, h.protocol, h.port, h.hostname⟩, h.mode⟩, ?_, ?_⟩, h.allowed⟩
    · rw [href]
      rfl
    · rw [href]
      simp only [List.zip_cons_cons, List.zip_nil_right, List.all_cons, List.all_nil, asMap, hkind,
        hrefName, hrefNamespace, Bool.and_eq_true, beq_iff_eq, and_true]
      exact hkinds

/-- The listener as built reads as built. -/
theorem readsAsBuilt_self : ReadsAsBuilt name hostname secretName secretNamespace
    (buildHTTPSListener name hostname secretName secretNamespace) :=
  ⟨rfl, rfl, rfl, rfl, rfl, ⟨_, rfl, rfl, rfl, rfl⟩, rfl⟩

end Compare

section Scan

variable {name : GoString} {desired l : Fields Value} {ls before after : List Value} {v : Value}

/-- A listener is found by its name field alone. -/
theorem named_map : named name (.map l) = true ↔ listenerName l = name := by
  rw [named, Bool.and_eq_true, beq_iff_eq]
  exact and_iff_right rfl

/-- Listeners of other names are passed over. -/
theorem scanListeners_append (h : ∀ v ∈ before, named name v = false) (rest : List Value) :
    scanListeners name desired (before ++ rest) =
      before.foldr Scanned.behind (scanListeners name desired rest) := by
  induction before with
  | nil => rfl
  | cons v before ih =>
    have hv := h v List.mem_cons_self
    have hbefore := ih (fun v' hv' => h v' (List.mem_cons_of_mem _ hv'))
    rw [List.cons_append, List.foldr_cons, ← hbefore]
    cases v with
    | map l =>
      have hname : ¬listenerName l = name := fun hname => by simp [named_map.mpr hname] at hv
      rw [scanListeners, if_neg hname]
    | null | bool | int | float | string | slice => rw [scanListeners]; exact fun _ h => by cases h

private theorem scanListeners_missing (h : ∀ v ∈ ls, named name v = false) :
    scanListeners name desired ls = .missing := by
  rw [← List.append_nil ls, scanListeners_append h]
  induction ls with
  | nil => rfl
  | cons v ls ih =>
    rw [List.foldr_cons, ih (fun v' hv' => h v' (List.mem_cons_of_mem _ hv'))]
    rfl

private theorem foldr_behind (before rest : List Value) :
    before.foldr Scanned.behind (.replaced rest) = .replaced (before ++ rest) := by
  induction before with
  | nil => rfl
  | cons v before ih => rw [List.foldr_cons, ih, Scanned.behind, List.cons_append]

private theorem foldr_behind_equal (before : List Value) :
    before.foldr Scanned.behind .equal = .equal := by
  induction before with
  | nil => rfl
  | cons v before ih =>
    rw [List.foldr_cons, ih]
    rfl

/-- The listener of the name is replaced unless it is equal for the code. -/
theorem scanListeners_found (h : ∀ v ∈ before, named name v = false) (hl : listenerName l = name) :
    scanListeners name desired (before ++ .map l :: after) =
      if listenersEqual l desired then .equal else .replaced (before ++ .map desired :: after) := by
  rw [scanListeners_append h, scanListeners, if_pos hl]
  split_ifs
  · exact foldr_behind_equal before
  · exact foldr_behind before _

end Scan

section Write

variable {gateway gateway' : Fields Value} {listeners listeners' : List Value} {changed : Bool}

/-- A Gateway with listeners has a spec with them. -/
theorem Listed.spec (h : Listed gateway listeners) :
    ∃ spec : Fields Value, gateway.get "spec" = some (.map spec) ∧
    spec.get "listeners" = some (.slice listeners) := by
  have hread := h.read
  rw [nestedSlice, listenersPath, Unstructured.nestedFieldNoCopy_cons] at hread
  cases hspec : gateway.get "spec" with
  | none => simp [hspec] at hread
  | some spec =>
    cases spec with
    | map spec =>
      simp only [hspec, Unstructured.nestedFieldNoCopy_cons] at hread
      cases hlisteners : Fields.get spec "listeners" with
      | none => simp [hlisteners, Except.mapError] at hread
      | some v =>
        cases v with
        | slice elems =>
          simp only [hlisteners, nestedFieldNoCopy, Except.mapError, Except.ok.injEq,
            Option.some.injEq] at hread
          exact ⟨spec, rfl, by rw [hlisteners, hread]⟩
        | null | bool | int | float | string | map =>
          simp [hlisteners, nestedFieldNoCopy, Except.mapError] at hread
    | null | bool | int | float | string | slice =>
      simp [hspec, nestedFieldNoCopy, Except.mapError] at hread

/-- Writing the listeners sets them and nothing else. -/
theorem writeListeners_eq (h : Listed gateway listeners) (listeners' : List Value) :
    ∃ gateway', writeListeners gateway listeners' = .ok (true, gateway') ∧
      nestedSlice gateway' listenersPath = .ok (some listeners') ∧
      ∀ path, ¬path <+: listenersPath → ¬listenersPath <+: path →
        nestedFieldNoCopy (.map gateway') path = nestedFieldNoCopy (.map gateway) path := by
  obtain ⟨spec, hspec, hlisteners⟩ := h.spec
  refine ⟨gateway.set "spec" (.map (Fields.set spec "listeners" (.slice listeners'))), ?_, ?_, ?_⟩
  · simp only [writeListeners, setNestedField, hspec]
  · simp only [nestedSlice, listenersPath, Unstructured.nestedFieldNoCopy_cons, Fields.get_set_self,
      nestedFieldNoCopy, Except.mapError]
  · intro path hshort hlong
    cases path with
    | nil => exact absurd List.nil_prefix hshort
    | cons field rest =>
      by_cases hfield : field = lit "spec"
      · subst hfield
        rw [Unstructured.nestedFieldNoCopy_cons, Unstructured.nestedFieldNoCopy_cons,
          Fields.get_set_self, hspec]
        cases rest with
        | nil => exact absurd ⟨[lit "listeners"], rfl⟩ hshort
        | cons field rest =>
          have hfield : field ≠ lit "listeners" := by
            intro hfield
            subst hfield
            exact hlong ⟨rest, rfl⟩
          simp only
          rw [Unstructured.nestedFieldNoCopy_congr (Fields.get_set_ne hfield)]
      · exact Unstructured.nestedFieldNoCopy_congr (Fields.get_set_ne hfield)

end Write

section Merge

variable {name hostname secretName secretNamespace : GoString} {gateway gateway' : Fields Value}
  {listeners before after : List Value} {l : Fields Value} {changed : Bool}

/-- The built listener is found by the name it was built for. -/
theorem listenerName_build :
    listenerName (buildHTTPSListener name hostname secretName secretNamespace) = name := rfl

/-- At most one listener has the name. -/
theorem Listed.split (h : Listed gateway listeners) (name : GoString) :
    (∀ v ∈ listeners, named name v = false) ∨
    ∃ before l after, listeners = before ++ .map l :: after ∧
      listenerName l = name ∧ (∀ v ∈ before, named name v = false) ∧
      ∀ v ∈ after, named name v = false := by
  by_cases hnone : ∀ v ∈ listeners, named name v = false
  · exact .inl hnone
  · right
    push Not at hnone
    obtain ⟨v, hv, hnamed⟩ := hnone
    obtain ⟨before, after, hsplit⟩ := List.append_of_mem hv
    have hnamed : named name v = true := by simpa using hnamed
    have hmap := h.objects v hv
    cases v with
    | map l =>
      have hl := named_map.mp hnamed
      have hdistinct := h.distinct
      rw [hsplit, List.map_append, List.map_cons, List.nodup_middle, List.nodup_cons,
        ← List.map_append] at hdistinct
      have hother : ∀ v ∈ before ++ after, named name v = false := by
        intro v' hv'
        by_contra hcontra
        rw [Bool.not_eq_false, named, Bool.and_eq_true, beq_iff_eq] at hcontra
        exact hdistinct.1 (List.mem_map.mpr ⟨v', hv', hcontra.2.trans hl.symm⟩)
      exact ⟨before, l, after, hsplit, hl, fun v' hv' => hother v' (List.mem_append_left _ hv'),
        fun v' hv' => hother v' (List.mem_append_right _ hv')⟩
    | null | bool | int | float | string | slice => cases hmap

private theorem merge_eq (h : Listed gateway listeners) :
    mergeHTTPSListener (some gateway) name hostname secretName secretNamespace =
      match scanListeners name
        (buildHTTPSListener name hostname secretName secretNamespace) listeners with
      | .equal => .ok (false, gateway)
      | .replaced listeners' => writeListeners gateway listeners'
      | .missing => writeListeners gateway
          (listeners ++ [.map (buildHTTPSListener name hostname secretName secretNamespace)]) := by
  have hread := h.read
  rw [listenersPath] at hread
  cases hscan : scanListeners name
    (buildHTTPSListener name hostname secretName secretNamespace) listeners with
  | equal | replaced | missing => simp only [mergeHTTPSListener, hread, hscan, Option.getD_some]

/-- A Gateway that has the listener already is left as it is. -/
theorem merge_equal (h : Listed gateway listeners) (hsplit : listeners = before ++ .map l :: after)
    (hname : listenerName l = name) (hbefore : ∀ v ∈ before, named name v = false)
    (hl : ReadsAsBuilt name hostname secretName secretNamespace l) :
    mergeHTTPSListener (some gateway) name hostname secretName secretNamespace =
      .ok (false, gateway) := by
  rw [merge_eq h, hsplit, scanListeners_found hbefore hname, if_pos (listenersEqual_iff.mpr hl)]

/-- A name that one listener has splits the list in that listener and the others, in order. -/
theorem filter_named {v : Value} (hbefore : ∀ v ∈ before, named name v = false)
    (hafter : ∀ v ∈ after, named name v = false) (hv : named name v = true) :
    (before ++ v :: after).filter (named name) = [v] ∧
      (before ++ v :: after).filter (fun v => !named name v) = before ++ after := by
  have hnone : ∀ ls : List Value, (∀ v ∈ ls, named name v = false) → ls.filter (named name) = [] ∧
      ls.filter (fun v => !named name v) = ls := by
    intro ls hls
    rw [List.filter_eq_nil_iff, List.filter_eq_self]
    refine ⟨fun v hv => ?_, fun v hv => ?_⟩
    · rw [hls v hv]
      exact Bool.false_ne_true
    · rw [hls v hv]
      rfl
  obtain ⟨hb, hb'⟩ := hnone before hbefore
  obtain ⟨ha, ha'⟩ := hnone after hafter
  constructor
  · rw [List.filter_append, hb, List.nil_append, List.filter_cons_of_pos hv, ha]
  · rw [List.filter_append, hb', List.filter_cons_of_neg (by simp [hv]), ha']

/-- What a merge writes: the listener as built, in the place of the one of its name
or behind the others. -/
theorem merge_written (h : Listed gateway listeners)
    (hsplit : (∀ v ∈ listeners, named name v = false) ∧ before = listeners ∧ after = [] ∨
      ∃ l, listeners = before ++ .map l :: after ∧ listenerName l = name ∧
        ¬ReadsAsBuilt name hostname secretName secretNamespace l)
    (hbefore : ∀ v ∈ before, named name v = false) (hafter : ∀ v ∈ after, named name v = false) :
    ∃ gateway', mergeHTTPSListener (some gateway) name hostname secretName secretNamespace =
      .ok (true, gateway') ∧
      Listed gateway'
        (before ++ .map (buildHTTPSListener name hostname secretName secretNamespace) :: after) ∧
      ∀ path, ¬path <+: listenersPath → ¬listenersPath <+: path →
        nestedFieldNoCopy (.map gateway') path = nestedFieldNoCopy (.map gateway) path := by
  obtain ⟨gateway', hwrite, hread, hrest⟩ := writeListeners_eq h
    (before ++ .map (buildHTTPSListener name hostname secretName secretNamespace) :: after)
  refine ⟨gateway', ?_, ⟨hread, ?_, ?_⟩, hrest⟩
  · rw [merge_eq h]
    obtain ⟨hmissing, rfl, rfl⟩ | ⟨l, hlisteners, hname, hl⟩ := hsplit
    · rw [scanListeners_missing hmissing]
      exact hwrite
    · rw [hlisteners, scanListeners_found hbefore hname,
        if_neg (fun he => hl (listenersEqual_iff.mp he))]
      exact hwrite
  · intro v hv
    obtain hv | hv := List.mem_append.mp hv
    · obtain ⟨-, rfl, -⟩ | ⟨l, hlisteners, -, -⟩ := hsplit
      · exact h.objects v hv
      · exact h.objects v (hlisteners ▸ List.mem_append_left _ hv)
    · obtain rfl | hv := List.mem_cons.mp hv
      · rfl
      · obtain ⟨-, -, rfl⟩ | ⟨l, hlisteners, -, -⟩ := hsplit
        · cases hv
        · exact h.objects v (hlisteners ▸ List.mem_append_right _ (List.mem_cons_of_mem _ hv))
  · have hdistinct := h.distinct
    obtain ⟨hmissing, rfl, rfl⟩ | ⟨l, hlisteners, hname, -⟩ := hsplit
    · rw [List.map_append, List.map_cons, List.nodup_middle, List.map_nil, List.append_nil,
        List.nodup_cons]
      refine ⟨?_, hdistinct⟩
      intro hmem
      obtain ⟨v, hv, hname⟩ := List.mem_map.mp hmem
      have hnamed : named name v = true := by
        rw [named, Bool.and_eq_true, beq_iff_eq]
        exact ⟨h.objects v hv, hname⟩
      rw [hmissing v hv] at hnamed
      cases hnamed
    · rw [hlisteners, List.map_append, List.map_cons] at hdistinct
      rw [List.map_append, List.map_cons]
      have hsame : listenerName (asMap (some (.map l))) = listenerName (asMap (some (.map
          (buildHTTPSListener name hostname secretName secretNamespace)))) := hname
      rw [← hsame]
      exact hdistinct

/-- A merge either leaves the Gateway with a listener that reads as the one built,
or writes the one built. -/
theorem merge_cases (h : Listed gateway listeners)
    (hmerge : mergeHTTPSListener (some gateway) name hostname secretName secretNamespace =
      .ok (changed, gateway')) :
    ∃ before after, (∀ v ∈ before, named name v = false) ∧ (∀ v ∈ after, named name v = false) ∧
      ((∃ l, listeners = before ++ .map l :: after ∧ listenerName l = name ∧
          ReadsAsBuilt name hostname secretName secretNamespace l ∧ changed = false ∧
          gateway' = gateway) ∨
        ((∀ v ∈ listeners, named name v = false) ∧ before = listeners ∧ after = [] ∨
          ∃ l, listeners = before ++ .map l :: after ∧ listenerName l = name ∧
            ¬ReadsAsBuilt name hostname secretName secretNamespace l) ∧ changed = true ∧
          Listed gateway' (before ++
            .map (buildHTTPSListener name hostname secretName secretNamespace) :: after) ∧
          ∀ path, ¬path <+: listenersPath → ¬listenersPath <+: path →
            nestedFieldNoCopy (.map gateway') path = nestedFieldNoCopy (.map gateway) path) := by
  obtain hmissing | ⟨before, l, after, hsplit, hname, hbefore, hafter⟩ := h.split name
  · obtain ⟨gateway'', hwritten, hlisted, hrest⟩ :=
      @merge_written name hostname secretName secretNamespace _ _ _ _
      h (.inl ⟨hmissing, rfl, rfl⟩) hmissing (fun v hv => (by cases hv))
    obtain ⟨rfl, rfl⟩ := Prod.mk.inj (Except.ok.inj (hwritten.symm.trans hmerge))
    exact ⟨listeners, [], hmissing, fun v hv => (by cases hv),
      .inr ⟨.inl ⟨hmissing, rfl, rfl⟩, rfl, hlisted, hrest⟩⟩
  · refine ⟨before, after, hbefore, hafter, ?_⟩
    by_cases hl : ReadsAsBuilt name hostname secretName secretNamespace l
    · left
      obtain ⟨rfl, rfl⟩ := Prod.mk.inj
        (Except.ok.inj ((merge_equal h hsplit hname hbefore hl).symm.trans hmerge))
      exact ⟨l, hsplit, hname, hl, rfl, rfl⟩
    · right
      obtain ⟨gateway'', hwritten, hlisted, hrest⟩ :=
        merge_written h (.inr ⟨l, hsplit, hname, hl⟩) hbefore hafter
      obtain ⟨rfl, rfl⟩ := Prod.mk.inj (Except.ok.inj (hwritten.symm.trans hmerge))
      exact ⟨.inr ⟨l, hsplit, hname, hl⟩, rfl, hlisted, hrest⟩

/-- Whatever a merge finds, one listener has the name afterwards, and the listeners of
other names are as they were. -/
theorem merge_listed (h : Listed gateway listeners)
    (hmerge : mergeHTTPSListener (some gateway) name hostname secretName secretNamespace =
      .ok (changed, gateway')) :
    ∃ listeners' v, Listed gateway' listeners' ∧ listeners'.filter (named name) = [v] ∧
      listeners'.filter (fun v => !named name v) = listeners.filter (fun v => !named name v) := by
  obtain ⟨before, after, hbefore, hafter,
    ⟨l, hsplit, hname, -, -, rfl⟩ | ⟨hsplit, -, hlisted, -⟩⟩ := merge_cases h hmerge
  · refine ⟨listeners, .map l, h, ?_, rfl⟩
    rw [hsplit]
    exact (filter_named hbefore hafter (named_map.mpr hname)).1
  · obtain ⟨hone, hothers⟩ := filter_named hbefore hafter (named_map.mpr listenerName_build)
      (v := .map (buildHTTPSListener name hostname secretName secretNamespace))
    refine ⟨_, _, hlisted, hone, hothers.trans ?_⟩
    obtain ⟨hmissing, rfl, rfl⟩ | ⟨l, hlisteners, hname, -⟩ := hsplit
    · rw [List.append_nil, List.filter_eq_self.mpr (fun v hv => by rw [hmissing v hv]; rfl)]
    · rw [hlisteners, (filter_named hbefore hafter (named_map.mpr hname)).2]

/-- After a merge that wrote, everything is as it is to be. -/
theorem merged_of_written (h : Listed gateway listeners)
    (hmerge : mergeHTTPSListener (some gateway) name hostname secretName secretNamespace =
      .ok (true, gateway')) :
    Merged name hostname secretName secretNamespace listeners gateway gateway' true := by
  obtain ⟨before, after, hbefore, hafter,
    ⟨l, -, -, -, hchanged, -⟩ | ⟨hsplit, -, hlisted, hrest⟩⟩ := merge_cases h hmerge
  · cases hchanged
  · obtain ⟨hone, -⟩ := filter_named hbefore hafter (named_map.mpr listenerName_build)
      (v := .map (buildHTTPSListener name hostname secretName secretNamespace))
    obtain ⟨listeners', -, hlisted', -, hothers⟩ := merge_listed h hmerge
    obtain rfl := Option.some.inj (Except.ok.inj (hlisted'.read.symm.trans hlisted.read))
    refine ⟨⟨_, hlisted.read, hone, hothers⟩, hrest, ⟨fun h => (by cases h), fun halready => ?_⟩,
      fun h => (by cases h),
      merge_equal hlisted rfl listenerName_build hbefore readsAsBuilt_self⟩
    obtain ⟨hmissing, rfl, rfl⟩ | ⟨l, hlisteners, hname, hl⟩ := hsplit
    · rw [List.filter_eq_nil_iff.mpr (fun v hv => by rw [hmissing v hv]; exact Bool.false_ne_true)]
        at halready
      cases halready
    · rw [hlisteners, (filter_named hbefore hafter (named_map.mpr hname)).1] at halready
      obtain rfl := Value.map.inj (List.cons.inj halready).1
      exact absurd readsAsBuilt_self hl

/-- After a merge that wrote nothing, everything is as it is to be where the listener
is the one built. -/
theorem merged_of_kept (h : Listed gateway listeners)
    (hsplit : listeners = before ++ .map l :: after)
    (hname : listenerName l = name) (hbefore : ∀ v ∈ before, named name v = false)
    (hafter : ∀ v ∈ after, named name v = false)
    (hl : ReadsAsBuilt name hostname secretName secretNamespace l) :
    Merged name hostname secretName secretNamespace listeners gateway gateway false ↔
      l = buildHTTPSListener name hostname secretName secretNamespace := by
  have hone : listeners.filter (named name) = [.map l] := by
    rw [hsplit]
    exact (filter_named hbefore hafter (named_map.mpr hname)).1
  constructor
  · intro hmerged
    have halready := hmerged.reported.mp rfl
    rw [hone] at halready
    exact Value.map.inj (List.cons.inj halready).1
  · intro hbuilt
    rw [hbuilt] at hone
    exact ⟨⟨listeners, h.read, hone, rfl⟩, fun _ _ _ => rfl, ⟨fun _ => hone, fun _ => rfl⟩,
      fun _ => rfl,
      merge_equal h hsplit hname hbefore hl⟩

end Merge

/-- Whether every merge that returns without an error leaves the Gateway so. -/
def MergesExactly (name hostname secretName secretNamespace : GoString) (gateway : Fields Value)
    (listeners : List Value) : Prop :=
  ∀ changed gateway', mergeHTTPSListener (some gateway) name hostname secretName secretNamespace =
    .ok (changed, gateway') →
    Merged name hostname secretName secretNamespace listeners gateway gateway' changed

/-- Merging one listener and then another leaves one of each name, and the first as
its own merge left it. -/
def KeepsBoth (name name' hostname hostname' secretName secretNamespace : GoString)
    (gateway : Fields Value) : Prop :=
  ∀ changed changed' gateway' gateway'',
    mergeHTTPSListener (some gateway) name hostname secretName secretNamespace =
      .ok (changed, gateway') →
    mergeHTTPSListener (some gateway') name' hostname' secretName secretNamespace =
      .ok (changed', gateway'') →
    ∃ listeners' listeners'' v v', nestedSlice gateway' listenersPath = .ok (some listeners') ∧
      nestedSlice gateway'' listenersPath = .ok (some listeners'') ∧
        listeners'.filter (named name) = [v] ∧
      listeners''.filter (named name) = [v] ∧ listeners''.filter (named name') = [v']

section Results

variable {name name' hostname hostname' secretName secretNamespace : GoString}
  {gateway : Fields Value} {listeners : List Value}

private theorem keepsBoth_of_ne (h : Listed gateway listeners) (hne : name ≠ name') :
    KeepsBoth name name' hostname hostname' secretName secretNamespace gateway := by
  intro changed changed' gateway' gateway'' hmerge hmerge'
  obtain ⟨listeners', v, hlisted, hone, -⟩ := merge_listed h hmerge
  obtain ⟨listeners'', v', hlisted', hone', hothers⟩ := merge_listed hlisted hmerge'
  have hsub : ∀ ls : List Value, (ls.filter (fun v => !named name' v)).filter (named name) =
      ls.filter (named name) := by
    intro ls
    rw [List.filter_filter]
    apply List.filter_congr
    intro v _
    cases hv : named name v with
    | false => rfl
    | true =>
      rw [named, Bool.and_eq_true, beq_iff_eq] at hv
      have hv' : named name' v = false := by
        rw [named, hv.2, Bool.and_eq_false_iff]
        exact .inr (beq_false_of_ne hne)
      rw [hv']
      rfl
  refine ⟨listeners', listeners'', v, v', hlisted.read, hlisted'.read, hone, ?_, hone'⟩
  rw [← hsub listeners'', hothers, hsub, hone]

/-- A merge is exact unless the Gateway has a listener of the name that reads as the
one built and is another: it has more within it, or a value of another type. In either
case the external and the internal listener are merged into one Gateway side by side,
in either order. -/
theorem merges_exactly_iff {gateway : Unstructured} (h : Listed gateway.object listeners) :
    (MergesExactly name hostname secretName secretNamespace gateway.object listeners ↔
      ∀ l, .map l ∈ listeners → listenerName l = name →
        l = buildHTTPSListener name hostname secretName secretNamespace ∨
          ¬ReadsAsBuilt name hostname secretName secretNamespace l) ∧
    KeepsBoth externalHTTPSListenerName internalHTTPSListenerName hostname hostname' secretName
      secretNamespace
      gateway.object ∧
    KeepsBoth internalHTTPSListenerName externalHTTPSListenerName hostname' hostname secretName
      secretNamespace
      gateway.object := by
  refine ⟨⟨fun hexact l hmem hname => ?_, fun hlisteners changed gateway' hmerge => ?_⟩,
    keepsBoth_of_ne h (by decide), keepsBoth_of_ne h (by decide)⟩
  · by_cases hl : ReadsAsBuilt name hostname secretName secretNamespace l
    · left
      obtain hmissing | ⟨before, l', after, hsplit, hname', hbefore, hafter⟩ := h.split name
      · have hnamed := hmissing _ hmem
        rw [named_map.mpr hname] at hnamed
        cases hnamed
      · have hone := (filter_named hbefore hafter (named_map.mpr hname')).1
        have hl' : Value.map l ∈ listeners.filter (named name) :=
          List.mem_filter.mpr ⟨hmem, named_map.mpr hname⟩
        rw [hsplit, hone, List.mem_singleton] at hl'
        obtain rfl := Value.map.inj hl'
        apply (merged_of_kept h hsplit hname hbefore hafter hl).mp
        exact hexact _ _ (merge_equal h hsplit hname hbefore hl)
    · exact .inr hl
  · obtain ⟨before, after, hbefore, hafter, ⟨l, hsplit, hname, hl, rfl, rfl⟩ | ⟨-, rfl, -, -⟩⟩ :=
      merge_cases h hmerge
    · have hmem : Value.map l ∈ listeners := hsplit ▸ List.mem_append_right _ List.mem_cons_self
      apply (merged_of_kept h hsplit hname hbefore hafter hl).mpr
      exact (hlisteners l hmem hname).resolve_right (not_not.mpr hl)
    · exact merged_of_written h hmerge

end Results

section Concrete

/-- A Gateway with a listener of its own and one more. -/
def gatewayWith (l : Fields Value) : Fields Value :=
  [("apiVersion", .string "gateway.networking.k8s.io/v1"), ("kind", .string "Gateway"),
    ("spec", .map [("gatewayClassName", .string "envoy-gateway"),
      ("listeners", .slice [.map [("hostname", .string "argocd.example.com"),
        ("name", .string "https-argocd")], .map l])])]

/-- The external listener as built, with TLS options that someone added. -/
def editedListener : Fields Value :=
  [("allowedRoutes", .map [("namespaces", .map [("from", .string "All")])]),
    ("hostname", .string "llm.example.com"),
    ("name", .string "llm-https"), ("port", .int 443), ("protocol", .string "HTTPS"),
    ("tls", .map [("certificateRefs",
      .slice [.map [("kind", .string "Secret"), ("name", .string "nebari-llm-shared-tls"),
        ("namespace", .string "llm-serving")]]),
      ("mode", .string "Terminate"),
        ("options", .map [("example.com/min-version", .string "1.0")])])]

/-- A listener of the same name for another host. -/
def otherListener : Fields Value :=
  [("hostname", .string "old.example.com"), ("name", .string "llm-https")]

private theorem listed_gatewayWith (l : Fields Value) (hl : listenerName l = lit "llm-https") :
    Listed (gatewayWith l)
      [.map [("hostname", .string "argocd.example.com"), ("name", .string "https-argocd")],
        .map l] := by
  refine ⟨rfl, ?_, ?_⟩
  · intro v hv
    simp only [List.mem_cons, List.not_mem_nil, or_false] at hv
    obtain rfl | rfl := hv
    · rfl
    · rfl
  · simp only [List.map_cons, List.map_nil, asMap, hl]
    decide

/-- What was added to the listener stays there. -/
theorem edited_listener_kept :
    ¬MergesExactly "llm-https" "llm.example.com" "nebari-llm-shared-tls" "llm-serving"
    (gatewayWith editedListener)
    [.map [("hostname", .string "argocd.example.com"), ("name", .string "https-argocd")],
      .map editedListener] := by
  intro hexact
  have hmerged := hexact false (gatewayWith editedListener) rfl
  obtain ⟨listeners', hread, hone, -⟩ := hmerged.one
  obtain rfl := Option.some.inj
    (Except.ok.inj ((listed_gatewayWith editedListener rfl).read.symm.trans hread))
  have hbuilt := Value.map.inj (List.cons.inj hone).1
  exact absurd (congrArg (fun l => (asMap (Fields.get l "tls")).length) hbuilt) (by decide)

/-- A listener for another host is replaced. -/
theorem other_listener_replaced :
    MergesExactly "llm-https" "llm.example.com" "nebari-llm-shared-tls" "llm-serving"
    (gatewayWith otherListener)
    [.map [("hostname", .string "argocd.example.com"), ("name", .string "https-argocd")],
      .map otherListener] := by
  apply (@merges_exactly_iff "llm-https" "llm.example.com"
    [] "nebari-llm-shared-tls" "llm-serving" _
    ⟨gatewayWith otherListener, by decide⟩ (listed_gatewayWith otherListener rfl)).1.mpr
  intro l hmem hname
  simp only [List.mem_cons, List.not_mem_nil, or_false, Value.map.injEq] at hmem
  obtain rfl | rfl := hmem
  · exact absurd hname (by decide)
  · right
    intro hl
    exact absurd hl.hostname (by decide)

end Concrete

end sharedlisteners
