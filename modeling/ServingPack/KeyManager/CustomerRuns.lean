import ServingPack.KeyManager.CustomerStore

open golang concurrency secrets

namespace customers

/-- The subject keys of `wanted` that neither the creator's customer, which holds
`held`, nor any other customer holds. -/
def missing (st : Store) (held wanted : List GoString) : List GoString :=
  wanted.filter (fun k => k ∉ held && st.holders k = [])

/-- The customer under `subject` with other subject keys, or a new one. -/
def Store.rewritten (st : Store) (subject : GoString) (o : Owner) (keys : List GoString) :
    StoredCustomer :=
  match st.lookup subject with
  | none => Customer.stored ⟨subject, o.username, keys⟩
  | some c => c.withAttribution (c.attribution.getD ∅) keys

/-- What the creator's customer holds once it is written. -/
def merged (st : Store) (subject : GoString) (o : Owner) : List GoString :=
  sortStrings (st.heldAt subject ++ missing st (st.heldAt subject) (subject :: o.clientIDs))

section Typed

variable {st : Store} {subject handle : GoString} {c : StoredCustomer} {o : Owner}
  {keys : List GoString}

/-- The customers listed hold a subject key, so theirs can be read. -/
theorem found_reads (st : Store) (inPart : GoString → GoString → Bool) (handles : List GoString) :
    ∀ c ∈ st.found inPart subject handles, c.subjectKeys = .ok c.held := by
  intro c hc
  obtain ⟨handle, _, hlookup⟩ := List.mem_filterMap.mp hc
  obtain ⟨k, hk, _⟩ := List.any_eq_true.mp (Option.filter_eq_some_iff.mp hlookup).2
  exact StoredCustomer.subjectKeys_of_held (List.ne_nil_of_mem hk)

/-- Setting the subject keys of a customer that OpenMeter keeps succeeds, and it holds them then. -/
theorem StoredCustomer.Typed.rekey (h : c.Typed handle) (htexts : ∀ k ∈ keys, jsonText k = k) :
    c.setSubjectKeys keys = .ok (c.withAttribution (c.attribution.getD ∅) keys) ∧
      (c.withAttribution (c.attribution.getD ∅) keys).Typed handle ∧
      (c.withAttribution (c.attribution.getD ∅) keys).held = keys := by
  obtain ⟨ua, hua, hspelling⟩ := h.attribution
  have hreads : (c.withAttribution ua keys).subjectKeys = .ok keys :=
    (StoredCustomer.subjectKeys_withAttribution h.reads hua keys).mpr
      (by rwa [ReadsBack, if_pos hspelling])
  have hheld : (c.withAttribution ua keys).held = keys := by rw [StoredCustomer.held, hreads]
  rw [hua, Option.getD_some]
  refine ⟨StoredCustomer.setSubjectKeys_eq hua keys, ⟨?_, ?_, ?_, ?_⟩, hheld⟩
  · rw [← h.ref, StoredCustomer.ref, StoredCustomer.ref, StoredCustomer.withAttribution,
      Finmap.lookup_insert_of_ne c (by decide), Finmap.lookup_insert_of_ne c (by decide)]
  · rw [hheld, hreads]
  · exact ⟨_, StoredCustomer.attribution_withAttribution c ua
      keys, by rw [lastSpelling_withMember, hspelling]⟩
  · rwa [hheld]

/-- A new customer is as OpenMeter keeps one. -/
theorem Customer.typed_stored (cust : Customer) (hkey : jsonText cust.key = cust.key)
    (hne : cust.key ≠ []) (htexts : ∀ k ∈ cust.subjectKeys, jsonText k = k) :
    cust.stored.Typed cust.key ∧ cust.stored.held = cust.subjectKeys := by
  have hlookup : cust.stored.lookup (lit "usageAttribution") =
      some (.object [("subjectKeys", marshalStrings cust.subjectKeys)]) :=
    (GoMap.lookup_ofList (by simp only [List.map_cons, List.map_nil]; decide)).mpr (by simp)
  have hname : cust.stored.lookup (lit "key") = some (.string (jsonText cust.key)) :=
    (GoMap.lookup_ofList (by simp only [List.map_cons, List.map_nil]; decide)).mpr (by simp)
  have hreads : cust.stored.subjectKeys = .ok cust.subjectKeys := by
    have hsets : setsField "subjectKeys" "subjectKeys" = true := by decide
    simp only [StoredCustomer.subjectKeys, hlookup, unmarshalAttribution, unmarshalField, hsets,
      if_true, unmarshalStrings_marshalStrings, Option.bind_some, map_jsonText_eq_self.mpr htexts]
  have hheld : cust.stored.held = cust.subjectKeys := by rw [StoredCustomer.held, hreads]
  refine ⟨⟨?_, ?_, ?_, ?_⟩, hheld⟩
  · obtain ⟨k, ks, hcons⟩ := List.exists_cons_of_ne_nil hne
    rw [StoredCustomer.ref, hname, hkey, hcons]
  · rw [hheld, hreads]
  · refine ⟨withMember ∅
      (marshalStrings cust.subjectKeys), by rw [StoredCustomer.attribution, hlookup]; rfl, ?_⟩
    rw [lastSpelling_withMember]
    decide +kernel
  · rwa [hheld]

end Typed

section Requests

variable {keys : List KeyInfo} {inPart : GoString → GoString → Bool} {st st' : Store}
  {log : List (Σ q : Request, Answer q)}

@[simp] theorem writes_nil : writes [] = [] := rfl

/-- What two parts of a run write is what each writes, in turn. -/
@[simp] theorem writes_append (first second : List (Σ q : Request, Answer q)) :
    writes (first ++ second) = writes first ++ writes second := List.filterMap_append

/-- Every request can fail, the visiting order apart, which is Go's. -/
theorem exists_serves (st : Store) (q : Request) :
    ∃ answer st', Serves keys inPart st q answer st' := by
  cases q with
  | listKeys => exact ⟨.error .notFound, st, .inr ⟨rfl, .notFound, rfl⟩⟩
  | range names => exact ⟨⟨names, .refl _⟩, st, .inl rfl⟩
  | get handle => exact ⟨.error (.other []), st, .inr ⟨rfl, [], rfl⟩⟩
  | list subject => exact ⟨⟨[], .notFound⟩, st, .inr ⟨rfl, _, 1, 0, .refl _, Nat.one_pos, rfl⟩⟩
  | create cust => exact ⟨.error .notFound, st, .inr ⟨⟨_, rfl⟩, .inl rfl⟩⟩
  | replace handle cust => exact ⟨.error .notFound, st, .inr ⟨⟨_, rfl⟩, .inl rfl⟩⟩

section Holders

variable {k : GoString} {res : Except Stop (List GoString)}

/-- Whoever holds the key is among the customers that match it in part. -/
theorem mem_found_holders (hkept : st.Kept) (hpart : inPart k k = true) {handles : List GoString}
    (hperm : handles.Perm st.sortedKeys) (handle : GoString) :
    handle ∈ ((st.found inPart k handles).filter (fun c => k ∈ c.held)).map StoredCustomer.ref ↔
    handle ∈ st.holders k := by
  simp only [List.mem_map, List.mem_filter, decide_eq_true_eq, Store.found, List.mem_filterMap,
    Option.filter_eq_some_iff, mem_holders, mem_heldAt]
  constructor
  · rintro ⟨c, ⟨⟨other, _, hc, _⟩, hk⟩, rfl⟩
    rw [(hkept other c hc).ref]
    exact ⟨c, hc, hk⟩
  · rintro ⟨c, hc, hk⟩
    have hmem : handle ∈ handles :=
      hperm.mem_iff.mpr (GoMap.mem_sortedKeys.mpr (Finmap.mem_of_lookup_eq_some hc))
    exact ⟨c, ⟨⟨handle, hmem, hc, List.any_eq_true.mpr ⟨k, hk, hpart⟩⟩, hk⟩,
      (hkept handle c hc).ref⟩

/-- A lookup changes nothing, and where it succeeds it finds the customers that hold the key. -/
theorem customersWithSubjectKey_served (hkept : st.Kept) (hpart : inPart k k = true)
    (h : Program.RunsOn (Serves keys inPart) st (customersWithSubjectKey k) log res st') :
    st' = st ∧ writes log = [] ∧ res ≠ .error .panicked ∧
      ∀ found, res = .ok found → ∀ handle, handle ∈ found ↔ handle ∈ st.holders k := by
  obtain ⟨first, second, answer, s₁, hask, hpure, rfl⟩ := h.bind_inv
  obtain ⟨answer', s₂, tail, hserves, hdone, rfl⟩ := hask.call_inv
  obtain ⟨rfl, rfl, rfl⟩ := hdone.pure_inv
  obtain ⟨rfl, rfl, rfl⟩ := hpure.pure_inv
  have hpages : st' = st ∧ ∃ (handles : List GoString) (size n : Nat), handles.Perm st.sortedKeys ∧
    0 < size ∧
      answer.pages = (List.range n).map (page size (st.found inPart k handles)) := by
    rcases hserves with ⟨hst, handles, size, n, hperm, hsize, _, _, heq⟩ | ⟨hst, handles, size, n,
      hperm, hsize, heq⟩
    · exact ⟨hst, handles, size, n, hperm, hsize, heq⟩
    · exact ⟨hst, handles, size, n, hperm, hsize, heq⟩
  obtain ⟨rfl, handles, size, n, hperm, hsize, heq⟩ := hpages
  refine ⟨rfl, rfl, readHolders_ne_panicked _ _, fun found hfound handle => ?_⟩
  rw [heq, List.range_eq_range'] at hfound
  have hread := (readHolders_pages (found_reads st' inPart handles) hsize n 0).1 found hfound
  rw [hread, Nat.zero_mul, List.drop_zero]
  exact mem_found_holders hkept hpart hperm handle

/-- Without an API error a lookup succeeds. -/
theorem customersWithSubjectKey_answered
    (h : Program.RunsOn (Answers keys inPart) st (customersWithSubjectKey k) log res st') :
    ∃ found, res = .ok found := by
  obtain ⟨first, second, answer, s₁, hask, hpure, rfl⟩ := h.bind_inv
  obtain ⟨answer', s₂, tail, ⟨_, handles, size, n, _, hsize, hn, hle, heq⟩, hdone, rfl⟩ :=
    hask.call_inv
  obtain ⟨rfl, rfl, rfl⟩ := hdone.pure_inv
  obtain ⟨rfl, rfl, rfl⟩ := hpure.pure_inv
  rw [heq, List.range_eq_range']
  exact (readHolders_pages (found_reads st inPart handles) hsize n 0).2 hn (by rwa [Nat.zero_add])

end Holders

section Additions

variable {subject : GoString} {held wanted : List GoString} {conflicts : GoMap GoString}
  {out : Except Stop (List GoString) × GoMap GoString}

/-- Looking for what is missing changes nothing and finds all of it, or fails. -/
theorem additions_served (hkept : st.Kept) (hpart : ∀ k, inPart k k = true)
    (h : Program.RunsOn (Serves keys inPart) st
      (additions subject held wanted conflicts) log out st') :
    st' = st ∧ writes log = [] ∧ out.1 ≠ .error .panicked ∧ ∀ add, out.1 = .ok add →
    add = missing st held wanted := by
  induction wanted generalizing conflicts log out with
  | nil =>
    obtain ⟨rfl, rfl, rfl⟩ := h.pure_inv
    exact ⟨rfl, rfl, fun h => (by cases h), fun add hadd => (Except.ok.inj hadd).symm⟩
  | cons k rest ih =>
    rw [additions] at h
    split_ifs at h with hk
    · obtain ⟨hst, hlog, hnot, hadd⟩ := ih h
      refine ⟨hst, hlog, hnot, fun add hout => ?_⟩
      rw [hadd add hout, missing, missing, List.filter_cons_of_neg (by simp [hk])]
    · obtain ⟨first, second, found, s₁, hlookup, hnext, rfl⟩ := h.bind_inv
      obtain ⟨rfl, hfirst, hpanic, hfound⟩ := customersWithSubjectKey_served hkept (hpart k) hlookup
      cases found with
      | error e =>
        obtain ⟨rfl, rfl, rfl⟩ := hnext.pure_inv
        refine ⟨rfl, by simp [hfirst], fun h => hpanic ?_, fun add hadd => (by cases hadd)⟩
        rw [Except.error.inj h]
      | ok found =>
        have hholders := hfound found rfl
        cases found with
        | cons holder others =>
          have hheld : s₁.holders k ≠ [] :=
            List.ne_nil_of_mem ((hholders holder).mp List.mem_cons_self)
          obtain ⟨hst, hlog, hnot, hadd⟩ := ih hnext
          refine ⟨hst, by simp [hfirst, hlog], hnot, fun add hout => ?_⟩
          rw [hadd add hout, missing, missing, List.filter_cons_of_neg (by simp [hheld])]
        | nil =>
          have hnone : s₁.holders k = [] := List.eq_nil_iff_forall_not_mem.mpr fun handle hmem =>
            List.not_mem_nil ((hholders handle).mpr hmem)
          obtain ⟨third, fourth, mid, s₂, hrest, hpure, rfl⟩ := hnext.bind_inv
          obtain ⟨rfl, rfl, rfl⟩ := hpure.pure_inv
          obtain ⟨hst, hlog, hnot, hadd⟩ := ih hrest
          obtain ⟨mid, conflicts'⟩ := mid
          cases mid with
          | error e =>
            refine ⟨hst, by simp [hfirst, hlog], fun h => hnot ?_, fun add hout => (by cases hout)⟩
            rw [Except.error.inj h]
          | ok more =>
            refine ⟨hst, by simp [hfirst, hlog], fun h => (by cases h), fun add hout => ?_⟩
            rw [← Except.ok.inj hout, missing, List.filter_cons_of_pos (by simp [hk, hnone])]
            exact congrArg (k :: ·) (hadd more rfl)

/-- Without an API error the search succeeds. -/
theorem additions_answered (hkept : st.Kept) (hpart : ∀ k, inPart k k = true)
    (h : Program.RunsOn (Answers keys inPart) st
      (additions subject held wanted conflicts) log out st') :
    ∃ add, out.1 = .ok add := by
  induction wanted generalizing conflicts log out with
  | nil =>
    obtain ⟨_, rfl, _⟩ := h.pure_inv
    exact ⟨[], rfl⟩
  | cons k rest ih =>
    rw [additions] at h
    split_ifs at h with hk
    · exact ih h
    · obtain ⟨first, second, found, s₁, hlookup, hnext, rfl⟩ := h.bind_inv
      obtain ⟨found, rfl⟩ := customersWithSubjectKey_answered hlookup
      obtain ⟨rfl, _⟩ := customersWithSubjectKey_served hkept (hpart k)
        (hlookup.mono fun _ _ _ _ => .inl)
      cases found with
      | cons holder others => exact ih hnext
      | nil =>
        obtain ⟨third, fourth, mid, s₂, hrest, hpure, rfl⟩ := hnext.bind_inv
        obtain ⟨_, rfl, rfl⟩ := hpure.pure_inv
        obtain ⟨add, hadd⟩ := ih hrest
        exact ⟨k :: add, by rw [hadd]; rfl⟩

end Additions

section Owner

variable {subject : GoString} {o : Owner} {conflicts : GoMap GoString}
  {out : Except Stop Unit × GoMap GoString}

/-- The subject keys that the sync reads off the creator's customer are those it holds. -/
theorem heldAt_of_subjectKeys {held : List GoString}
    (h : ((st.lookup subject).getD ∅).subjectKeys = .ok held) : held = st.heldAt subject := by
  rw [Store.heldAt]
  cases hc : st.lookup subject with
  | none =>
    rw [hc] at h
    exact (Except.ok.inj h).symm
  | some c =>
    rw [hc, Option.getD_some] at h
    simp [StoredCustomer.held, h]

/-- A Sync reads the keys a customer holds, and none where there's no such customer. -/
theorem subjectKeys_lookup
    (hreads : ∀ c, st.lookup subject = some c → ∃ keys, c.subjectKeys = .ok keys) :
    ((st.lookup subject).getD ∅).subjectKeys = .ok (st.heldAt subject) := by
  have hsome : ∃ keys, ((st.lookup subject).getD ∅).subjectKeys = .ok keys := by
    cases hc : st.lookup subject with
    | none => exact ⟨[], rfl⟩
    | some c => exact hreads c hc
  obtain ⟨keys, hkeys⟩ := hsome
  rw [← heldAt_of_subjectKeys hkeys, hkeys]

/-- Subject keys that cannot be read end the sync of their owner with an error, not a panic. -/
theorem subjectKeys_ne_panicked (c : StoredCustomer) : c.subjectKeys ≠ .error .panicked := by
  rw [StoredCustomer.subjectKeys]
  split
  · simp
  · split
    · simp
    · simp

private theorem merged_texts (hkept : st.Kept)
    (htexts : ∀ k ∈ subject :: o.clientIDs, jsonText k = k) :
    ∀ k ∈ merged st subject o, jsonText k = k := by
  intro k hk
  rw [merged, mem_sortStrings, List.mem_append] at hk
  rcases hk with hheld | hmissing
  · exact hkept.heldAt hheld
  · exact htexts k (List.mem_of_mem_filter hmissing)

/-- The creator's customer, once written, is as OpenMeter keeps one and holds what was merged. -/
theorem rewritten_typed (hkept : st.Kept) (htakes : st.Takes subject) (hne : subject ≠ [])
    (htexts : ∀ k ∈ subject :: o.clientIDs, jsonText k = k) :
    (st.rewritten subject o (merged st subject o)).Typed subject ∧
      (st.rewritten subject o (merged st subject o)).held = merged st subject o := by
  have hmerged := merged_texts hkept htexts
  rw [Store.rewritten]
  cases hc : st.lookup subject with
  | none => exact Customer.typed_stored ⟨subject, o.username, merged st subject o⟩ (htexts subject List.mem_cons_self) hne hmerged
  | some c => exact ((htakes c hc).rekey hmerged).2

/-- What a write of the missing subject keys leads to where it takes effect. -/
def Written (st : Store) (subject : GoString) (o : Owner) (st' : Store) : Prop :=
  st' = st.insert subject (st.rewritten subject o (merged st subject o))

private theorem writeAdditions_eq (hkept : st.Kept) (htakes : st.Takes subject)
    (htexts : ∀ k ∈ subject :: o.clientIDs, jsonText k = k)
    (hmissing : missing st (st.heldAt subject) (subject :: o.clientIDs) ≠ []) :
    writeAdditions subject o (st.lookup subject) (st.heldAt subject)
        (missing st (st.heldAt subject) (subject :: o.clientIDs)) =
      match st.lookup subject with
      | none => (Program.ask (Request.create ⟨subject, o.username, merged st subject o⟩)).bind
          (fun (answer : Except Failure Unit) => .pure (answer.mapError .failed))
      | some _ => (Program.ask (Request.replace subject (st.rewritten subject o (merged st subject o)))).bind
          (fun (answer : Except Failure Unit) => .pure (answer.mapError .failed)) := by
  unfold writeAdditions
  rw [if_neg hmissing]
  cases hc : st.lookup subject with
  | none =>
    have hkeys : merged st subject o =
        sortStrings (missing st (st.heldAt subject) (subject :: o.clientIDs)) := by
      rw [merged, Store.heldAt, hc, List.nil_append]
    rw [hkeys]
  | some c =>
    have hset := ((htakes c hc).rekey (merged_texts hkept htexts)).1
    have hrewritten : st.rewritten subject o (merged st subject o) =
        c.withAttribution (c.attribution.getD ∅) (merged st subject o) := by
          rw [Store.rewritten, hc]
    rw [← hrewritten, merged] at hset
    simp only [merged, hset]

/-- What is missing is written with one request, or nothing is missing. -/
theorem writeAdditions_inv {exec : Store → (q : Request) → Answer q → Store → Prop}
    {result : Except Stop Unit}
    (hkept : st.Kept) (htexts : ∀ k ∈ subject :: o.clientIDs, jsonText k = k)
    (htakes : missing st (st.heldAt subject) (subject :: o.clientIDs) ≠ [] → st.Takes subject)
    (h : Program.RunsOn exec st (writeAdditions subject o (st.lookup subject) (st.heldAt subject)
      (missing st (st.heldAt subject) (subject :: o.clientIDs))) log result st') :
    (missing st (st.heldAt subject) (subject :: o.clientIDs) = [] ∧ log = [] ∧ result = .ok () ∧
      st' = st) ∨
      missing st (st.heldAt subject) (subject :: o.clientIDs) ≠ [] ∧ ∃ answer : Except Failure Unit,
        result = answer.mapError .failed ∧
          ((st.lookup subject = none ∧
            log = [⟨.create ⟨subject, o.username, merged st subject o⟩, answer⟩] ∧
              exec st (.create ⟨subject, o.username, merged st subject o⟩) answer st') ∨
            (st.lookup subject ≠ none ∧
              log = [⟨.replace subject (st.rewritten subject o (merged st subject o)), answer⟩] ∧
              exec st (.replace subject (st.rewritten subject o (merged st subject o))) answer
                st')) := by
  by_cases hmissing : missing st (st.heldAt subject) (subject :: o.clientIDs) = []
  · unfold writeAdditions at h
    rw [if_pos hmissing] at h
    obtain ⟨rfl, rfl, rfl⟩ := h.pure_inv
    exact .inl ⟨hmissing, rfl, rfl, rfl⟩
  · rw [writeAdditions_eq hkept (htakes hmissing) htexts hmissing] at h
    refine .inr ⟨hmissing, ?_⟩
    cases hc : st.lookup subject with
    | none =>
      simp only [hc] at h
      obtain ⟨first, second, answer, s₁, hask, hpure, rfl⟩ := h.bind_inv
      obtain ⟨answer', s₂, tail, hexec, hdone, rfl⟩ := hask.call_inv
      obtain ⟨rfl, rfl, rfl⟩ := hdone.pure_inv
      obtain ⟨rfl, rfl, rfl⟩ := hpure.pure_inv
      exact ⟨answer, rfl, .inl ⟨rfl, rfl, hexec⟩⟩
    | some c =>
      simp only [hc] at h
      obtain ⟨first, second, answer, s₁, hask, hpure, rfl⟩ := h.bind_inv
      obtain ⟨answer', s₂, tail, hexec, hdone, rfl⟩ := hask.call_inv
      obtain ⟨rfl, rfl, rfl⟩ := hdone.pure_inv
      obtain ⟨rfl, rfl, rfl⟩ := hpure.pure_inv
      exact ⟨answer, rfl, .inr ⟨by simp, rfl, hexec⟩⟩

private theorem mapError_ne_panicked (answer : Except Failure Unit) :
    answer.mapError Stop.failed ≠ .error .panicked := by
  cases answer with
  | error f => exact fun h => (by cases h)
  | ok value => exact fun h => (by cases h)

/-- One owner's part of a Sync doesn't panic: it asks nothing when no key is missing, and
otherwise writes the merged keys once, or leaves the store to a failed request. -/
theorem writeAdditions_served (hkept : st.Kept)
    (htexts : ∀ k ∈ subject :: o.clientIDs, jsonText k = k)
    (htakes : missing st (st.heldAt subject) (subject :: o.clientIDs) ≠ [] → st.Takes subject)
    (hne : subject ≠ []) {result : Except Stop Unit}
    (h : Program.RunsOn (Serves keys inPart) st
      (writeAdditions subject o (st.lookup subject) (st.heldAt subject)
      (missing st (st.heldAt subject) (subject :: o.clientIDs))) log result st') :
    result ≠ .error .panicked ∧
      (missing st (st.heldAt subject) (subject :: o.clientIDs) = [] ∧ writes log = [] ∧ st' = st ∨
        missing st (st.heldAt subject) (subject :: o.clientIDs) ≠ [] ∧
        writes log = [merged st subject o] ∧
          (st' = st ∨ Written st subject o st')) := by
  rcases writeAdditions_inv hkept htexts htakes h
    with ⟨hnone, rfl, rfl, hst⟩ | ⟨hmissing, answer, rfl, hwrite⟩
  · exact ⟨fun h => (by cases h), .inl ⟨hnone, rfl, hst⟩⟩
  · refine ⟨mapError_ne_panicked answer, .inr ⟨hmissing, ?_⟩⟩
    rcases hwrite with ⟨hc, rfl, hserves⟩ | ⟨_, rfl, hserves⟩
    · have hrewritten : st.rewritten subject o (merged st subject o) =
          Customer.stored ⟨subject, o.username, merged st subject o⟩ := by rw [Store.rewritten, hc]
      rw [Written, hrewritten]
      refine ⟨rfl, ?_⟩
      rcases hserves with (⟨_, _, hst⟩ | ⟨_, _, _, hst⟩) | ⟨_, hst | ⟨_, hst⟩⟩
      · exact .inr hst
      · exact .inl hst
      · exact .inl hst
      · exact .inr hst
    · refine ⟨congrArg (fun keys => [keys]) (rewritten_typed hkept (htakes hmissing) hne htexts).2,
        ?_⟩
      rcases hserves with (⟨_, _, hst⟩ | ⟨_, _, _, hst⟩) | ⟨_, hst | ⟨_, hst⟩⟩
      · exact .inr hst
      · exact .inl hst
      · exact .inl hst
      · exact .inr hst

/-- Syncing an owner never panics and sends one write at most: what the customer holds
and what is missing. -/
theorem syncOwner_served (hkept : st.Kept) (hpart : ∀ k, inPart k k = true)
    (htexts : ∀ k ∈ subject :: o.clientIDs, jsonText k = k) (hne : subject ≠ [])
    (htakes : missing st (st.heldAt subject) (subject :: o.clientIDs) ≠ [] → st.Takes subject)
    (h : Program.RunsOn (Serves keys inPart) st (syncOwner subject o conflicts) log out st') :
    out.1 ≠ .error .panicked ∧ (writes log = [] ∧ st' = st ∨
      missing st (st.heldAt subject) (subject :: o.clientIDs) ≠ [] ∧
      writes log = [merged st subject o] ∧
        (st' = st ∨ Written st subject o st')) := by
  obtain ⟨first, second, answer, s₁, hask, hnext, rfl⟩ := h.bind_inv
  obtain ⟨answer', s₂, tail, hserves, hdone, rfl⟩ := hask.call_inv
  obtain ⟨rfl, rfl, rfl⟩ := hdone.pure_inv
  have hfirst : writes [(⟨.get subject, answer⟩ : Σ q : Request, Answer q)] = [] := rfl
  rw [writes_append, hfirst, List.nil_append]
  have hmissing : ∀ log,
    Program.RunsOn (Serves keys inPart) st
    (addMissing subject o conflicts (st.lookup subject)) log out st' →
      out.1 ≠ .error .panicked ∧ (writes log = [] ∧ st' = st ∨
        missing st (st.heldAt subject) (subject :: o.clientIDs) ≠ [] ∧
          writes log = [merged st subject o] ∧
          (st' = st ∨ Written st subject o st')) := by
    intro log hrun
    rw [addMissing] at hrun
    cases hkeys : ((st.lookup subject).getD ∅).subjectKeys with
    | error e =>
      rw [hkeys] at hrun
      obtain ⟨rfl, rfl, rfl⟩ := hrun.pure_inv
      refine ⟨fun h => subjectKeys_ne_panicked _ (hkeys.trans ?_), .inl ⟨rfl, rfl⟩⟩
      rw [Except.error.inj h]
    | ok held =>
      rw [hkeys] at hrun
      obtain rfl := heldAt_of_subjectKeys hkeys
      obtain ⟨first, second, found, s₃, hadditions, hwrite, rfl⟩ := hrun.bind_inv
      obtain ⟨rfl, hlog, hnot, hadd⟩ := additions_served hkept hpart hadditions
      obtain ⟨found, conflicts'⟩ := found
      rw [writes_append, hlog, List.nil_append]
      cases found with
      | error e =>
        obtain ⟨rfl, rfl, rfl⟩ := hwrite.pure_inv
        exact ⟨fun h => hnot (congrArg Except.error (Except.error.inj h)), .inl ⟨rfl, rfl⟩⟩
      | ok add =>
        obtain rfl := hadd add rfl
        obtain ⟨third, fourth, result, s₄, hwritten, hpure, rfl⟩ := hwrite.bind_inv
        obtain ⟨rfl, rfl, rfl⟩ := hpure.pure_inv
        rw [List.append_nil]
        obtain ⟨hpanic, hwrites⟩ := writeAdditions_served hkept htexts htakes hne hwritten
        exact ⟨hpanic, hwrites.imp_left And.right⟩
  rcases hserves with ⟨rfl, hanswer⟩ | ⟨rfl, text, rfl⟩
  · rw [hanswer] at hnext
    cases hc : s₁.lookup subject with
    | none =>
      rw [hc] at hnext
      exact hmissing _ (by rw [hc]; exact hnext)
    | some c =>
      rw [hc] at hnext
      exact hmissing _ (by rw [hc]; exact hnext)
  · obtain ⟨rfl, rfl, rfl⟩ := hnext.pure_inv
    exact ⟨fun h => (by cases h), .inl ⟨rfl, rfl⟩⟩

end Owner

/-- A sync asks for the metadata and the order of the owners, and then syncs them. -/
theorem sync_inv {exec : Store → (q : Request) → Answer q → Store → Prop} {s : CustomerSync}
    {out : Except Stop Synced} (h : Program.RunsOn exec st (sync s) log out st') :
    ∃ (answer : Except Failure (List KeyInfo)) (s₁ : Store), exec st .listKeys answer s₁ ∧
      ((∃ f, answer = .error f ∧ writes log = [] ∧ st' = s₁) ∨
        ∃ listed order s₂ owned result, answer = .ok listed ∧
        exec s₁ (.range (groupKeys listed).1.sortedKeys) order s₂ ∧
        Program.RunsOn exec s₂ (syncOwners (groupKeys listed).1 order.val ∅) owned result st' ∧
        writes log = writes owned ∧
        ∀ conflicts', result = .ok ([], conflicts') → ∃ synced, out = .ok synced ∧
        synced.errors = []) := by
  obtain ⟨first, second, answer, s₁, hask, hnext, rfl⟩ := h.bind_inv
  obtain ⟨answer', s₂, tail, hlist, hdone, rfl⟩ := hask.call_inv
  obtain ⟨rfl, rfl, rfl⟩ := hdone.pure_inv
  refine ⟨answer, s₁, hlist, ?_⟩
  cases answer with
  | error f =>
    obtain ⟨rfl, _, rfl⟩ := hnext.pure_inv
    exact .inl ⟨f, rfl, rfl, rfl⟩
  | ok listed =>
    obtain ⟨third, fourth, order, s₃, horder, hsync, rfl⟩ := hnext.bind_inv
    obtain ⟨order', s₄, tail, hrange, hdone, rfl⟩ := horder.call_inv
    obtain ⟨rfl, rfl, rfl⟩ := hdone.pure_inv
    obtain ⟨owned, last, result, s₅, howners, hpure, rfl⟩ := hsync.bind_inv
    obtain ⟨rfl, rfl, rfl⟩ := hpure.pure_inv
    refine .inr ⟨listed, order, s₃, owned, result, rfl, hrange, howners, ?_, ?_⟩
    · rw [writes_append, writes_append, writes_append, writes_nil, List.append_nil]
      rfl
    · rintro conflicts' rfl
      exact ⟨_, rfl, rfl⟩

end Requests

end customers
