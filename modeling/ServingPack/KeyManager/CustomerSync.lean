import ServingPack.KeyManager.CustomerWrites

open golang concurrency secrets

namespace customers

/-- Each subject key is held by at most one customer. -/
def Store.Unique (st : Store) : Prop :=
  ∀ k handle other, k ∈ st.heldAt handle → k ∈ st.heldAt other → handle = other

/-- The customer `c'` differs from `c` in its subject keys at most. -/
structure SameOutside (c c' : StoredCustomer) : Prop where
  fields : ∀ field, field ≠ lit "usageAttribution" → c'.lookup field = c.lookup field
  members : ∃ ua ua', c.attribution = some ua ∧ c'.attribution = some ua' ∧
    ∀ name, name ≠ lit "subjectKeys" → ua'.lookup name = ua.lookup name

/-- The metadata names the handle as a creator's subject. -/
def Creates (keys : List KeyInfo) (handle : GoString) : Prop :=
  handle ≠ [] ∧ ∃ info ∈ keys, info.creatorSubject = handle

/-- The metadata wants the creator's customer to hold the subject key. -/
def Wanted (keys : List KeyInfo) (handle k : GoString) : Prop :=
  Creates keys handle ∧ k ∈ handle :: minted keys handle

/-- What a sync may do to the customers: give creators' customers subject keys that are
wanted for them. -/
structure Grows (keys : List KeyInfo) (st st' : Store) : Prop where
  kept : ∀ handle c, st.lookup handle = some c →
    ∃ c', st'.lookup handle = some c' ∧ (c' = c ∨ SameOutside c c')
  adds : ∀ handle k, k ∈ st.heldAt handle → k ∈ st'.heldAt handle
  wanted : ∀ handle k, k ∈ st'.heldAt handle → k ∈ st.heldAt handle ∨ Wanted keys handle k
  untouched : ∀ handle, ¬Creates keys handle → st'.lookup handle = st.lookup handle

/-- What a sync is for: it fails nowhere, gives creators' customers subject keys that are
wanted for them and changes nothing else, keeps each subject key with one customer, and
leaves each wanted subject key with a customer that held it before or that it is wanted
for. The next sync, whatever fails in it, writes nothing. -/
structure Attributed (keys : List KeyInfo) (inPart : GoString → GoString → Bool) (st : Store)
    (out : Except Stop Synced) (st' : Store) : Prop where
  succeeds : ∃ synced, out = .ok synced ∧ synced.errors = []
  grows : Grows keys st st'
  unique : st'.Unique
  held : ∀ info ∈ keys, info.creatorSubject ≠ [] → ∀ k ∈ [info.creatorSubject, info.clientID],
    ∃ holder, k ∈ st'.heldAt holder ∧ (k ∈ st.heldAt holder ∨ Wanted keys holder k)
  settled : ∀ s₂ log₂ out₂ st₂, Program.RunsOn (Serves keys inPart) st' (sync s₂) log₂ out₂ st₂ →
    writes log₂ = [] ∧ st₂ = st'

/-- Every creator's customer has subject keys that can be read, and a `usageAttribution`
that is not `null` where it lacks a subject key that nobody holds. -/
def Attributable (keys : List KeyInfo) (st : Store) : Prop :=
  ∀ handle c, Creates keys handle → st.lookup handle = some c → (∃ held, c.subjectKeys = .ok held) ∧
    ((∃ k, Wanted keys handle k ∧ st.holders k = []) →
      c.lookup (lit "usageAttribution") ≠ some .null)

section Growing

variable {keys : List KeyInfo} {st st₁ st' : Store} {subject : GoString} {o : Owner}
  {c c₁ c' : StoredCustomer}

private theorem SameOutside.trans (h : SameOutside c c₁) (h' : SameOutside c₁ c') :
    SameOutside c c' := by
  refine ⟨fun field hfield => (h'.fields field hfield).trans (h.fields field hfield), ?_⟩
  obtain ⟨ua, ua₁, hua, hua₁, hmembers⟩ := h.members
  obtain ⟨ua₂, ua', hua₂, hua', hmembers'⟩ := h'.members
  obtain rfl := Option.some.inj (hua₁.symm.trans hua₂)
  exact ⟨ua, ua', hua, hua', fun name hname => (hmembers' name hname).trans (hmembers name hname)⟩

private theorem Grows.refl (keys : List KeyInfo) (st : Store) : Grows keys st st where
  kept _ c hc := ⟨c, hc, .inl rfl⟩
  adds _ _ h := h
  wanted _ _ h := .inl h
  untouched _ _ := rfl

private theorem Grows.trans (h : Grows keys st st₁) (h' : Grows keys st₁ st') :
    Grows keys st st' where
  kept handle c hc := by
    obtain ⟨c₁, hc₁, hsame⟩ := h.kept handle c hc
    obtain ⟨c', hc', hsame'⟩ := h'.kept handle c₁ hc₁
    refine ⟨c', hc', ?_⟩
    rcases hsame with rfl | hsame
    · exact hsame'
    · rcases hsame' with rfl | hsame'
      · exact .inr hsame
      · exact .inr (hsame.trans hsame')
  adds handle k hk := h'.adds handle k (h.adds handle k hk)
  wanted handle k hk := (h'.wanted handle k hk).elim (h.wanted handle k) .inr
  untouched handle hcreates := (h'.untouched handle hcreates).trans (h.untouched handle hcreates)

private theorem Grows.holders (h : Grows keys st st') {k : GoString} (hk : st.holders k ≠ []) :
    st'.holders k ≠ [] := by
  obtain ⟨holder, hholder⟩ := List.exists_mem_of_ne_nil _ hk
  exact List.ne_nil_of_mem (mem_holders.mpr (h.adds holder k (mem_holders.mp hholder)))

private theorem mem_merged {k : GoString} :
    k ∈ merged st subject o ↔ k ∈ st.heldAt subject ∨ k ∈ subject :: o.clientIDs ∧
    st.holders k = [] := by
  rw [merged, mem_sortStrings, List.mem_append, missing_eq, List.mem_filter, decide_eq_true_eq]

/-- What is written for an owner names no subject key of another customer. -/
theorem not_taken (hunique : st.Unique) : ¬st.Taken subject (merged st subject o) := by
  rintro ⟨k, hk, other, hother, hheld⟩
  rcases mem_merged.mp hk with hown | ⟨_, hnone⟩
  · exact hother (hunique k other subject hheld hown)
  · exact holders_eq_nil.mp hnone other hheld

/-- The write for an owner does to the customers what a sync may do. -/
theorem Written.grows (hkept : st.Kept) (htakes : st.Takes subject)
    (hlookup : (groupKeys keys).1.lookup subject = some o) (htexts : Texts keys)
    (h : Written st subject o st') : Grows keys st st' := by
  obtain ⟨hne, hids, info, hinfo, hsubject⟩ := lookup_owner hlookup
  have howner := owner_texts htexts hlookup
  have hcreates : Creates keys subject := ⟨hne, info, hinfo, hsubject⟩
  refine ⟨fun handle c hc => ?_, fun handle k hk => ?_, fun handle k hk => ?_,
    fun handle hnot => ?_⟩
  · rw [show st' = _ from h, GoMap.lookup_insert_eq]
    split_ifs with hsame
    · subst hsame
      obtain ⟨ua, hua, _⟩ := (htakes c hc).attribution
      refine ⟨_, rfl, .inr ?_⟩
      rw [Store.rewritten, hc]
      simp only [hua, Option.getD_some]
      refine ⟨fun field hfield => Finmap.lookup_insert_of_ne c hfield, ua, _, hua,
        StoredCustomer.attribution_withAttribution c ua _,
          fun name hname => Finmap.lookup_insert_of_ne ua hname⟩
    · exact ⟨c, hc, .inl rfl⟩
  · rw [h.heldAt hkept htakes hne howner]
    split_ifs with hsame
    · subst hsame
      exact mem_merged_of_heldAt hk
    · exact hk
  · rw [h.heldAt hkept htakes hne howner] at hk
    split_ifs at hk with hsame
    · subst hsame
      refine (mem_merged.mp hk).imp_right fun hmissing => ⟨hcreates, ?_⟩
      rw [← hids]
      exact hmissing.1
    · exact .inl hk
  · have hother : handle ≠ subject := by
      rintro rfl
      exact hnot hcreates
    rw [show st' = _ from h, GoMap.lookup_insert_eq, if_neg hother]

/-- A write keeps each subject key with one customer. -/
theorem Written.unique (hkept : st.Kept) (htakes : st.Takes subject) (hunique : st.Unique)
    (hne : subject ≠ [])
    (htexts : ∀ k ∈ subject :: o.clientIDs, jsonText k = k) (h : Written st subject o st') :
    st'.Unique := by
  have hfree : ∀ k other, k ∈ merged st subject o → k ∈ st.heldAt other → other = subject :=
    fun k other hk hother =>
    by_contra fun hne => not_taken hunique ⟨k, hk, other, hne, hother⟩
  intro k handle other hhandle hother
  rw [h.heldAt hkept htakes hne htexts] at hhandle hother
  split_ifs at hhandle hother with hsame hsame' hsame'
  · rw [hsame, hsame']
  · exact hsame.trans (hfree k other hhandle hother).symm
  · exact (hfree k handle hother hhandle).trans hsame'.symm
  · exact hunique k handle other hhandle hother

private theorem exists_missing_iff : missing st (st.heldAt subject) (subject :: o.clientIDs) ≠ [] ↔
    ∃ k ∈ subject :: o.clientIDs, st.holders k = [] := by
  simp only [missing_eq, ne_eq, List.filter_eq_nil_iff, decide_eq_true_eq, not_forall, not_not,
    exists_prop]

private theorem wanted_iff (hlookup : (groupKeys keys).1.lookup subject = some o) {k : GoString} :
    Wanted keys subject k ↔ k ∈ subject :: o.clientIDs := by
  obtain ⟨hne, hids, hcreates⟩ := lookup_owner hlookup
  rw [Wanted, hids]
  exact and_iff_right ⟨hne, hcreates⟩

/-- Where something is missing for a creator, subject keys can be added to the customer. -/
theorem Attributable.takes (h : Attributable keys st) (hkept : st.Kept)
    (hlookup : (groupKeys keys).1.lookup subject = some o)
    (hmissing : missing st (st.heldAt subject) (subject :: o.clientIDs) ≠ []) :
    st.Takes subject := by
  obtain ⟨hne, _, hcreates⟩ := lookup_owner hlookup
  obtain ⟨k, hk, hnone⟩ := exists_missing_iff.mp hmissing
  intro c hc
  obtain ⟨hreads, hnull⟩ := h subject c ⟨hne, hcreates⟩ hc
  exact (hkept subject c hc).typed hreads (hnull ⟨k, (wanted_iff hlookup).mpr hk, hnone⟩)

/-- A write leaves every creator's customer readable, and nothing more is missing than before. -/
theorem Written.attributable (h : Written st subject o st') (hkept : st.Kept)
    (htakes : st.Takes subject)
    (hne : subject ≠ []) (htexts : ∀ k ∈ subject :: o.clientIDs, jsonText k = k)
    (hattr : Attributable keys st) :
    Attributable keys st' := by
  intro handle c hcreates hc
  refine h.each hkept htakes hne htexts (P := fun handle c => Creates keys handle →
    (∃ held, c.subjectKeys = .ok held) ∧
    ((∃ k, Wanted keys handle k ∧ st'.holders k = []) →
      c.lookup (lit "usageAttribution") ≠ some .null)) ?_ ?_ handle c hc hcreates
  · rintro other c hc hcreates
    obtain ⟨hreads, hnull⟩ := hattr other c hcreates hc
    refine ⟨hreads, fun hlacks => hnull ?_⟩
    obtain ⟨k, hwanted, hnone⟩ := hlacks
    exact ⟨k, hwanted, by_contra fun hheld => h.holders hkept htakes hne htexts hheld hnone⟩
  · rintro c htyped _
    refine ⟨⟨_, htyped.reads⟩, fun _ hnull => ?_⟩
    obtain ⟨ua, hua, _⟩ := htyped.attribution
    simp [StoredCustomer.attribution, hnull] at hua

end Growing

section Answered

variable {keys : List KeyInfo} {inPart : GoString → GoString → Bool} {st st' : Store}
  {log : List (Σ q : Request, Answer q)} {conflicts : GoMap GoString}

/-- Without an API error an owner's sync goes on with the customer that is stored. -/
theorem syncOwner_inv {subject : GoString} {o : Owner} {out : Except Stop Unit × GoMap GoString}
    (h : Program.RunsOn (Answers keys inPart) st (syncOwner subject o conflicts) log out st') :
    ∃ rest, Program.RunsOn (Answers keys inPart) st
      (addMissing subject o conflicts (st.lookup subject)) rest out st' := by
  obtain ⟨first, second, answer, s₁, hask, hnext, rfl⟩ := h.bind_inv
  obtain ⟨answer', s₂, tail, ⟨rfl, hanswer⟩, hdone, rfl⟩ := hask.call_inv
  obtain ⟨rfl, rfl, rfl⟩ := hdone.pure_inv
  refine ⟨second, ?_⟩
  rw [hanswer] at hnext
  cases hc : s₁.lookup subject with
  | none =>
    rw [hc] at hnext
    exact hnext
  | some c =>
    rw [hc] at hnext
    exact hnext

/-- Where the customer's subject keys can be read, the search for what is missing succeeds. -/
theorem addMissing_answered {subject : GoString} {o : Owner}
    {out : Except Stop Unit × GoMap GoString} (hkept : st.Kept) (hpart : ∀ k, inPart k k = true)
    (hreads : ∀ c, st.lookup subject = some c → ∃ held, c.subjectKeys = .ok held)
    (h : Program.RunsOn (Answers keys inPart) st
      (addMissing subject o conflicts (st.lookup subject)) log out st') :
    ∃ written, Program.RunsOn (Answers keys inPart) st (writeAdditions subject o (st.lookup subject)
      (st.heldAt subject) (missing st (st.heldAt subject) (subject :: o.clientIDs))) written out.1
      st' := by
  rw [addMissing, subjectKeys_lookup hreads] at h
  obtain ⟨first, second, found, s₁, hadditions, hwrite, rfl⟩ := h.bind_inv
  obtain ⟨rfl, _, _, hadd⟩ := additions_served hkept hpart (hadditions.mono fun _ _ _ _ => .inl)
  obtain ⟨add, hok⟩ := additions_answered hkept hpart hadditions
  obtain ⟨found, conflicts'⟩ := found
  obtain rfl : found = .ok add := hok
  obtain rfl := hadd add rfl
  obtain ⟨third, fourth, result, s₂, hwritten, hpure, rfl⟩ := hwrite.bind_inv
  obtain ⟨rfl, rfl, rfl⟩ := hpure.pure_inv
  exact ⟨third, hwritten⟩

/-- Without an API error an owner's sync succeeds, and what was missing is written. -/
theorem syncOwner_answered {subject : GoString} {o : Owner}
    {out : Except Stop Unit × GoMap GoString}
    (hkept : st.Kept) (hunique : st.Unique) (hpart : ∀ k, inPart k k = true) (hne : subject ≠ [])
    (htexts : ∀ k ∈ subject :: o.clientIDs, jsonText k = k)
    (hreads : ∀ c, st.lookup subject = some c → ∃ held, c.subjectKeys = .ok held)
    (htakes : missing st (st.heldAt subject) (subject :: o.clientIDs) ≠ [] → st.Takes subject)
    (h : Program.RunsOn (Answers keys inPart) st (syncOwner subject o conflicts) log out st') :
    out.1 = .ok () ∧ (missing st (st.heldAt subject) (subject :: o.clientIDs) = [] ∧ st' = st ∨
      missing st (st.heldAt subject) (subject :: o.clientIDs) ≠ [] ∧ Written st subject o st') := by
  obtain ⟨rest, hmissing⟩ := syncOwner_inv h
  obtain ⟨written, hwritten⟩ := addMissing_answered hkept hpart hreads hmissing
  rcases writeAdditions_inv hkept htexts htakes hwritten
    with ⟨hnone, _, hok, hst⟩ | ⟨hsome, answer, hresult, hrequest⟩
  · exact ⟨hok, .inl ⟨hnone, hst⟩⟩
  · have hfree := @not_taken st subject o hunique
    rcases hrequest with ⟨hc, _, hanswers⟩ | ⟨_, _, hanswers⟩
    · obtain ⟨rfl, _, hst⟩ | ⟨_, _, htaken, _⟩ := hanswers
      · refine ⟨hresult, .inr ⟨hsome, ?_⟩⟩
        rw [Written, Store.rewritten, hc]
        exact hst
      · exact absurd htaken hfree
    · rw [Answers, (rewritten_typed hkept (htakes hsome) hne htexts).2] at hanswers
      obtain ⟨rfl, _, hst⟩ | ⟨_, _, htaken, _⟩ := hanswers
      · exact ⟨hresult, .inr ⟨hsome, hst⟩⟩
      · exact absurd htaken hfree

/-- What the owners' syncs keep of the customers, one after the other. -/
structure Keeps (keys : List KeyInfo) (st : Store) : Prop where
  kept : st.Kept
  unique : st.Unique
  attributable : Attributable keys st

/-- Without an API error one owner's sync succeeds, and the subject keys wanted for the
owner are held then. -/
theorem syncOwner_keeps {subject : GoString} {o : Owner} {out : Except Stop Unit × GoMap GoString}
    (hkeeps : Keeps keys st) (hpart : ∀ k, inPart k k = true) (htexts : Texts keys)
    (ho : (groupKeys keys).1.lookup subject = some o)
    (h : Program.RunsOn (Answers keys inPart) st (syncOwner subject o conflicts) log out st') :
    out.1 = .ok () ∧ Grows keys st st' ∧ Keeps keys st' ∧
    ∀ k ∈ subject :: o.clientIDs, st'.holders k ≠ [] := by
  obtain ⟨hkept, hunique, hattr⟩ := hkeeps
  obtain ⟨hne, _, hcreates⟩ := lookup_owner ho
  have howner := owner_texts htexts ho
  obtain ⟨hok, hwritten⟩ := syncOwner_answered hkept hunique hpart hne howner
    (fun c hc => (hattr subject c ⟨hne, hcreates⟩ hc).1) (hattr.takes hkept ho) h
  refine ⟨hok, ?_⟩
  rcases hwritten with ⟨hnone, rfl⟩ | ⟨hmissing, hwritten⟩
  · refine ⟨.refl keys _, ⟨hkept, hunique, hattr⟩, fun k hk hfree => ?_⟩
    exact exists_missing_iff.mpr ⟨k, hk, hfree⟩ hnone
  · have htakes := hattr.takes hkept ho hmissing
    refine ⟨hwritten.grows hkept htakes ho htexts, ⟨hwritten.kept hkept htakes hne howner,
      hwritten.unique hkept htakes hunique hne howner,
        hwritten.attributable hkept htakes hne howner hattr⟩, fun k hk => ?_⟩
    by_cases hfree : st.holders k = []
    · refine List.ne_nil_of_mem (mem_holders.mpr ?_ : subject ∈ _)
      rw [hwritten.heldAt hkept htakes hne howner, if_pos rfl]
      exact mem_merged.mpr (.inr ⟨hk, hfree⟩)
    · exact hwritten.holders hkept htakes hne howner hfree

/-- The owners in any order, without an API error: every subject key that is wanted for
one of them is held then. -/
theorem syncOwners_answered {order : List GoString} (hkeeps : Keeps keys st)
    (hpart : ∀ k, inPart k k = true) (htexts : Texts keys)
    {out : Except Stop (List (GoString × Stop) × GoMap GoString)}
    (h : Program.RunsOn (Answers keys inPart) st
      (syncOwners (groupKeys keys).1 order conflicts) log out st') :
    (∃ conflicts', out = .ok ([], conflicts')) ∧ Grows keys st st' ∧ Keeps keys st' ∧
      ∀ subject ∈ order, ∀ o, (groupKeys keys).1.lookup subject = some o →
        ∀ k ∈ subject :: o.clientIDs, st'.holders k ≠ [] := by
  induction order generalizing st conflicts log out with
  | nil =>
    obtain ⟨rfl, rfl, rfl⟩ := h.pure_inv
    exact ⟨⟨conflicts, rfl⟩, .refl keys _, hkeeps,
      fun subject hsubject => absurd hsubject List.not_mem_nil⟩
  | cons subject rest ih =>
    rw [syncOwners] at h
    cases ho : (groupKeys keys).1.lookup subject with
    | none =>
      simp only [ho] at h
      obtain ⟨hout, hgrows, hkeeps', hheld⟩ := ih hkeeps h
      refine ⟨hout, hgrows, hkeeps', List.forall_mem_cons.mpr ⟨fun o ho' => ?_, hheld⟩⟩
      rw [ho] at ho'
      cases ho'
    | some o =>
      simp only [ho] at h
      obtain ⟨first, second, mid, s₁, hsync, hnext, rfl⟩ := h.bind_inv
      obtain ⟨hok, hgrows, hkeeps₁, hheld₁⟩ := syncOwner_keeps hkeeps hpart htexts ho hsync
      obtain ⟨result, conflicts₁⟩ := mid
      obtain rfl : result = .ok () := hok
      obtain ⟨third, fourth, others, s₂, hrun, hpure, rfl⟩ := hnext.bind_inv
      obtain ⟨rfl, rfl, rfl⟩ := hpure.pure_inv
      obtain ⟨⟨conflicts', rfl⟩, hgrows', hkeeps', hheld'⟩ := ih hkeeps₁ hrun
      refine ⟨⟨conflicts', rfl⟩, hgrows.trans hgrows', hkeeps',
        List.forall_mem_cons.mpr ⟨fun o' ho' k hk => ?_, hheld'⟩⟩
      rw [ho] at ho'
      obtain rfl := Option.some.inj ho'
      exact hgrows'.holders (hheld₁ k hk)

/-- Where all wanted subject keys are held, syncing the owners changes nothing, whatever fails. -/
theorem syncOwners_quiet {owners : GoMap Owner} {order : List GoString} (hkept : st.Kept)
    (hpart : ∀ k, inPart k k = true)
    (howners : ∀ subject o, owners.lookup subject = some o → subject ≠ [] ∧
      ∀ k ∈ subject :: o.clientIDs, jsonText k = k)
    (hheld : ∀ subject ∈ order, ∀ o, owners.lookup subject = some o →
      ∀ k ∈ subject :: o.clientIDs, st.holders k ≠ [])
    {out : Except Stop (List (GoString × Stop) × GoMap GoString)}
    (h : Program.RunsOn (Serves keys inPart) st (syncOwners owners order conflicts) log out st') :
    writes log = [] ∧ st' = st := by
  induction order generalizing conflicts log out with
  | nil =>
    obtain ⟨rfl, _, rfl⟩ := h.pure_inv
    exact ⟨rfl, rfl⟩
  | cons subject rest ih =>
    obtain ⟨hfirst, hothers⟩ := List.forall_mem_cons.mp hheld
    rw [syncOwners] at h
    cases ho : owners.lookup subject with
    | none =>
      simp only [ho] at h
      exact ih hothers h
    | some o =>
      simp only [ho] at h
      obtain ⟨first, second, mid, s₁, hsync, hnext, rfl⟩ := h.bind_inv
      obtain ⟨hne, htexts⟩ := howners subject o ho
      have hnone : ¬missing st (st.heldAt subject) (subject :: o.clientIDs) ≠ [] := by
        rw [exists_missing_iff]
        rintro ⟨k, hk, hfree⟩
        exact hfirst o ho k hk hfree
      obtain ⟨hlog, rfl⟩ : writes first = [] ∧ s₁ = st :=
        (syncOwner_served hkept hpart htexts hne (fun h => absurd h hnone) hsync).2.resolve_right
          fun h => hnone h.1
      obtain ⟨result, conflicts'⟩ := mid
      split at hnext
      · obtain ⟨rfl, _, rfl⟩ := hnext.pure_inv
        exact ⟨by simp [hlog], rfl⟩
      · obtain ⟨third, fourth, others, s₂, hrun, hpure, rfl⟩ := hnext.bind_inv
        obtain ⟨rfl, _, rfl⟩ := hpure.pure_inv
        obtain ⟨hthird, hst⟩ := ih hothers hrun
        exact ⟨by simp [hlog, hthird], hst⟩

/-- The result of a sync of creators whose customers are attributable. -/
theorem attributed_of_attributable {s : CustomerSync} {out : Except Stop Synced}
    (hkeeps : Keeps keys st) (hpart : ∀ k, inPart k k = true) (htexts : Texts keys)
    (h : Program.RunsOn (Answers keys inPart) st (sync s) log out st') :
    Attributed keys inPart st out st' := by
  obtain ⟨answer, s₁, ⟨rfl, hanswer⟩, hnext⟩ := sync_inv h
  rcases hnext with ⟨f, hf, _⟩ | ⟨listed, order, s₂, owned, result, hlisted, hrange, howners, _,
    hout⟩
  · rw [hanswer] at hf
    cases hf
  obtain rfl := Except.ok.inj (hlisted.symm.trans hanswer)
  obtain rfl : s₂ = s₁ := hrange
  obtain ⟨⟨conflicts', hresult⟩, hgrows, hkeeps', hheld⟩ :=
    syncOwners_answered hkeeps hpart htexts howners
  have hall : ∀ subject o, (groupKeys listed).1.lookup subject = some o →
      ∀ k ∈ subject :: o.clientIDs, st'.holders k ≠ [] :=
    fun subject o ho => hheld subject (order.property.mem_iff.mpr (GoMap.mem_sortedKeys.mpr
      (Finmap.mem_of_lookup_eq_some ho))) o ho
  refine ⟨hout conflicts' hresult, hgrows, hkeeps'.unique, fun info hinfo hne k hk => ?_,
    fun s₃ log₂ out₂ st₂ hagain => ?_⟩
  · obtain ⟨o, ho⟩ := exists_owner hinfo hne
    have hwanted : k ∈ info.creatorSubject :: o.clientIDs := by
      rw [(lookup_owner ho).2.1]
      rcases List.mem_pair.mp hk with rfl | rfl
      · exact List.mem_cons_self
      · exact List.mem_cons_of_mem _
          (List.mem_map.mpr ⟨info, List.mem_filter.mpr ⟨hinfo, decide_eq_true rfl⟩, rfl⟩)
    obtain ⟨holder, hholder⟩ := List.exists_mem_of_ne_nil _ (hall _ o ho k hwanted)
    exact ⟨holder, mem_holders.mp hholder, hgrows.wanted holder k (mem_holders.mp hholder)⟩
  · obtain ⟨answer, s₄, hserves, hnext⟩ := sync_inv hagain
    obtain rfl : s₄ = st' := hserves.elim And.left And.left
    rcases hnext with ⟨_, _, hlog, hst⟩ | ⟨relisted, order₂, s₅, owned₂, result₂, hok, hrange₂,
      howners₂, hlog, _⟩
    · exact ⟨hlog, hst⟩
    · obtain rfl : relisted = listed := by
        rcases hserves with ⟨_, hanswer⟩ | ⟨_, f, hanswer⟩
        · exact Except.ok.inj (hok.symm.trans hanswer)
        · rw [hok] at hanswer
          cases hanswer
      obtain rfl : s₅ = s₄ := hrange₂.elim id False.elim
      rw [hlog]
      exact syncOwners_quiet hkeeps'.kept hpart
        (fun subject o ho => ⟨(lookup_owner ho).1, owner_texts htexts ho⟩)
        (fun subject _ => hall subject) howners₂

/-- Every request can be answered without an API error. -/
theorem exists_answers (st : Store) (q : Request) :
    ∃ answer st', Answers keys inPart st q answer st' := by
  cases q with
  | listKeys => exact ⟨.ok keys, st, rfl, rfl⟩
  | range names => exact ⟨⟨names, .refl _⟩, st, rfl⟩
  | get handle => exact ⟨_, st, rfl, rfl⟩
  | list subject =>
    refine ⟨⟨_, .notFound⟩, st, rfl, st.sortedKeys, 1,
      (st.found inPart subject st.sortedKeys).length + 1, .refl _,
      Nat.one_pos, Nat.succ_pos _, by omega, rfl⟩
  | create cust =>
    by_cases htaken : st.Taken cust.key cust.subjectKeys
    · exact ⟨.error (.other "conflict"), st, .inr ⟨_, rfl, htaken, rfl⟩⟩
    · exact ⟨.ok (), _, .inl ⟨rfl, htaken, rfl⟩⟩
  | replace handle cust =>
    by_cases htaken : st.Taken handle cust.held
    · exact ⟨.error (.other "conflict"), st, .inr ⟨_, rfl, htaken, rfl⟩⟩
    · exact ⟨.ok (), _, .inl ⟨rfl, htaken, rfl⟩⟩

/-- A sync that visits an owner first whose sync fails does not succeed. -/
theorem exists_failed_sync {subject : GoString} {o : Owner} (s : CustomerSync)
    (ho : (groupKeys keys).1.lookup subject = some o)
    (hfails : ∀ log out st',
      Program.RunsOn (Answers keys inPart) st (syncOwner subject o ∅) log out st' →
    out.1 ≠ .ok ()) :
    ∃ log out st', Program.RunsOn (Answers keys inPart) st (sync s) log out st' ∧
      ¬∃ synced, out = .ok synced ∧ synced.errors = [] := by
  let owners := (groupKeys keys).1
  have hmem : subject ∈ owners.sortedKeys :=
    GoMap.mem_sortedKeys.mpr (Finmap.mem_of_lookup_eq_some ho)
  let order : { order : List GoString // order.Perm owners.sortedKeys } :=
    ⟨subject :: owners.sortedKeys.erase subject, (List.perm_cons_erase hmem).symm⟩
  obtain ⟨log, result, st', hrun⟩ :=
    Program.exists_runsOn (@exists_answers keys inPart) st (syncOwners owners order.val ∅)
  have hnot : ∀ conflicts', result ≠ .ok ([], conflicts') := by
    have hfirst : Program.RunsOn (Answers keys inPart) st
        (syncOwners owners (subject :: owners.sortedKeys.erase subject) ∅) log result st' := hrun
    rw [syncOwners, ho] at hfirst
    obtain ⟨first, second, ⟨ended, conflicts₁⟩, s₁, hsync, hnext, rfl⟩ := hfirst.bind_inv
    cases ended with
    | ok value => exact absurd rfl (hfails _ _ _ hsync)
    | error e =>
      split at hnext
      · obtain ⟨_, rfl, _⟩ := hnext.pure_inv
        simp
      · next ended' conflicts₂ _ heq =>
        obtain ⟨third, fourth, others, s₂, _, hpure, rfl⟩ := hnext.bind_inv
        obtain ⟨_, rfl, _⟩ := hpure.pure_inv
        obtain rfl : .error e = ended' := (Prod.mk.inj heq).1
        cases others <;> simp [Except.map]
  have hlist : Answers keys inPart st .listKeys (.ok keys) st := ⟨rfl, rfl⟩
  have hrange : Answers keys inPart st (.range owners.sortedKeys) order st := rfl
  refine ⟨_, _, st', .call hlist (.call hrange (hrun.bind (.pure st' _))), ?_⟩
  rintro ⟨synced, hok, hnone⟩
  cases result with
  | error e => simp [Except.map] at hok
  | ok value =>
    obtain ⟨errors, conflicts'⟩ := value
    rw [← Except.ok.inj hok] at hnone
    exact hnot conflicts' (by rw [show errors = [] from hnone])

/-- Syncs succeed in every order of the owners only where the creators' customers are
attributable. -/
theorem attributable_of_succeeds (s : CustomerSync) (hkept : st.Kept)
    (hpart : ∀ k, inPart k k = true)
    (h : ∀ log out st', Program.RunsOn (Answers keys inPart) st (sync s) log out st' →
      ∃ synced, out = .ok synced ∧ synced.errors = []) : Attributable keys st := by
  rintro handle c ⟨hne, info, hinfo, rfl⟩ hc
  obtain ⟨o, ho⟩ := exists_owner hinfo hne
  have hsucceeds : ¬∀ log out st',
    Program.RunsOn (Answers keys inPart) st (syncOwner info.creatorSubject o ∅) log out st' →
      out.1 ≠ .ok () := by
    intro hfails
    obtain ⟨log, out, st', hrun, hnot⟩ := exists_failed_sync s ho hfails
    exact hnot (h log out st' hrun)
  have hreads : ∃ held, c.subjectKeys = .ok held := by
    by_contra hunreadable
    refine hsucceeds fun log out st' hrun => ?_
    obtain ⟨rest, hmissing⟩ := syncOwner_inv hrun
    cases hkeys : c.subjectKeys with
    | ok held => exact absurd ⟨held, hkeys⟩ hunreadable
    | error e =>
      rw [addMissing, hc, Option.getD_some, hkeys] at hmissing
      obtain ⟨_, rfl, _⟩ := hmissing.pure_inv
      simp
  refine ⟨hreads, fun hlacks hnull => hsucceeds fun log out st' hrun => ?_⟩
  obtain ⟨k, hwanted, hnone⟩ := hlacks
  have hmissing := exists_missing_iff.mpr ⟨k, (wanted_iff ho).mp hwanted, hnone⟩
  obtain ⟨rest, hrest⟩ := syncOwner_inv hrun
  obtain ⟨written, hwritten⟩ := addMissing_answered hkept hpart
    (fun c' hc' => by rw [hc] at hc'; rwa [← Option.some.inj hc']) hrest
  -- the assignment to the nil map that `null` is decoded to
  have hpanics : ∀ keys, c.setSubjectKeys keys = .error .panicked := by
    simp [StoredCustomer.setSubjectKeys, hnull, unmarshalMap]
  unfold writeAdditions at hwritten
  rw [if_neg hmissing] at hwritten
  simp only [hc, hpanics] at hwritten
  obtain ⟨_, hout, _⟩ := hwritten.pure_inv
  simp [hout]

/-- A sync without an API error does what it is for in every order of the owners exactly
where every creator's customer can be read, and none that lacks a subject key which
nobody holds has a `null` attribution. -/
theorem sync_attributes_iff (keys : List KeyInfo) (inPart : GoString → GoString → Bool) (st : Store)
    (s : CustomerSync)
    (hpart : ∀ k, inPart k k = true) (hkept : st.Kept) (hunique : st.Unique) (htexts : Texts keys) :
    (∀ log out st', Program.RunsOn (Answers keys inPart) st (sync s) log out st' →
      Attributed keys inPart st out st') ↔
      Attributable keys st := by
  constructor
  · intro h
    exact attributable_of_succeeds s hkept hpart fun log out st' hrun =>
      (h log out st' hrun).succeeds
  · intro hattr log out st' hrun
    exact attributed_of_attributable ⟨hkept, hunique, hattr⟩ hpart htexts hrun

/-- The metadata of a key of bob's. -/
def bobKey : KeyInfo where
  clientID := "user-bob-a-1"
  creator := "bob"
  creatorSubject := "sub-bob"
  createdAt := 0
  modelName := "a"
  «namespace» := "llm-serving"

/-- A customer that holds all that bob's key is wanted under. -/
def teamCustomer : StoredCustomer :=
  GoMap.ofList [("key", .string "team"),
    ("usageAttribution", .object
      [("subjectKeys", .array [.string "sub-bob", .string "user-bob-a-1"])])]

/-- Bob's own customer, attributed nothing. -/
def bobCustomer : StoredCustomer :=
  GoMap.ofList [("key", .string "sub-bob"), ("usageAttribution", .null)]

/-- Alice's customer, the team's, and bob's. -/
def teamStore : Store :=
  ((Finmap.insert (lit "sub-bob") bobCustomer ∅).insert (lit "team") teamCustomer).insert
    (lit "sub-alice") StoredCustomer.aliceCustomer

private theorem teamStore_lookup {handle : GoString} {c : StoredCustomer}
    (hc : teamStore.lookup handle = some c) :
    handle = "sub-alice" ∧ c = StoredCustomer.aliceCustomer ∨ handle = "team" ∧ c = teamCustomer ∨
      handle = "sub-bob" ∧ c = bobCustomer := by
  simp only [teamStore, GoMap.lookup_insert_eq] at hc
  split_ifs at hc with halice hteam hbob
  · exact .inl ⟨halice, (Option.some.inj hc).symm⟩
  · exact .inr (.inl ⟨hteam, (Option.some.inj hc).symm⟩)
  · exact .inr (.inr ⟨hbob, (Option.some.inj hc).symm⟩)
  · simp at hc

private theorem teamStore_heldAt (handle : GoString) : teamStore.heldAt handle =
    if handle = "sub-alice" then [lit "sub-alice"]
    else if handle = "team" then [lit "sub-bob", lit "user-bob-a-1"] else [] := by
  rw [teamStore, heldAt_insert, heldAt_insert, heldAt_insert]
  have hempty : Store.heldAt ∅ handle = [] := rfl
  have hbob : bobCustomer.held = [] := rfl
  rw [hempty, hbob, ite_self]
  rfl

private theorem teamStore_kept : teamStore.Kept := by
  intro handle c hc
  obtain ⟨rfl, rfl⟩ | ⟨rfl, rfl⟩ | ⟨rfl, rfl⟩ := teamStore_lookup hc
  · refine ⟨rfl, fun ua hua => ?_, by decide +kernel⟩
    rw [← Option.some.inj hua]
    decide +kernel
  · refine ⟨rfl, fun ua hua => ?_, by decide +kernel⟩
    rw [← Option.some.inj hua]
    decide +kernel
  · exact ⟨rfl, fun ua hua => (by cases hua), by decide +kernel⟩

private theorem teamStore_unique : teamStore.Unique := by
  intro k handle other hhandle hother
  rw [teamStore_heldAt] at hhandle hother
  have hdistinct : ∀ k ∈ [lit "sub-bob", lit "user-bob-a-1"], k ≠ "sub-alice" := by decide
  split_ifs at hhandle hother with halice halice' hteam' hteam halice' hteam'
  · rw [halice, halice']
  · exact absurd (List.mem_singleton.mp hhandle) (hdistinct k hother)
  · simp at hother
  · exact absurd (List.mem_singleton.mp hother) (hdistinct k hhandle)
  · rw [hteam, hteam']
  · simp at hother
  · simp at hhandle
  · simp at hhandle
  · simp at hhandle

private theorem teamStore_attributable :
    Attributable [aliceKey "user-alice-a-1" "a", bobKey] teamStore := by
  rintro handle c _ hc
  obtain ⟨rfl, rfl⟩ | ⟨rfl, rfl⟩ | ⟨rfl, rfl⟩ := teamStore_lookup hc
  · exact ⟨⟨_, rfl⟩, fun _ hnull => (by cases hnull)⟩
  · exact ⟨⟨_, rfl⟩, fun _ hnull => (by cases hnull)⟩
  · refine ⟨⟨_, rfl⟩, fun hlacks => ?_⟩
    obtain ⟨k, ⟨_, hk⟩, hnone⟩ := hlacks
    have hteam : k ∈ teamStore.heldAt "team" := by
      rw [teamStore_heldAt]
      exact hk
    exact absurd hteam (holders_eq_nil.mp hnone "team")

/-- Alice's customer gets her key, and bob's, whose attribution is null, isn't written: the
team's customer holds his keys. -/
theorem teamStore_synced : ∃ log out st',
    Program.RunsOn (Answers [aliceKey "user-alice-a-1" "a", bobKey] containsFold) teamStore
      (sync ⟨0, ∅⟩) log out st' ∧
      Attributed [aliceKey "user-alice-a-1" "a", bobKey] containsFold teamStore out st' := by
  obtain ⟨log, out, st', hrun⟩ :=
    Program.exists_runsOn (@exists_answers [aliceKey "user-alice-a-1" "a", bobKey] containsFold)
    teamStore (sync ⟨0, ∅⟩)
  refine ⟨log, out, st', hrun, ?_⟩
  exact (sync_attributes_iff [aliceKey "user-alice-a-1" "a", bobKey] containsFold teamStore
    ⟨0, ∅⟩ containsFold_self
    teamStore_kept teamStore_unique (by unfold Texts; decide)).mpr teamStore_attributable log out
      st' hrun

/-- A creator's customer with a `null` attribution makes a sync panic that has a subject key to
add. -/
theorem unattributed_not_synced :
    ¬∀ (keys : List KeyInfo) (inPart : GoString → GoString → Bool) (st : Store)
    (s : CustomerSync), (∀ k, inPart k k = true) → st.Kept → st.Unique → Texts keys → ∀ log out st',
      Program.RunsOn (Answers keys inPart) st (sync s) log out st' →
      Attributed keys inPart st out st' := by
  intro h
  let st : Store := Finmap.insert (lit "sub-alice") StoredCustomer.unattributed ∅
  have hlookup : ∀ handle c, st.lookup handle = some c → handle = "sub-alice" ∧
      c = StoredCustomer.unattributed := by
    intro handle c hc
    rw [GoMap.lookup_insert_eq] at hc
    split_ifs at hc with hsame
    · exact ⟨hsame, (Option.some.inj hc).symm⟩
    · simp at hc
  have hheld : ∀ handle, st.heldAt handle = [] := by
    intro handle
    rw [heldAt_insert]
    split_ifs <;> rfl
  have hkept : st.Kept := by
    intro handle c hc
    obtain ⟨rfl, rfl⟩ := hlookup handle c hc
    exact ⟨rfl, fun ua hua => (by cases hua), by decide +kernel⟩
  have hunique : st.Unique := fun k handle other hk => by simp [hheld] at hk
  have hattr := attributable_of_succeeds ⟨0, ∅⟩ hkept containsFold_self fun log out st' hrun =>
    (h [aliceKey "user-alice-a-1" "a"] containsFold st ⟨0, ∅⟩ containsFold_self hkept hunique
      (by unfold Texts; decide)
      log out st' hrun).succeeds
  have hcreates : Creates [aliceKey "user-alice-a-1" "a"] (lit "sub-alice") :=
    ⟨by decide, _, List.mem_cons_self, rfl⟩
  refine (hattr _ _ hcreates (Finmap.lookup_insert _)).2 ⟨lit "sub-alice",
    ⟨hcreates, List.mem_cons_self⟩, ?_⟩ rfl
  exact holders_eq_nil.mpr fun handle => by simp [hheld]

end Answered

end customers
