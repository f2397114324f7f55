import Mathlib.Data.List.Duplicate
import ServingPack.KeyManager.CustomerRuns

open golang concurrency secrets

namespace customers

/-- The client IDs recorded for a creator's subject, in the order of the metadata. -/
def minted (keys : List KeyInfo) (subject : GoString) : List GoString :=
  (keys.filter (fun k => k.creatorSubject = subject)).map KeyInfo.clientID

/-- Whether the creator's customer gets each subject key once: what is wanted twice
some customer holds already, and the creator's customer repeats none itself where
something is to be added. -/
structure Distinct (st : Store) (subject : GoString) (wanted : List GoString) : Prop where
  held : ∀ k, 2 ≤ wanted.count k → st.holders k ≠ []
  own : (∃ k ∈ wanted, st.holders k = []) → (st.heldAt subject).Nodup

/-- The texts of the metadata are in UTF-8, as `encoding/json` reads them. -/
def Texts (keys : List KeyInfo) : Prop :=
  ∀ k ∈ keys, jsonText k.clientID = k.clientID ∧ jsonText k.creatorSubject = k.creatorSubject

section Grouping

variable {keys : List KeyInfo} {subject : GoString} {o : Owner}

private theorem minted_append (keys : List KeyInfo) (k : KeyInfo) (subject : GoString) :
    minted (keys ++ [k]) subject = minted keys subject ++ if k.creatorSubject =
      subject then [k.clientID] else [] := by
  simp only [minted, List.filter_append, List.map_append, List.filter_cons, List.filter_nil,
    decide_eq_true_eq]
  split_ifs <;> rfl

private theorem lookup_groupKeys (keys : List KeyInfo) (subject : GoString) :
    ((groupKeys keys).1.lookup subject).map Owner.clientIDs =
      if subject = [] ∨ minted keys subject = [] then none else some (minted keys subject) := by
  induction keys using List.reverseRecOn with
  | nil => simp [groupKeys, minted]
  | append_singleton keys k ih =>
    have hstep : groupKeys (keys ++ [k]) = addKey (groupKeys keys) k := by simp [groupKeys]
    rw [hstep, addKey, minted_append]
    by_cases hempty : k.creatorSubject = []
    · rw [if_pos hempty, ih]
      by_cases hsubject : subject = []
      · simp [hsubject]
      · have hother : k.creatorSubject ≠ subject := fun h => hsubject (h.symm.trans hempty)
        rw [if_neg hother, List.append_nil]
    · rw [if_neg hempty]
      simp only [GoMap.lookup_insert_eq]
      by_cases hsame : subject = k.creatorSubject
      · subst hsame
        rw [if_pos rfl, if_pos rfl, Option.map_some, if_neg (by simp [hempty])]
        cases ho : (groupKeys keys).1.lookup k.creatorSubject with
        | none =>
          rw [ho, Option.map_none] at ih
          by_cases hminted : minted keys k.creatorSubject = []
          · rw [hminted]
            rfl
          · simp [hempty, hminted] at ih
        | some o =>
          rw [ho, Option.map_some] at ih
          split_ifs at ih with hcase
          rw [Option.getD_some, Option.some.inj ih]
      · rw [if_neg hsame, if_neg (Ne.symm hsame), List.append_nil, ih]

/-- The owners are the creators with a subject, each with the client IDs recorded for it. -/
theorem lookup_owner (h : (groupKeys keys).1.lookup subject = some o) :
    subject ≠ [] ∧ o.clientIDs = minted keys subject ∧ ∃ k ∈ keys, k.creatorSubject = subject := by
  have hlookup := lookup_groupKeys keys subject
  rw [h, Option.map_some] at hlookup
  split_ifs at hlookup with hcase
  rw [not_or] at hcase
  obtain ⟨id, hid⟩ := List.exists_mem_of_ne_nil _ hcase.2
  obtain ⟨k, hk, _⟩ := List.mem_map.mp hid
  obtain ⟨hk, hsubject⟩ := List.mem_filter.mp hk
  exact ⟨hcase.1, Option.some.inj hlookup, k, hk, of_decide_eq_true hsubject⟩

/-- The keys of a creator with a subject are grouped under that subject. -/
theorem exists_owner {k : KeyInfo} (hk : k ∈ keys) (hne : k.creatorSubject ≠ []) :
    ∃ o, (groupKeys keys).1.lookup k.creatorSubject = some o := by
  have hlookup := lookup_groupKeys keys k.creatorSubject
  have hminted : minted keys k.creatorSubject ≠ [] :=
    List.ne_nil_of_mem (List.mem_map.mpr ⟨k, List.mem_filter.mpr ⟨hk, decide_eq_true rfl⟩, rfl⟩)
  rw [if_neg (by simp [hne, hminted]), Option.map_eq_some_iff] at hlookup
  obtain ⟨o, ho, _⟩ := hlookup
  exact ⟨o, ho⟩

/-- What is wanted for an owner are texts. -/
theorem owner_texts (htexts : Texts keys) (h : (groupKeys keys).1.lookup subject = some o) :
    ∀ k ∈ subject :: o.clientIDs, jsonText k = k := by
  obtain ⟨_, hids, k, hk, rfl⟩ := lookup_owner h
  rw [hids, List.forall_mem_cons]
  refine ⟨(htexts k hk).2, fun id hid => ?_⟩
  obtain ⟨k', hk', rfl⟩ := List.mem_map.mp hid
  exact (htexts k' (List.mem_of_mem_filter hk')).1

end Grouping

section Merging

variable {st st' : Store} {subject other : GoString} {o : Owner} {k : GoString}

/-- A wanted key is missing when no customer holds it: what the subject itself holds has a
holder. -/
theorem missing_eq (st : Store) (subject : GoString) (wanted : List GoString) :
    missing st (st.heldAt subject) wanted = wanted.filter (fun k => st.holders k = []) := by
  refine List.filter_congr fun k _ => ?_
  rw [Bool.eq_iff_iff, Bool.and_eq_true, decide_eq_true_eq, decide_eq_true_eq]
  exact and_iff_right_of_imp fun hk => holders_eq_nil.mp hk subject

private theorem nodup_filter_iff {wanted : List GoString} {p : GoString → Bool} :
    (wanted.filter p).Nodup ↔ ∀ k, 2 ≤ wanted.count k → p k = false := by
  rw [List.nodup_iff_count_le_one]
  refine forall_congr' fun k => ?_
  cases hp : p k with
  | true =>
    rw [List.count_filter hp]
    simp only [Bool.true_eq_false, imp_false]
    omega
  | false => simp [List.count_eq_zero.mpr (fun h : k ∈ wanted.filter p => by simp [hp] at h)]

/-- What is written for an owner repeats nothing, if something is written at all,
exactly where the owner's subject keys are distinct. -/
theorem merged_nodup_iff :
    (missing st (st.heldAt subject) (subject :: o.clientIDs) ≠ [] → (merged st subject o).Nodup) ↔
      Distinct st subject (subject :: o.clientIDs) := by
  have hdisjoint : ∀ k ∈ st.heldAt subject,
      k ∉ (subject :: o.clientIDs).filter (fun k => st.holders k = []) :=
    fun k hk hmem => holders_eq_nil.mp (of_decide_eq_true (List.mem_filter.mp hmem).2) subject hk
  have hperm : (merged st subject o).Nodup ↔ (st.heldAt subject).Nodup ∧
      ((subject :: o.clientIDs).filter (fun k => st.holders k = [])).Nodup := by
    rw [merged, missing_eq, sortStrings, (List.perm_insertionSort le _).nodup_iff,
      List.nodup_append]
    exact ⟨fun h => ⟨h.1, h.2.1⟩,
      fun h => ⟨h.1, h.2, fun a ha b hb hab => hdisjoint a ha (hab ▸ hb)⟩⟩
  have hsome : (subject :: o.clientIDs).filter (fun k => st.holders k = []) ≠ [] ↔
      ∃ k ∈ subject :: o.clientIDs, st.holders k = [] := by
    simp only [ne_eq, List.filter_eq_nil_iff, decide_eq_true_eq, not_forall, not_not, exists_prop]
  rw [hperm, missing_eq, hsome, nodup_filter_iff]
  simp only [decide_eq_false_iff_not]
  constructor
  · intro h
    refine ⟨fun k hk hnone => ?_, fun hex => (h hex).1⟩
    have hmem : k ∈ subject :: o.clientIDs := List.count_pos_iff.mp (by omega)
    exact (h ⟨k, hmem, hnone⟩).2 k hk hnone
  · intro h hex
    exact ⟨h.own hex, h.held⟩

section Written

variable (hkept : st.Kept) (htakes : st.Takes subject) (hne : subject ≠ [])
  (htexts : ∀ k ∈ subject :: o.clientIDs, jsonText k = k) (h : Written st subject o st')

include hkept htakes hne htexts h

/-- A write gives the creator's customer what was merged and nobody else anything. -/
theorem Written.heldAt (other : GoString) :
    st'.heldAt other = if other = subject then merged st subject o else st.heldAt other := by
  rw [show st' = _ from h, heldAt_insert, (rewritten_typed hkept htakes hne htexts).2]

/-- What holds of the customers before and of every well-formed one holds of them after a write. -/
theorem Written.each {P : GoString → StoredCustomer → Prop}
    (hbefore : ∀ handle c, st.lookup handle = some c → P handle c)
    (hwritten : ∀ c : StoredCustomer, c.Typed subject → P subject c) (handle : GoString)
    (c : StoredCustomer) (hc : st'.lookup handle = some c) : P handle c := by
  rw [show st' = _ from h, GoMap.lookup_insert_eq] at hc
  split_ifs at hc with hsame
  · rw [← Option.some.inj hc, hsame]
    exact hwritten _ (rewritten_typed hkept htakes hne htexts).1
  · exact hbefore handle c hc

/-- Writing an owner's keys leaves a store that the next owner can be written to. -/
theorem Written.kept : st'.Kept := h.each hkept htakes hne htexts hkept fun _ hc => hc.kept

private theorem Written.typed (htyped : st.Typed) : st'.Typed :=
  h.each hkept htakes hne htexts htyped fun _ hc => hc

end Written

/-- Merging only adds: what the subject holds stays. -/
theorem mem_merged_of_heldAt (h : k ∈ st.heldAt subject) : k ∈ merged st subject o := by
  rw [merged, mem_sortStrings, List.mem_append]
  exact .inl h

/-- A write takes no subject key from anyone. -/
theorem Written.holders (hkept : st.Kept) (htakes : st.Takes subject) (hne : subject ≠ [])
    (htexts : ∀ k ∈ subject :: o.clientIDs, jsonText k = k) (h : Written st subject o st')
    (hk : st.holders k ≠ []) : st'.holders k ≠ [] := by
  obtain ⟨holder, hholder⟩ := List.exists_mem_of_ne_nil _ hk
  refine List.ne_nil_of_mem (mem_holders.mpr ?_ : holder ∈ _)
  rw [h.heldAt hkept htakes hne htexts]
  split_ifs with hsame
  · subst hsame
    exact mem_merged_of_heldAt (mem_holders.mp hholder)
  · exact mem_holders.mp hholder

/-- A write for one owner leaves the others' subject keys distinct. -/
theorem Written.distinct (hkept : st.Kept) (htakes : st.Takes subject) (hne : subject ≠ [])
    (htexts : ∀ k ∈ subject :: o.clientIDs, jsonText k = k) (h : Written st subject o st')
    (hother : other ≠ subject) {wanted : List GoString} (hdistinct : Distinct st other wanted) :
    Distinct st' other wanted := by
  refine ⟨fun k hk => h.holders hkept htakes hne htexts (hdistinct.held k hk), ?_⟩
  rintro ⟨k, hk, hnone⟩
  rw [h.heldAt hkept htakes hne htexts, if_neg hother]
  exact hdistinct.own ⟨k, hk, by_contra fun hheld => h.holders hkept htakes hne htexts hheld hnone⟩

end Merging

section Runs

variable {keys : List KeyInfo} {inPart : GoString → GoString → Bool} {st st' : Store}
  {owners : GoMap Owner} {log : List (Σ q : Request, Answer q)} {conflicts : GoMap GoString}

private theorem mem_writes_cons {write : List GoString} {entry : Σ q : Request, Answer q}
    (h : write ∈ writes log) :
    write ∈ writes (entry :: log) := by
  rw [← List.singleton_append, writes_append]
  exact List.mem_append_right _ h

/-- Every write for the owners, in any order, repeats no subject key. -/
theorem syncOwners_nodup {order : List GoString} (horder : order.Nodup) (htyped : st.Typed)
    (hpart : ∀ k, inPart k k = true)
    (howners : ∀ subject o, owners.lookup subject = some o → subject ≠ [] ∧
      ∀ k ∈ subject :: o.clientIDs, jsonText k = k)
    (hdistinct : ∀ subject ∈ order, ∀ o, owners.lookup subject = some o →
      Distinct st subject (subject :: o.clientIDs))
    {out : Except Stop (List (GoString × Stop) × GoMap GoString)}
    (h : Program.RunsOn (Serves keys inPart) st (syncOwners owners order conflicts) log out st') :
    ∀ write ∈ writes log, write.Nodup := by
  induction order generalizing st conflicts log out with
  | nil =>
    obtain ⟨rfl, _, _⟩ := h.pure_inv
    exact fun write hwrite => absurd hwrite List.not_mem_nil
  | cons subject rest ih =>
    obtain ⟨hsubject, hrest⟩ := List.nodup_cons.mp horder
    obtain ⟨hfirst, hothers⟩ := List.forall_mem_cons.mp hdistinct
    rw [syncOwners] at h
    cases ho : owners.lookup subject with
    | none =>
      simp only [ho] at h
      exact ih hrest htyped hothers h
    | some o =>
      simp only [ho] at h
      obtain ⟨first, second, mid, s₁, hsync, hnext, rfl⟩ := h.bind_inv
      obtain ⟨hne, htexts⟩ := howners subject o ho
      have htakes : st.Takes subject := htyped subject
      obtain ⟨hpanic, hwrites⟩ :=
        syncOwner_served htyped.kept hpart htexts hne (fun _ => htakes) hsync
      have hnodup : ∀ write ∈ writes first, write.Nodup := by
        rcases hwrites with ⟨hnone, _⟩ | ⟨hmissing, hone, _⟩
        · simp [hnone]
        · rw [hone]
          simpa using merged_nodup_iff.mpr (hfirst o ho) hmissing
      have hkept : s₁.Typed ∧ ∀ other ∈ rest, ∀ o, owners.lookup other = some o →
          Distinct s₁ other (other :: o.clientIDs) := by
        rcases hwrites with ⟨_, rfl⟩ | ⟨_, _, rfl | hwritten⟩
        · exact ⟨htyped, hothers⟩
        · exact ⟨htyped, hothers⟩
        · refine ⟨hwritten.typed htyped.kept htakes hne htexts htyped,
            fun other hother o' ho' => ?_⟩
          exact hwritten.distinct htyped.kept htakes hne htexts
            (ne_of_mem_of_not_mem hother hsubject) (hothers other hother o' ho')
      have hsecond : ∀ write ∈ writes second, write.Nodup := by
        obtain ⟨result, conflicts'⟩ := mid
        split at hnext
        · obtain ⟨rfl, _, _⟩ := hnext.pure_inv
          simp
        · obtain ⟨third, fourth, others, s₂, hrun, hpure, rfl⟩ := hnext.bind_inv
          obtain ⟨rfl, _, rfl⟩ := hpure.pure_inv
          rw [List.append_nil]
          exact ih hrest hkept.1 hkept.2 hrun
      rw [writes_append]
      exact List.forall_mem_append.mpr ⟨hnodup, hsecond⟩

/-- A lookup can succeed. -/
theorem exists_lookup (hkept : st.Kept) (hpart : ∀ k, inPart k k = true) (k : GoString) :
    ∃ log found, Program.RunsOn (Serves keys inPart) st (customersWithSubjectKey k) log
      (.ok found) st ∧
      ∀ handle, handle ∈ found ↔ handle ∈ st.holders k := by
  let items := st.found inPart k st.sortedKeys
  have hreads : ∀ c ∈ items, c.subjectKeys = .ok c.held := found_reads st inPart st.sortedKeys
  obtain ⟨found, hfound⟩ :=
    (@readHolders_pages items k .notFound 1 hreads Nat.one_pos (items.length + 1) 0).2
    (Nat.succ_pos _) (by omega)
  let answer : ListPages := ⟨(List.range (items.length + 1)).map (page 1 items), .notFound⟩
  have hserves : Serves keys inPart st (.list k) answer st :=
    .inl ⟨rfl, st.sortedKeys, 1, items.length + 1, .refl _, Nat.one_pos, Nat.succ_pos _,
      by show items.length ≤ (items.length + 1) * 1; omega, rfl⟩
  have hrun : Program.RunsOn (Serves keys inPart) st (customersWithSubjectKey k) [⟨.list k, answer⟩]
      (.ok found) st := by
    refine .call hserves ?_
    have hread : readHolders k answer.failure 1 answer.pages = .ok found := by
      rw [← hfound, ← List.range_eq_range']
    rw [← hread]
    exact .pure st _
  exact ⟨_, found, hrun, (customersWithSubjectKey_served hkept (hpart k) hrun).2.2.2 found rfl⟩

/-- The search for what is missing can succeed. -/
theorem exists_additions (hkept : st.Kept) (hpart : ∀ k, inPart k k = true) (subject : GoString)
    (held wanted : List GoString) (conflicts : GoMap GoString) : ∃ log conflicts',
      Program.RunsOn (Serves keys inPart) st (additions subject held wanted conflicts) log
        (.ok (missing st held wanted), conflicts') st := by
  induction wanted generalizing conflicts with
  | nil => exact ⟨[], conflicts, .pure st _⟩
  | cons k rest ih =>
    rw [additions]
    split_ifs with hk
    · obtain ⟨log, conflicts', hrun⟩ := ih conflicts
      rw [missing, List.filter_cons_of_neg (by simp [hk])]
      exact ⟨log, conflicts', hrun⟩
    · obtain ⟨first, found, hlookup, hfound⟩ := @exists_lookup keys inPart st hkept hpart k
      cases found with
      | nil =>
        have hnone : st.holders k = [] := List.eq_nil_iff_forall_not_mem.mpr fun handle hmem =>
          List.not_mem_nil ((hfound handle).mpr hmem)
        obtain ⟨log, conflicts', hrun⟩ := ih conflicts
        rw [missing, List.filter_cons_of_pos (by simp [hk, hnone])]
        exact ⟨_, conflicts', hlookup.bind (hrun.bind (.pure st _))⟩
      | cons holder others =>
        have hheld : st.holders k ≠ [] := List.ne_nil_of_mem ((hfound holder).mp List.mem_cons_self)
        rw [missing, List.filter_cons_of_neg (by simp [hheld])]
        obtain ⟨log, conflicts', hrun⟩ :=
          ih (if holder ≠ subject then conflicts.insert k holder else conflicts)
        exact ⟨_, conflicts', hlookup.bind hrun⟩

/-- Where something is missing, syncing the owner can send the write. -/
theorem exists_owner_write {subject : GoString} {o : Owner} (htyped : st.Typed)
    (hpart : ∀ k, inPart k k = true)
    (hne : subject ≠ [])
    (htexts : ∀ k ∈ subject :: o.clientIDs, jsonText k = k)
    (hmissing : missing st (st.heldAt subject) (subject :: o.clientIDs) ≠ [])
    (conflicts : GoMap GoString) :
    ∃ log out st', Program.RunsOn (Serves keys inPart) st
      (syncOwner subject o conflicts) log out st' ∧
      merged st subject o ∈ writes log := by
  obtain ⟨first, conflicts', hadditions⟩ :=
    @exists_additions keys inPart st htyped.kept hpart subject
    (st.heldAt subject) (subject :: o.clientIDs) conflicts
  obtain ⟨second, result, st', hwrite⟩ := Program.exists_runsOn (@exists_serves keys inPart) st
    (writeAdditions subject o (st.lookup subject) (st.heldAt subject)
      (missing st (st.heldAt subject) (subject :: o.clientIDs)))
  have hsent : writes second = [merged st subject o] := by
    rcases (writeAdditions_served htyped.kept htexts (fun _ => htyped subject) hne hwrite).2
      with ⟨hnone, _⟩ | ⟨_, hone, _⟩
    · exact absurd hnone hmissing
    · exact hone
  have hmissing : Program.RunsOn (Serves keys inPart) st
    (addMissing subject o conflicts (st.lookup subject))
      (first ++ (second ++ [])) (result, conflicts') st' := by
    rw [addMissing, subjectKeys_lookup (fun c hc => ⟨_, (htyped subject c hc).reads⟩)]
    exact hadditions.bind (hwrite.bind (.pure st' _))
  have hget : Program.RunsOn (Serves keys inPart) st (syncOwner subject o conflicts)
      (⟨.get subject, (st.lookup subject).elim (.error .notFound) .ok⟩ :: (first ++ (second ++ [])))
        (result, conflicts') st' := by
    refine .call (.inl ⟨rfl, rfl⟩) ?_
    cases hc : st.lookup subject with
    | none =>
      rw [hc] at hmissing
      exact hmissing
    | some c =>
      rw [hc] at hmissing
      exact hmissing
  refine ⟨_, _, st', hget, ?_⟩
  exact mem_writes_cons (by simp [hsent])

/-- Where something is missing for an owner, a sync can send the write. -/
theorem exists_write {subject : GoString} {o : Owner} (s : CustomerSync) (htyped : st.Typed)
    (hpart : ∀ k, inPart k k = true)
    (htexts : Texts keys) (ho : (groupKeys keys).1.lookup subject = some o)
    (hmissing : missing st (st.heldAt subject) (subject :: o.clientIDs) ≠ []) :
    ∃ log out st', Program.RunsOn (Serves keys inPart) st (sync s) log out st' ∧
    merged st subject o ∈ writes log := by
  let owners := (groupKeys keys).1
  have hmem : subject ∈ owners.sortedKeys :=
    GoMap.mem_sortedKeys.mpr (Finmap.mem_of_lookup_eq_some ho)
  let order : { order : List GoString // order.Perm owners.sortedKeys } :=
    ⟨subject :: owners.sortedKeys.erase subject, (List.perm_cons_erase hmem).symm⟩
  obtain ⟨first, out, s₁, hfirst, hwrite⟩ := @exists_owner_write keys inPart st _ _ htyped hpart
    (lookup_owner ho).1 (owner_texts htexts ho) hmissing ∅
  have hsync : ∃ second out st',
      Program.RunsOn (Serves keys inPart) st (syncOwners owners order.val ∅)
      (first ++ second) out st' := by
    show ∃ second out st',
      Program.RunsOn _ st (syncOwners owners (subject :: owners.sortedKeys.erase subject) ∅) _ _ _
    rw [syncOwners, ho]
    exact hfirst.exists_bind (@exists_serves keys inPart) _
  obtain ⟨second, out', st', hrun⟩ := hsync
  have hrange : Serves keys inPart st (.range owners.sortedKeys) order st := .inl rfl
  refine ⟨_, _, st', .call (.inl ⟨rfl, rfl⟩) (.call hrange (hrun.bind (.pure st' _))), ?_⟩
  exact mem_writes_cons (mem_writes_cons (by simp [hwrite]))

/-- Every request a sync sends, whatever the order of the owners and whatever fails,
repeats no subject key exactly where the subject keys of every key creator are
distinct. -/
theorem sync_writes_nodup_iff (keys : List KeyInfo) (inPart : GoString → GoString → Bool)
    (st : Store) (s : CustomerSync)
    (hpart : ∀ k, inPart k k = true) (htyped : st.Typed) (htexts : Texts keys) :
    (∀ log out st', Program.RunsOn (Serves keys inPart) st (sync s) log out st' →
      ∀ write ∈ writes log, write.Nodup) ↔
      ∀ k ∈ keys, k.creatorSubject ≠ [] →
        Distinct st k.creatorSubject (k.creatorSubject :: minted keys k.creatorSubject) := by
  constructor
  · intro h k hk hne
    obtain ⟨o, ho⟩ := exists_owner hk hne
    rw [← (lookup_owner ho).2.1]
    refine merged_nodup_iff.mp fun hmissing => ?_
    obtain ⟨log, out, st', hrun, hwrite⟩ := exists_write s htyped hpart htexts ho hmissing
    exact h log out st' hrun _ hwrite
  · intro h log out st' hrun
    obtain ⟨answer, s₁, hserves, hnext⟩ := sync_inv hrun
    obtain rfl : s₁ = st := hserves.elim And.left And.left
    rcases hnext with ⟨_, _, hlog, _⟩ | ⟨listed, order, s₂, owned, result, hok, hrange, howners,
      hlog, _⟩
    · simp [hlog]
    · obtain rfl : listed = keys := by
        rcases hserves with ⟨_, hanswer⟩ | ⟨_, f, hanswer⟩
        · exact Except.ok.inj (hok.symm.trans hanswer)
        · rw [hok] at hanswer
          cases hanswer
      obtain rfl : s₂ = s₁ := hrange.elim id False.elim
      rw [hlog]
      refine syncOwners_nodup (order.property.nodup_iff.mpr (GoMap.nodup_sortedKeys _)) htyped hpart
        (fun subject o ho => ⟨(lookup_owner ho).1, owner_texts htexts ho⟩)
          (fun subject _ o ho => ?_) howners
      obtain ⟨hne, hids, k, hk, rfl⟩ := lookup_owner ho
      rw [hids]
      exact h k hk hne

/-- A partial match that takes no notice of the case of letters. -/
def containsFold (k subject : GoString) : Bool := contains (toLower k) (toLower subject)

/-- OpenMeter's search by key returns the customer that holds it. -/
theorem containsFold_self (k : GoString) : containsFold k k = true :=
  List.any_eq_true.mpr ⟨toLower k, (List.mem_tails _ _).mpr List.suffix_rfl, by simp⟩

/-- The metadata of a key of alice's. -/
def aliceKey (clientID modelName : GoString) : KeyInfo where
  clientID := clientID
  creator := "alice"
  creatorSubject := "sub-alice"
  createdAt := 0
  modelName := modelName
  «namespace» := "llm-serving"

/-- Keys of two models, each with a client ID of its own. -/
def twoKeys : List KeyInfo := [aliceKey "user-alice-a-1" "a", aliceKey "user-alice-b-1" "b"]

/-- Keys of two models with one client ID, as they used to be issued. -/
def repeatedKeys : List KeyInfo := [aliceKey "user-alice-1" "a", aliceKey "user-alice-1" "b"]

private theorem empty_typed : Store.Typed ∅ := fun _ _ h => by simp at h

private theorem empty_holders (k : GoString) : Store.holders ∅ k = [] :=
  holders_eq_nil.mpr fun handle h => by simp [mem_heldAt] at h

/-- Two keys of one creator go into one write, each of them once. -/
theorem twoKeys_written_once : (minted twoKeys "sub-alice").length = 2 ∧
    ∀ log out st', Program.RunsOn (Serves twoKeys containsFold) ∅ (sync ⟨0, ∅⟩) log out st' →
      ∀ write ∈ writes log, write.Nodup := by
  refine ⟨by decide, (sync_writes_nodup_iff twoKeys containsFold ∅ ⟨0, ∅⟩ containsFold_self empty_typed
    (by unfold Texts; decide)).mpr ?_⟩
  have hnodup : (lit "sub-alice" :: minted twoKeys "sub-alice").Nodup := by decide
  intro k hk _
  have hsubject : k.creatorSubject = lit "sub-alice" := by
    revert k
    decide
  rw [hsubject]
  refine ⟨fun id hid => ?_, fun _ => List.nodup_nil⟩
  have hone := List.nodup_iff_count_le_one.mp hnodup id
  omega

/-- A client ID that is recorded for one creator twice, and that no customer holds yet, is
sent twice. -/
theorem repeatedKeys_sent_twice :
    ¬∀ (keys : List KeyInfo) (inPart : GoString → GoString → Bool) (st : Store)
    (s : CustomerSync), (∀ k, inPart k k = true) → st.Typed → Texts keys → ∀ log out st',
      Program.RunsOn (Serves keys inPart) st (sync s) log out st' →
      ∀ write ∈ writes log, write.Nodup := by
  intro h
  obtain ⟨o, ho⟩ := @exists_owner repeatedKeys (aliceKey "user-alice-1" "a") List.mem_cons_self
    (by decide)
  have htexts : Texts repeatedKeys := by
    unfold Texts
    decide
  have htwice : ¬Distinct ∅ (lit "sub-alice") (lit "sub-alice" :: o.clientIDs) := by
    intro hdistinct
    rw [(lookup_owner ho).2.1] at hdistinct
    exact hdistinct.held (lit "user-alice-1") (by decide) (empty_holders _)
  refine htwice (merged_nodup_iff.mp fun hmissing => ?_)
  obtain ⟨log, out, st', hrun, hwrite⟩ :=
    exists_write ⟨0, ∅⟩ empty_typed containsFold_self htexts ho hmissing
  exact h repeatedKeys containsFold ∅
    ⟨0, ∅⟩ containsFold_self empty_typed htexts log out st' hrun _ hwrite

end Runs

end customers
