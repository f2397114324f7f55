import ServingPack.Console.Tokens

open golang concurrency

namespace openmeter

/-- The token events of some receipts carry their request's time, in whole seconds. -/
def InTheirSecond (log : List Event) (rs : List Receipt) : Prop :=
  ∀ r ∈ rs, ∀ e ∈ log, ∀ typ, TokensFor e r.id typ → r.ts / 1000 * 1000 ≤ e.time ∧
    e.time < r.ts / 1000 * 1000 + 1000

/-- A request has one count of each token type, however often its event is kept. -/
def OneCount (log : List Event) : Prop :=
  ∀ e ∈ log, ∀ e' ∈ log, ∀ id typ, TokensFor e id typ → TokensFor e' id typ → e.tokens = e'.tokens

/-- The counts by token type are those of the request's own token events, one for each type
that has an event. -/
structure OwnCounts (log : List Event) (id : GoString) (t : GoMap Int) : Prop where
  own : ∀ typ n, t.lookup typ = some n → ∃ e ∈ log, TokensFor e id typ ∧ e.tokens = n
  all : ∀ e ∈ log, ∀ typ, TokensFor e id typ → (t.lookup typ).isSome = true

section Last

variable {log : List Event} {om : (q : Request) → Answer q} {rs : List Receipt} {id typ : GoString}

instance (e : Event) (id typ : GoString) : Decidable (TokensFor e id typ) :=
  inferInstanceAs (Decidable (e.type = tokensEvent ∧ typ ∈ tokenTypes ∧ e.id = tokenEventID id typ))

/-- The count of the event of a request and a type that is listed last. -/
def lastCount (log : List Event) (id typ : GoString) : Option Int :=
  ((log.filter (fun e => TokensFor e id typ)).getLast?).map Event.tokens

/-- Of the events that name a request and a type, the last one is noted. -/
theorem noted_each_last {out : GoMap (GoMap Int)} {found : List Event} (hfound : NamesTokens found)
    (htype : ∀ e ∈ found, e.type = tokensEvent) (htyp : typ ∈ tokenTypes) :
    noted (each noteTokens out found).1 id typ =
      (lastCount found id typ).or (noted out id typ) := by
  induction found generalizing out with
  | nil => rfl
  | cons e rest ih =>
    obtain ⟨⟨id', typ', htyp', he⟩, hrest⟩ := List.forall_mem_cons.mp hfound
    obtain ⟨htypeOf, htypes⟩ := List.forall_mem_cons.mp htype
    rw [each, noteTokens_goes, if_pos rfl, ih hrest htypes,
      noted_noteTokens (noColon_tokenTypes typ' htyp') he]
    have hfor : TokensFor e id typ ↔ id = id' ∧ typ = typ' := by
      constructor
      · rintro ⟨_, _, hid⟩
        rw [he, show tokenEventID id' typ' = id' ++ 58 :: typ' from List.append_assoc ..,
          show tokenEventID id typ = id ++ 58 :: typ from List.append_assoc ..] at hid
        obtain ⟨hid, htyp⟩ :=
          append_sep_inj (noColon_tokenTypes typ' htyp') (noColon_tokenTypes typ htyp) hid
        exact ⟨hid.symm, htyp.symm⟩
      · rintro ⟨rfl, rfl⟩
        exact ⟨htypeOf, htyp, he⟩
    rw [lastCount, lastCount, List.filter_cons]
    by_cases hsame : id = id' ∧ typ = typ'
    · rw [if_pos hsame, if_pos (decide_eq_true (hfor.mpr hsame)), List.getLast?_cons]
      cases (rest.filter (fun e => TokensFor e id typ)).getLast? <;> rfl
    · rw [if_neg hsame, if_neg (by simpa using fun h => hsame (hfor.mp h))]

/-- What a batch finds for one of its receipts is every event of the log for it. -/
theorem filter_tokensQuery {batch : List Receipt} (hsecond : InTheirSecond log batch)
    (hid : id ∈ batch.map Receipt.id) :
    (log.filter (tokensQuery batch).matches).filter (fun e => TokensFor e id typ) = log.filter
    (fun e => TokensFor e id typ) := by
  obtain ⟨r, hr, rfl⟩ := List.mem_map.mp hid
  rw [List.filter_filter]
  apply List.filter_congr
  intro e he
  rw [Bool.and_eq_left_iff_imp]
  intro hfor
  have hfor := of_decide_eq_true hfor
  obtain ⟨hsince, hbefore⟩ := hsecond r hr e he typ hfor
  exact tokensQuery_matches hr hfor.1 hfor.2.1 hfor.2.2 hsince hbefore

/-- A batch finds nothing for the ids it does not ask for. -/
theorem lastCount_tokensQuery_none {batch : List Receipt} (hbatch : batch ≠ [])
    (hid : id ∉ batch.map Receipt.id) :
    lastCount (log.filter (tokensQuery batch).matches) id typ = none := by
  rw [lastCount, Option.map_eq_none_iff, List.getLast?_eq_none_iff, List.filter_eq_nil_iff]
  intro e he hfor
  obtain ⟨_, htyp, hname⟩ := of_decide_eq_true hfor
  obtain ⟨_, r, hr, typ', htyp', hname'⟩ := tokensQuery_names hbatch (List.mem_filter.mp he).2
  rw [hname, show tokenEventID id typ = id ++ 58 :: typ from List.append_assoc ..,
    show tokenEventID r.id typ' = r.id ++ 58 :: typ' from List.append_assoc ..] at hname'
  obtain ⟨hsame, _⟩ := append_sep_inj (noColon_tokenTypes typ htyp)
    (noColon_tokenTypes typ' htyp') hname'
  apply hid
  rw [hsame]
  exact List.mem_map_of_mem hr

/-- However the receipts fall into batches, the event that the log lists last is noted. -/
theorem lookupTokens_last (hserves : ServesInOrder log om) {groups : List (List Receipt)}
    {out tokens : GoMap (GoMap Int)}
    (hgroups : ∀ batch ∈ groups, batch ≠ []) (hsecond : ∀ batch ∈ groups, InTheirSecond log batch)
    (h : answer om (lookupTokens out groups) = .ok tokens) (htyp : typ ∈ tokenTypes) :
    noted tokens id typ =
      if ∃ batch ∈ groups, id ∈ batch.map Receipt.id then (lastCount log id typ).or
        (noted out id typ) else noted out id typ := by
  induction groups generalizing out with
  | nil =>
    obtain rfl := Except.ok.inj h
    rw [if_neg (by simp)]
  | cons batch rest ih =>
    obtain ⟨hbatch, hrest⟩ := List.forall_mem_cons.mp hgroups
    obtain ⟨hbatchSecond, hrestSecond⟩ := List.forall_mem_cons.mp hsecond
    obtain ⟨mid, hmid, hread⟩ := answer_bind_ok h
    obtain rfl := answer_eachEvent_honest (hserves.honest _) hmid
    have hnames : NamesTokens (log.filter (tokensQuery batch).matches) := by
      intro e he
      obtain ⟨_, r, _, typ, htyp, hid⟩ := tokensQuery_names hbatch (List.mem_filter.mp he).2
      exact ⟨r.id, typ, htyp, hid⟩
    have htypes : ∀ e ∈ log.filter (tokensQuery batch).matches, e.type = tokensEvent :=
      fun e he => (tokensQuery_names hbatch (List.mem_filter.mp he).2).1
    rw [ih hrest hrestSecond hread, noted_each_last hnames htypes htyp]
    by_cases hid : id ∈ batch.map Receipt.id
    · have hlast : lastCount (log.filter (tokensQuery batch).matches) id typ =
          lastCount log id typ := by
        rw [lastCount, filter_tokensQuery hbatchSecond hid, lastCount]
      have hasked : ∃ batch' ∈ batch :: rest, id ∈ batch'.map Receipt.id :=
        ⟨batch, List.mem_cons_self, hid⟩
      rw [hlast, if_pos hasked]
      split_ifs
      · cases lastCount log id typ <;> rfl
      · rfl
    · rw [lastCount_tokensQuery_none hbatch hid, Option.none_or]
      simp only [List.exists_mem_cons_iff, hid, false_or]

private theorem batches_subset {fuel : Nat} {batch : List Receipt} (h : batch ∈ batches fuel rs) :
    batch ⊆ rs := by
  induction fuel generalizing rs with
  | zero => cases h
  | succ fuel ih =>
    rw [batches] at h
    split_ifs at h
    · cases h
    · rcases List.mem_cons.mp h with rfl | h
      · exact List.take_subset _ _
      · exact List.Subset.trans (ih h) (List.drop_subset _ _)

private theorem InTheirSecond.mono {rs' : List Receipt} (h : InTheirSecond log rs)
    (hsub : rs' ⊆ rs) : InTheirSecond log rs' :=
  fun r hr => h r (hsub hr)

/-- In a log that OpenMeter lists in one order, the count of a receipt is that of its last event. -/
theorem tokensOf_last (hserves : ServesInOrder log om) (hsecond : InTheirSecond log rs)
    {tokens : GoMap (GoMap Int)}
    (h : answer om (tokensOf rs) = .ok tokens) {r : Receipt} (hr : r ∈ rs)
    (htyp : typ ∈ tokenTypes) :
    noted tokens r.id typ = lastCount log r.id typ := by
  rw [lookupTokens_last hserves (fun _ hbatch => batches_ne_nil hbatch)
    (fun batch hbatch => hsecond.mono (batches_subset hbatch)) h htyp]
  obtain ⟨batch, hbatch, hmem⟩ := mem_batches (Nat.le_refl _) hr
  rw [if_pos ⟨batch, hbatch, List.mem_map_of_mem hmem⟩]
  exact Option.or_none

end Last

section Own

variable {log : List Event} {om : (q : Request) → Answer q} {rs : List Receipt} {r : Receipt}

/-- Each receipt is given the counts of its own token events. -/
theorem tokensOf_own (hserves : Serves log om) (hsecond : InTheirSecond log rs) :
    ∃ tokens, answer om (tokensOf rs) = .ok tokens ∧
    ∀ r ∈ rs, OwnCounts log r.id ((tokens.lookup r.id).getD ∅) := by
  obtain ⟨tokens, hread⟩ := lookupTokens_answers hserves (batches rs.length rs) ∅
  have hview (q : EventQuery) : ∃ found, Lists log q found ∧ (om (.events q)).Honest found := by
    obtain ⟨found, hlists, hhonest, _⟩ := hserves.events q
    exact ⟨found, hlists, hhonest⟩
  obtain ⟨hsound, hcomplete⟩ := @tokensOf_views om (fun _ => log) hview rs tokens hread
  refine ⟨tokens, hread, fun r hr => ⟨fun typ n h => ?_, fun e he typ hfor => ?_⟩⟩
  · rw [lookup_noted] at h
    obtain ⟨htyp, _, e, he, htype, hid, htokens⟩ := hsound _ _ _ h
    exact ⟨e, he, ⟨htype, htyp, hid⟩, htokens⟩
  · rw [lookup_noted]
    obtain ⟨hsince, hbefore⟩ := hsecond r hr e he typ hfor
    exact hcomplete r hr typ hfor.2.1 ⟨e, fun _ => he, hfor.1, hfor.2.2, hsince, hbefore⟩

/-- Where a request has one count of a type, its own counts are determined. -/
theorem OwnCounts.unique (hone : OneCount log) {id : GoString} {t t' : GoMap Int}
    (h : OwnCounts log id t) (h' : OwnCounts log id t') : t = t' := by
  apply Finmap.ext_lookup
  intro typ
  have hhas : ∀ {t t' : GoMap Int} {n : Int}, OwnCounts log id t → OwnCounts log id t' →
    t.lookup typ = some n →
      t'.lookup typ = some n := by
    intro t t' n h h' hlookup
    obtain ⟨e, he, hfor, rfl⟩ := h.own typ n hlookup
    obtain ⟨n', hn'⟩ := Option.isSome_iff_exists.mp (h'.all e he typ hfor)
    obtain ⟨e', he', hfor', rfl⟩ := h'.own typ n' hn'
    rw [hn', hone e' he' e he id typ hfor' hfor]
  apply Option.ext
  intro n
  exact ⟨hhas h h', hhas h' h⟩

/-- However the receipts fall into batches, each one is given the counts of its own
token events, and the same ones as on its own. -/
theorem tokensOf_as_alone (log : List Event) (om : (q : Request) → Answer q) (rs : List Receipt)
    (hserves : Serves log om ∧ OneCount log ∨ ServesInOrder log om)
    (hsecond : InTheirSecond log rs) :
    ∃ tokens, answer om (tokensOf rs) = .ok tokens ∧
    ∀ r ∈ rs, OwnCounts log r.id ((tokens.lookup r.id).getD ∅) ∧
      ∃ alone, answer om (tokensOf [r]) = .ok alone ∧
      (alone.lookup r.id).getD ∅ = (tokens.lookup r.id).getD ∅ := by
  have hall : Serves log om := hserves.elim (fun h => h.1) ServesInOrder.serves
  obtain ⟨tokens, hread, hown⟩ := tokensOf_own hall hsecond
  refine ⟨tokens, hread, fun r hr => ⟨hown r hr, ?_⟩⟩
  have hsecondAlone : InTheirSecond log [r] := hsecond.mono (by simpa using hr)
  obtain ⟨alone, hreadAlone, hownAlone⟩ := tokensOf_own hall hsecondAlone
  refine ⟨alone, hreadAlone, ?_⟩
  have hmem := List.mem_singleton_self r
  obtain ⟨_, hone⟩ | hordered := hserves
  · exact (hownAlone r hmem).unique hone (hown r hr)
  · apply Finmap.ext_lookup
    intro typ
    rw [lookup_noted, lookup_noted]
    by_cases htyp : typ ∈ tokenTypes
    · rw [tokensOf_last hordered hsecondAlone hreadAlone hmem htyp,
        tokensOf_last hordered hsecond hread hr htyp]
    · have hnone : ∀ {t : GoMap (GoMap Int)}, OwnCounts log r.id ((t.lookup r.id).getD ∅) →
          noted t r.id typ = none := by
        intro t hown
        rw [← lookup_noted]
        apply Option.eq_none_iff_forall_not_mem.mpr
        intro n hn
        obtain ⟨_, _, hfor, _⟩ := hown.own typ n hn
        exact htyp hfor.2.1
      rw [hnone (hownAlone r hmem), hnone (hown r hr)]

/-- A token event with a count of the input. -/
def inputCounted (id : GoString) (time : Nat) (n : Int) : Event where
  id := tokenEventID id "input"
  type := tokensEvent
  subject := "unknown"
  time := time
  data := GoMap.ofList [("tokens", .number n)]

/-- An id with a colon that is asked for twice gets its own count, as when asked for alone. -/
theorem one_count_alone : ∃ tokens,
    answer (openMeter [inputCounted "a:b" 5000 7])
      (tokensOf ([served "a:b" 5400, served "c" 5000, served "a:b" 5400].map receiptFrom)) =
      .ok tokens ∧
    ∀ r ∈ [served "a:b" 5400, served "c" 5000, served "a:b" 5400].map receiptFrom,
      OwnCounts [inputCounted "a:b" 5000 7] r.id ((tokens.lookup r.id).getD ∅) ∧
      ∃ alone, answer (openMeter [inputCounted "a:b" 5000 7]) (tokensOf [r]) = .ok alone ∧
        (alone.lookup r.id).getD ∅ = (tokens.lookup r.id).getD ∅ := by
  refine tokensOf_as_alone _ _ _ (.inl ⟨openMeter_serves _, fun e he e' he' _ _ _ _ => ?_⟩) fun r hr
    e he _ _ => ?_
  · rw [List.mem_singleton.mp he, List.mem_singleton.mp he']
  · have hsecond : r.ts / 1000 = 5 := by
      simp only [List.map_cons, List.map_nil, List.mem_cons, List.not_mem_nil, or_false] at hr
      obtain rfl | rfl | rfl := hr <;> rfl
    have htime : e.time = 5000 := by rw [List.mem_singleton.mp he, inputCounted]
    omega

end Own

end openmeter
