import ServingPack.Console.Paging

open golang concurrency

namespace openmeter

/-- The count that is noted for a request and a token type. -/
def noted (tokens : GoMap (GoMap Int)) (id typ : GoString) : Option Int :=
  (tokens.lookup id).bind (fun t => t.lookup typ)

/-- The number that a token event carries. -/
def Event.tokens (e : Event) : Int := intOf (e.data.lookup (lit "tokens"))

/-- A token event of a request. -/
def TokensFor (e : Event) (id typ : GoString) : Prop :=
  e.type = tokensEvent ∧ typ ∈ tokenTypes ∧ e.id = tokenEventID id typ

section CutLast

variable {sep : UInt8} {before after : GoString}

private theorem cutLast_of_not (h : sep ∉ after) : cutLast sep after = none := by
  induction after with
  | nil => rfl
  | cons c rest ih =>
    rw [List.mem_cons, not_or] at h
    rw [cutLast, ih h.2, if_neg (Ne.symm h.1)]

private theorem cutLast_append (h : sep ∉ after) :
    cutLast sep (before ++ sep :: after) = some (before, after) := by
  induction before with
  | nil =>
    rw [List.nil_append, cutLast, cutLast_of_not h, if_pos rfl]
  | cons c rest ih => rw [List.cons_append, cutLast, ih]

private theorem cutLast_tokenEventID {id typ : GoString} (h : 58 ∉ typ) :
    cutLast 58 (tokenEventID id typ) = some (id, typ) := by
  have hid : tokenEventID id typ = id ++ 58 :: typ := List.append_assoc ..
  rw [hid, cutLast_append h]

end CutLast

/-- A request without any count reads as one without this count. -/
theorem lookup_noted (tokens : GoMap (GoMap Int)) (id typ : GoString) :
    ((tokens.lookup id).getD ∅).lookup typ = noted tokens id typ := by
  unfold noted
  cases tokens.lookup id <;> rfl

/-- The token types hold no colon, so an event's id splits at its last one. -/
theorem noColon_tokenTypes : ∀ typ ∈ tokenTypes, 58 ∉ typ := by decide

section Note

variable {out : GoMap (GoMap Int)} {found : List Event} {id typ : GoString}

/-- A token event is noted under its request and its type, and no other count moves. -/
theorem noted_noteTokens {e : Event} {id' typ' : GoString} (htyp : 58 ∉ typ)
    (he : e.id = tokenEventID id typ) :
    noted (noteTokens out e).1 id' typ' = if id' = id ∧
    typ' = typ then some e.tokens else noted out id' typ' := by
  rw [noteTokens, he, cutLast_tokenEventID htyp]
  simp only [noted, GoMap.lookup_insert_eq]
  by_cases hid : id' = id
  · subst hid
    simp only [if_true, Option.bind_some, GoMap.lookup_insert_eq, true_and]
    split_ifs
    · rfl
    · cases out.lookup id' <;> rfl
  · simp only [hid, false_and, if_false]

/-- Noting never ends the walk early. -/
theorem noteTokens_goes (e : Event) : (noteTokens out e).2 = true := by
  unfold noteTokens
  split <;> rfl

/-- Token events: their IDs name a request and a token type. -/
def NamesTokens (found : List Event) : Prop :=
  ∀ e ∈ found, ∃ id, ∃ typ ∈ tokenTypes, e.id = tokenEventID id typ

/-- What is noted was noted before, or is carried by one of the events. -/
theorem noted_each {n : Int} (hfound : NamesTokens found)
    (h : noted (each noteTokens out found).1 id typ = some n) :
    noted out id typ = some n ∨ typ ∈ tokenTypes ∧ ∃ e ∈ found, e.id = tokenEventID id typ ∧
    e.tokens = n := by
  induction found generalizing out with
  | nil => exact Or.inl h
  | cons e rest ih =>
    obtain ⟨⟨id', typ', htyp', he⟩, hrest⟩ := List.forall_mem_cons.mp hfound
    rw [each, noteTokens_goes, if_pos rfl] at h
    rcases ih hrest h with hnoted | ⟨htyp, e', he', hid, htokens⟩
    · rw [noted_noteTokens (noColon_tokenTypes typ' htyp') he] at hnoted
      split_ifs at hnoted with hsame
      · obtain ⟨rfl, rfl⟩ := hsame
        exact Or.inr ⟨htyp', e, List.mem_cons_self, he, Option.some.inj hnoted⟩
      · exact Or.inl hnoted
    · exact Or.inr ⟨htyp, e', List.mem_cons_of_mem e he', hid, htokens⟩

/-- What was noted stays noted, and what one of the events carries is. -/
theorem isSome_noted_each (hfound : NamesTokens found) (htyp : 58 ∉ typ)
    (h : (noted out id typ).isSome = true ∨ ∃ e ∈ found, e.id = tokenEventID id typ) :
    (noted (each noteTokens out found).1 id typ).isSome = true := by
  induction found generalizing out with
  | nil => exact h.resolve_right fun ⟨e, he, _⟩ => List.not_mem_nil he
  | cons e rest ih =>
    obtain ⟨⟨id', typ', htyp', he⟩, hrest⟩ := List.forall_mem_cons.mp hfound
    rw [each, noteTokens_goes, if_pos rfl]
    refine ih hrest ?_
    rw [noted_noteTokens (noColon_tokenTypes typ' htyp') he]
    rcases h with hnoted | ⟨e', he', hid⟩
    · exact Or.inl (by split_ifs <;> [rfl; exact hnoted])
    · rcases List.mem_cons.mp he' with rfl | he'
      · have hsame := hid.symm.trans he
        rw [show tokenEventID id typ = id ++ 58 :: typ from List.append_assoc ..,
          show tokenEventID id' typ' = id' ++ 58 :: typ' from List.append_assoc ..] at hsame
        exact Or.inl (by rw [if_pos (append_sep_inj htyp (noColon_tokenTypes typ' htyp') hsame)]; rfl)
      · exact Or.inr ⟨e', he', hid⟩

end Note

section Batches

variable {log : List Event} {om : (q : Request) → Answer q}

/-- Every receipt is asked about in some batch. -/
theorem mem_batches {fuel : Nat} {rs : List Receipt} (hfuel : rs.length ≤ fuel) {r : Receipt}
    (hr : r ∈ rs) :
    ∃ batch ∈ batches fuel rs, r ∈ batch := by
  induction fuel generalizing rs with
  | zero =>
    obtain rfl := List.length_eq_zero_iff.mp (Nat.le_zero.mp hfuel)
    cases hr
  | succ fuel ih =>
    rw [batches, if_neg (List.ne_nil_of_mem hr)]
    rw [← List.take_append_drop tokenLookupBatch rs, List.mem_append] at hr
    rcases hr with hr | hr
    · exact ⟨_, List.mem_cons_self, hr⟩
    · have hpos : 0 < tokenLookupBatch := by decide
      have hlength := List.length_pos_of_mem hr
      rw [List.length_drop] at hlength
      have hshort : (rs.drop tokenLookupBatch).length ≤ fuel := by
        rw [List.length_drop]
        omega
      obtain ⟨batch, hbatch, hr⟩ := ih hshort hr
      exact ⟨batch, List.mem_cons_of_mem _ hbatch, hr⟩

/-- The query of a batch asks for the token events of its receipts, in their second. -/
theorem tokensQuery_matches {batch : List Receipt} {r : Receipt} (hr : r ∈ batch) {e : Event}
    {typ : GoString}
    (htype : e.type = tokensEvent) (htyp : typ ∈ tokenTypes) (hid : e.id = tokenEventID r.id typ)
    (hsince : r.ts / 1000 * 1000 ≤ e.time) (hbefore : e.time < r.ts / 1000 * 1000 + 1000) :
    (tokensQuery batch).matches e = true := by
  rw [matches_iff]
  refine ⟨fun since h => ?_, fun before h => ?_, Or.inr htype, Or.inr ?_⟩
  · exact (((List.min?_eq_some_iff).mp h).2 _ (List.mem_map_of_mem hr)).trans hsince
  · exact hbefore.trans_le
      (((List.max?_eq_some_iff).mp h).2 _
      (List.mem_map_of_mem (f := fun r => r.ts / 1000 * 1000 + 1000) hr))
  · exact List.mem_flatMap.mpr ⟨r, hr, List.mem_map.mpr ⟨typ, htyp, hid.symm⟩⟩

/-- What a batch finds names its receipts. -/
theorem tokensQuery_names {batch : List Receipt} {e : Event} (hbatch : batch ≠ [])
    (h : (tokensQuery batch).matches e = true) :
    e.type = tokensEvent ∧ ∃ r ∈ batch, ∃ typ ∈ tokenTypes, e.id = tokenEventID r.id typ := by
  obtain ⟨_, _, htype, hid⟩ := matches_iff.mp h
  have hids : (tokensQuery batch).ids ≠ [] := by
    obtain ⟨r, rest, rfl⟩ := List.exists_cons_of_ne_nil hbatch
    exact List.cons_ne_nil _ _
  obtain ⟨r, hr, hmem⟩ := List.mem_flatMap.mp (hid.resolve_left hids)
  obtain ⟨typ, htyp, heq⟩ := List.mem_map.mp hmem
  have htype' : tokensEvent ≠ [] := by decide
  exact ⟨htype.resolve_left htype', r, hr, typ, htyp, heq.symm⟩

/-- No lookup is made for an empty batch. -/
theorem batches_ne_nil {fuel : Nat} {rs batch : List Receipt} (h : batch ∈ batches fuel rs) :
    batch ≠ [] := by
  induction fuel generalizing rs with
  | zero => cases h
  | succ fuel ih =>
    rw [batches] at h
    split_ifs at h with hnil
    · cases h
    · rcases List.mem_cons.mp h with rfl | h
      · obtain ⟨r, rest, rfl⟩ := List.exists_cons_of_ne_nil hnil
        exact List.cons_ne_nil _ _
      · exact ih h

section Views

variable {view : EventQuery → List Event}
  (hview : ∀ q, ∃ found, Lists (view q) q found ∧ (om (.events q)).Honest found)
include hview

/-- The counts that are looked up for some batches are those of the token events that have landed
when each batch is queried. -/
theorem lookupTokens_views {groups : List (List Receipt)} (hgroups : ∀ batch ∈ groups, batch ≠ [])
    {out tokens : GoMap (GoMap Int)} (h : answer om (lookupTokens out groups) = .ok tokens) :
    (∀ id typ n, noted tokens id typ = some n → noted out id typ = some n ∨ typ ∈ tokenTypes ∧
      ∃ q, ∃ e ∈ view q, e.type = tokensEvent ∧ e.id = tokenEventID id typ ∧ e.tokens = n) ∧
    ∀ id typ, typ ∈ tokenTypes → (noted out id typ).isSome = true ∨
      (∃ batch ∈ groups, ∃ e ∈ view (tokensQuery batch), (tokensQuery batch).matches e = true ∧
        e.id = tokenEventID id typ) →
        (noted tokens id typ).isSome = true := by
  induction groups generalizing out with
  | nil =>
    obtain rfl := Except.ok.inj h
    refine ⟨fun _ _ _ h => Or.inl h, fun _ _ _ h => h.resolve_right ?_⟩
    exact fun ⟨_, hbatch, _⟩ => List.not_mem_nil hbatch
  | cons batch rest ih =>
    obtain ⟨hbatch, hrest⟩ := List.forall_mem_cons.mp hgroups
    obtain ⟨found, hlists, hhonest⟩ := hview (tokensQuery batch)
    have hmem (e : Event) : e ∈ found ↔
        e ∈ view (tokensQuery batch) ∧ (tokensQuery batch).matches e = true := by
      rw [hlists.perm.mem_iff, List.mem_filter]
    have hnames : NamesTokens found := by
      intro e he
      obtain ⟨_, r, _, typ, htyp, hid⟩ := tokensQuery_names hbatch ((hmem e).mp he).2
      exact ⟨r.id, typ, htyp, hid⟩
    obtain ⟨mid, hmid, hread⟩ := answer_bind_ok h
    obtain rfl := answer_eachEvent_honest hhonest hmid
    obtain ⟨hsound, hcomplete⟩ := ih hrest hread
    refine ⟨?_, ?_⟩
    · intro id typ n h
      rcases hsound id typ n h with h | h
      · refine (noted_each hnames h).imp_right fun ⟨htyp, e, he, hid, htokens⟩ => ⟨htyp, ?_⟩
        obtain ⟨hlog, hmatches⟩ := (hmem e).mp he
        exact ⟨_, e, hlog, (tokensQuery_names hbatch hmatches).1, hid, htokens⟩
      · exact Or.inr h
    · intro id typ htyp h
      refine hcomplete id typ htyp ?_
      have hnote := @isSome_noted_each out found id typ hnames (noColon_tokenTypes typ htyp)
      rcases h with h | ⟨batch', hbatch', e, he, hmatches, hid⟩
      · exact Or.inl (hnote (Or.inl h))
      · rcases List.mem_cons.mp hbatch' with rfl | hbatch'
        · exact Or.inl (hnote (Or.inr ⟨e, (hmem e).mpr ⟨he, hmatches⟩, hid⟩))
        · exact Or.inr ⟨batch', hbatch', e, he, hmatches, hid⟩

/-- The counts of some receipts are those of token events that have landed, and each of the
receipts has those of its second that have landed in every view. -/
theorem tokensOf_views {rs : List Receipt} {tokens : GoMap (GoMap Int)}
    (h : answer om (tokensOf rs) = .ok tokens) :
    (∀ id typ n, noted tokens id typ = some n → typ ∈ tokenTypes ∧
      ∃ q, ∃ e ∈ view q, e.type = tokensEvent ∧ e.id = tokenEventID id typ ∧ e.tokens = n) ∧
    ∀ r ∈ rs, ∀ typ ∈ tokenTypes, (∃ e, (∀ q, e ∈ view q) ∧ e.type = tokensEvent ∧
      e.id = tokenEventID r.id typ ∧
      r.ts / 1000 * 1000 ≤ e.time ∧ e.time < r.ts / 1000 * 1000 + 1000) →
      (noted tokens r.id typ).isSome = true := by
  obtain ⟨hsound, hcomplete⟩ := lookupTokens_views hview (fun _ hbatch => batches_ne_nil hbatch) h
  refine ⟨fun id typ n h => (hsound id typ n h).resolve_left ?_, fun r hr typ htyp h => ?_⟩
  · exact fun h => by cases h
  · obtain ⟨e, he, htype, hid, hsince, hbefore⟩ := h
    obtain ⟨batch, hbatch, hr⟩ := mem_batches (Nat.le_refl _) hr
    exact hcomplete r.id typ htyp
      (Or.inr ⟨batch, hbatch, e, he _, tokensQuery_matches hr htype htyp hid hsince hbefore, hid⟩)

end Views

section Whole

variable (hserves : Serves log om)
include hserves

/-- With OpenMeter answering, looking up tokens never fails. -/
theorem lookupTokens_answers (groups : List (List Receipt)) (out : GoMap (GoMap Int)) :
    ∃ tokens, answer om (lookupTokens out groups) = .ok tokens := by
  induction groups generalizing out with
  | nil => exact ⟨out, rfl⟩
  | cons batch rest ih =>
    obtain ⟨found, _, hhonest, hwhole⟩ := hserves.events (tokensQuery batch)
    obtain ⟨tokens, hread⟩ := ih (each noteTokens out found).1
    exact ⟨tokens, (answer_bind_of_ok (answer_eachEvent_whole noteTokens hhonest hwhole out)).trans
      hread⟩

/-- The counts of some receipts are those of the log's token events, and each of the
receipts has those of its second. -/
theorem tokensOf_spec (rs : List Receipt) : ∃ tokens, answer om (tokensOf rs) = .ok tokens ∧
    (∀ id typ n, noted tokens id typ = some n → ∃ e ∈ log, e.type = tokensEvent ∧
      e.id = tokenEventID id typ ∧ e.tokens = n) ∧
    ∀ r ∈ rs, ∀ typ ∈ tokenTypes, (∃ e ∈ log, e.type = tokensEvent ∧ e.id = tokenEventID r.id typ ∧
      r.ts / 1000 * 1000 ≤ e.time ∧ e.time < r.ts / 1000 * 1000 + 1000) →
      (noted tokens r.id typ).isSome = true := by
  obtain ⟨tokens, hread⟩ := lookupTokens_answers hserves (batches rs.length rs) ∅
  have hview (q : EventQuery) : ∃ found, Lists log q found ∧ (om (.events q)).Honest found := by
    obtain ⟨found, hlists, hhonest, _⟩ := hserves.events q
    exact ⟨found, hlists, hhonest⟩
  obtain ⟨hsound, hcomplete⟩ := @tokensOf_views om (fun _ => log) hview rs tokens hread
  refine ⟨tokens, hread, fun id typ n h => ?_, fun r hr typ htyp ⟨e, he, hevent⟩ => ?_⟩
  · obtain ⟨_, _, e, he, hevent⟩ := hsound id typ n h
    exact ⟨e, he, hevent⟩
  · exact hcomplete r hr typ htyp ⟨e, fun _ => he, hevent⟩

end Whole

end Batches

section Complete

variable {s : Server} {om : (q : Request) → Answer q} {log : List Event}

private theorem count_eq (tokens : GoMap (GoMap Int)) (id typ : GoString) :
    count ((tokens.lookup id).getD ∅) typ = (noted tokens id typ).getD 0 := by
  unfold count noted
  cases tokens.lookup id <;> rfl

/-- Completed receipts have the counts that were looked up. -/
theorem completeReceipts_counts {tokens : GoMap (GoMap Int)} {p : Pricer} {rs done : List Receipt}
    {cached cached' : Option Pricer}
    (h : ServerM.eval om (completeReceipts s tokens p rs) cached = (.ok done, cached')) :
    ∀ d ∈ done, ∃ r ∈ rs, ∃ costUSD,
    d = { withTokens r ((tokens.lookup r.id).getD ∅) with costUSD := costUSD } := by
  induction rs generalizing p cached cached' done with
  | nil =>
    obtain ⟨hdone, _⟩ := Prod.mk.inj h
    rw [← Except.ok.inj hdone]
    exact fun d hd => absurd hd List.not_mem_nil
  | cons r rest ih =>
    have hcons {tail : List Receipt} {d₀ : Receipt} {costUSD : Option Rat}
        (hd₀ : d₀ = { withTokens r ((tokens.lookup r.id).getD ∅) with costUSD := costUSD })
        (htail : ∀ d ∈ tail, ∃ r ∈ rest, ∃ costUSD,
          d = { withTokens r ((tokens.lookup r.id).getD ∅) with costUSD := costUSD }) :
        ∀ d ∈ d₀ :: tail, ∃ r' ∈ r :: rest, ∃ costUSD,
          d = { withTokens r' ((tokens.lookup r'.id).getD ∅) with costUSD := costUSD } := by
      intro d hd
      rcases List.mem_cons.mp hd with rfl | hd
      · exact ⟨r, List.mem_cons_self, costUSD, hd₀⟩
      · obtain ⟨r', hr', hd⟩ := htail d hd
        exact ⟨r', List.mem_cons_of_mem r hr', hd⟩
    unfold completeReceipts at h
    split_ifs at h with hallowed
    · obtain ⟨⟨costUSD, p'⟩, _, _, h⟩ := ServerM.eval_bind_ok h
      obtain ⟨tail, _, htail, hpure⟩ := ServerM.eval_bind_ok h
      obtain ⟨hdone, _⟩ := Prod.mk.inj hpure
      rw [← Except.ok.inj hdone]
      exact hcons rfl (ih htail)
    · obtain ⟨tail, _, htail, hpure⟩ := ServerM.eval_bind_ok h
      obtain ⟨hdone, _⟩ := Prod.mk.inj hpure
      rw [← Except.ok.inj hdone]
      exact hcons rfl (ih htail)

/-- Completed receipts have the counts of the log's token events. -/
theorem complete_counts (hserves : Serves log om) {rs done : List Receipt}
    {cached cached' : Option Pricer}
    (h : ServerM.eval om (complete s rs) cached = (.ok done, cached'))
    {amount : GoString → GoString → Int} (hsound : ∀ e ∈ log, e.type = tokensEvent →
      ∀ id, ∀ typ ∈ tokenTypes, e.id = tokenEventID id typ → e.tokens = amount id typ)
    (hthere : ∀ r ∈ rs, ∀ typ ∈ tokenTypes, amount r.id typ = 0 ∨ ∃ e ∈ log, e.type = tokensEvent ∧
      e.id = tokenEventID r.id typ ∧ r.ts / 1000 * 1000 ≤ e.time ∧
      e.time < r.ts / 1000 * 1000 + 1000) :
    ∀ d ∈ done, d.inputTokens =
      amount d.id "input" + amount d.id "cache_read" + amount d.id "cache_write" ∧
      d.cachedInputTokens = amount d.id "cache_read" ∧
      d.cacheWriteTokens = amount d.id "cache_write" ∧
      d.outputTokens = amount d.id "output" ∧ d.reasoningTokens = amount d.id "reasoning" := by
  obtain ⟨tokens, hread, hnoted, hwhole⟩ := tokensOf_spec hserves rs
  obtain ⟨tokens', _, htokens, h⟩ := ServerM.eval_bind_ok h
  obtain ⟨_, _, _, h⟩ := ServerM.eval_bind_ok h
  rw [ServerM.eval_lift] at htokens
  obtain rfl : tokens' = tokens := Except.ok.inj ((Prod.mk.inj htokens).1.symm.trans hread)
  intro d hd
  obtain ⟨r, hr, costUSD, rfl⟩ := completeReceipts_counts h d hd
  have hcount : ∀ typ ∈ tokenTypes, count ((tokens'.lookup r.id).getD ∅) typ = amount r.id typ := by
    intro typ htyp
    rw [count_eq]
    cases hfound : noted tokens' r.id typ with
    | some n =>
      obtain ⟨e, he, htype, hid, rfl⟩ := hnoted r.id typ n hfound
      exact hsound e he htype r.id typ htyp hid
    | none =>
      refine ((hthere r hr typ htyp).resolve_right fun hevent => ?_).symm
      have hsome := hwhole r hr typ htyp hevent
      rw [hfound] at hsome
      cases hsome
  have hinput := hcount "input" (by decide)
  have hread := hcount "cache_read" (by decide)
  have hwrite := hcount "cache_write" (by decide)
  refine ⟨?_, hread, hwrite, hcount "output" (by decide), hcount "reasoning" (by decide)⟩
  change count _ _ + count _ _ + count _ _ = _
  rw [hinput, hread, hwrite]
  rfl

end Complete

end openmeter
