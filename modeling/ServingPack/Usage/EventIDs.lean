import ServingPack.Usage.Attribution

open golang reconcilers

namespace collector

variable {N : Type} [Zero N] [Sub N] [LinearOrder N] {b : Bloblang N} {cfg : Config} {r r' : Record}

def requestID (r : Record) : GoString := (r.val "request_id").getD []

/-- The record passes the first step: its caller and its ID are known and it was
not rejected. -/
def LetThrough (cfg : Config) (r : Record) : Prop :=
  ∃ path, accessPath cfg r = some path ∧ caller r path ≠ [] ∧ requestID r ≠ [] ∧ rejected r = false

/-- The record has a count of this token type; the input count is what was not cached. -/
def Counts (b : Bloblang N) (r : Record) (tokenType : GoString) : Prop :=
  (tokenType = "cache_read" ∧ ∃ n, number b r "cached_input_tokens" = some n ∧ 0 < n) ∨
  (tokenType = "cache_write" ∧ ∃ n, number b r "cache_creation_input_tokens" = some n ∧ 0 < n) ∨
  (tokenType = "input" ∧ ∃ n, number b r "input_tokens" = some n ∧
    0 < n - (number b r "cached_input_tokens").getD 0 -
      (number b r "cache_creation_input_tokens").getD 0) ∨
  (tokenType = "output" ∧ ∃ n, number b r "output_tokens" = some n ∧ 0 < n)

/-- The ID of one request is that of another one's count. -/
def NamesCount (b : Bloblang N) (cfg : Config) (r r' : Record) : Prop :=
  LetThrough cfg r ∧ LetThrough cfg r' ∧ ∃ tokenType, Counts b r' tokenType ∧
    requestID r = tokenEventID (requestID r') tokenType

def eventIDs (b : Bloblang N) (cfg : Config) (lookup : GoString → OwnerAnswer) (r : Record) :
    List GoString :=
  (collect b cfg lookup r).map (·.id)

section Counted

omit [Sub N] in
private theorem pos_getD {count : Option N} : 0 < count.getD 0 ↔ ∃ n, count = some n ∧ 0 < n := by
  cases count with
  | none => simp
  | some n => simp

omit [Sub N] in
private theorem pos_input {count : Option N} (f : N → N) :
    0 < (count.map (fun n => max (f n) 0)).getD 0 ↔ ∃ n, count = some n ∧ 0 < f n := by
  cases count with
  | none => simp
  | some n => simp

omit [Sub N] [LinearOrder N] in
/-- A record is let through where it normalizes. -/
theorem letThrough_iff : LetThrough cfg r ↔ ∃ entry, normalize b cfg r = some entry := by
  constructor
  · rintro ⟨path, hpath, hcaller, hid, hrejected⟩
    unfold normalize
    rw [hpath]
    refine ⟨_, if_neg ?_⟩
    rintro (hdrop | hdrop | hdrop)
    · exact hcaller hdrop
    · exact hid hdrop
    · exact absurd hdrop (Bool.eq_false_iff.mp hrejected)
  · rintro ⟨entry, hentry⟩
    obtain ⟨path, hpath, hcaller, hid, hrejected, _⟩ := normalize_eq hentry
    exact ⟨path, hpath, hcaller, hid, hrejected⟩

omit [Sub N] [LinearOrder N] in
/-- The counts of an entry are the record's. -/
theorem normalize_counts {entry : Entry N} (h : normalize b cfg r = some entry) :
    entry.inputTokens = number b r "input_tokens" ∧
    entry.cacheRead = (number b r "cached_input_tokens").getD 0 ∧
    entry.cacheWrite = (number b r "cache_creation_input_tokens").getD 0 ∧
    entry.outputTokens = number b r "output_tokens" := by
  unfold normalize at h
  split at h
  · cases h
  · next path hpath =>
    by_cases hdrop : caller r path = [] ∨ (r.val "request_id").getD [] = [] ∨ rejected r
    · rw [if_pos hdrop] at h
      cases h
    · rw [if_neg hdrop] at h
      obtain rfl := Option.some.inj h
      exact ⟨rfl, rfl, rfl, rfl⟩

private theorem mem_counted {entry : Entry N} (h : normalize b cfg r = some entry)
    {tokenType : GoString} :
    (∃ count, (tokenType, count) ∈ counted entry) ↔ Counts b r tokenType := by
  obtain ⟨hinput, hread, hwrite, houtput⟩ := normalize_counts h
  simp only [counted, tokens, List.mem_filter, List.mem_cons, List.not_mem_nil, or_false,
    Prod.mk.injEq, decide_eq_true_eq, hinput, hread, hwrite, houtput, Counts, ← pos_getD,
    ← pos_input]
  constructor
  · rintro ⟨_, ⟨rfl, rfl⟩ | ⟨rfl, rfl⟩ | ⟨rfl, rfl⟩ | ⟨rfl, rfl⟩, hpos⟩
    · exact .inl ⟨rfl, hpos⟩
    · exact .inr (.inl ⟨rfl, hpos⟩)
    · exact .inr (.inr (.inl ⟨rfl, hpos⟩))
    · exact .inr (.inr (.inr ⟨rfl, hpos⟩))
  · rintro (⟨rfl, hpos⟩ | ⟨rfl, hpos⟩ | ⟨rfl, hpos⟩ | ⟨rfl, hpos⟩)
    · exact ⟨_, .inl ⟨rfl, rfl⟩, hpos⟩
    · exact ⟨_, .inr (.inl ⟨rfl, rfl⟩), hpos⟩
    · exact ⟨_, .inr (.inr (.inl ⟨rfl, rfl⟩)), hpos⟩
    · exact ⟨_, .inr (.inr (.inr ⟨rfl, rfl⟩)), hpos⟩

/-- No token type holds a colon. -/
theorem Counts.noColon {tokenType : GoString} (h : Counts b r tokenType) : 58 ∉ tokenType := by
  rcases h with ⟨rfl, _⟩ | ⟨rfl, _⟩ | ⟨rfl, _⟩ | ⟨rfl, _⟩ <;> decide

private theorem counted_identify (lookup : GoString → OwnerAnswer) (entry : Entry N) :
    counted (identify lookup entry) = counted entry := by
  unfold identify
  split
  · rfl
  · split <;> rfl

private theorem counted_nodup (entry : Entry N) : ((counted entry).map Prod.fst).Nodup := by
  refine List.Nodup.sublist (List.Sublist.map _ List.filter_sublist) ?_
  change [lit "cache_read", lit "cache_write", lit "input", lit "output"].Nodup
  decide

end Counted

section IDs

variable {lookup lookup' : GoString → OwnerAnswer}

private theorem tokenEventID_eq (id tokenType : GoString) :
    tokenEventID id tokenType = id ++ 58 :: tokenType :=
  List.append_assoc ..

/-- Token types without a colon make the ID split one way only. -/
theorem tokenEventID_inj {id id' type type' : GoString} (htype : 58 ∉ type) (htype' : 58 ∉ type')
    (h : tokenEventID id type = tokenEventID id' type') : id = id' ∧ type = type' := by
  rw [tokenEventID_eq, tokenEventID_eq] at h
  exact append_sep_inj htype htype' h

private theorem tokenEventID_length (id tokenType : GoString) :
    id.length < (tokenEventID id tokenType).length := by
  rw [tokenEventID_eq, List.length_append, List.length_cons]
  omega

/-- Requests with IDs of one length never share an ID. -/
theorem NamesCount.length_lt (h : NamesCount b cfg r r') :
    (requestID r').length < (requestID r).length := by
  obtain ⟨_, _, tokenType, _, heq⟩ := h
  rw [heq]
  exact tokenEventID_length _ _

private theorem eventIDs_some {entry : Entry N} (h : normalize b cfg r = some entry) :
    eventIDs b cfg lookup r = requestID r :: (counted entry).map
      (fun token => tokenEventID (requestID r) token.1) := by
  obtain ⟨_, _, _, _, _, _, hid, _⟩ := normalize_eq h
  have hsame : (identify lookup entry).requestID = entry.requestID := by
    unfold identify
    split
    · rfl
    · split <;> rfl
  unfold eventIDs collect
  rw [h]
  simp only [events, List.map_cons, List.map_map, counted_identify, requestEvent, Function.comp_def,
    tokenEvent, hsame]
  rw [hid]
  rfl

/-- An event's ID: the request's own, or that of one of its counts. -/
theorem mem_eventIDs {id : GoString} : id ∈ eventIDs b cfg lookup r ↔ LetThrough cfg r ∧
    (id = requestID r ∨ ∃ tokenType, Counts b r tokenType ∧
      id = tokenEventID (requestID r) tokenType) := by
  cases hentry : normalize b cfg r with
  | none =>
    have hnot : ¬LetThrough cfg r := by
      rw [letThrough_iff (b := b), hentry]
      rintro ⟨_, h⟩
      cases h
    simp [eventIDs, collect, hentry, hnot]
  | some entry =>
    rw [eventIDs_some hentry, List.mem_cons, List.mem_map,
      and_iff_right (letThrough_iff.mpr ⟨entry, hentry⟩)]
    refine or_congr_right ⟨?_, ?_⟩
    · rintro ⟨⟨tokenType, count⟩, hmem, rfl⟩
      exact ⟨tokenType, (mem_counted hentry).mp ⟨count, hmem⟩, rfl⟩
    · rintro ⟨tokenType, hcounts, rfl⟩
      obtain ⟨count, hmem⟩ := (mem_counted hentry).mpr hcounts
      exact ⟨(tokenType, count), hmem, rfl⟩

/-- The events of one record have different IDs. -/
theorem eventIDs_nodup : (eventIDs b cfg lookup r).Nodup := by
  cases hentry : normalize b cfg r with
  | none => simp [eventIDs, collect, hentry]
  | some entry =>
    rw [eventIDs_some hentry, List.nodup_cons]
    constructor
    · intro hmem
      obtain ⟨token, _, heq⟩ := List.mem_map.mp hmem
      exact absurd (congrArg List.length heq) (tokenEventID_length _ _).ne'
    · have hmap : (counted entry).map (fun token => tokenEventID (requestID r) token.1) =
          ((counted entry).map Prod.fst).map (tokenEventID (requestID r)) := (List.map_map ..).symm
      rw [hmap]
      refine (counted_nodup entry).map_on ?_
      intro type htype type' htype' heq
      have noColon : ∀ t ∈ (counted entry).map Prod.fst, 58 ∉ t := by
        intro t ht
        obtain ⟨⟨_, count⟩, hmem, rfl⟩ := List.mem_map.mp ht
        exact ((mem_counted hentry).mp ⟨count, hmem⟩).noColon
      exact (tokenEventID_inj (noColon type htype) (noColon type' htype') heq).2

/-- The events of two requests have different IDs, except where one request's ID
is the other's followed by a colon and a token type it has a count of. -/
theorem event_ids_distinct_iff (b : Bloblang N) (cfg : Config)
    (lookup lookup' : GoString → OwnerAnswer)
    {r r' : Record} (hdistinct : requestID r ≠ requestID r') :
    ((eventIDs b cfg lookup r).Disjoint (eventIDs b cfg lookup' r') ∧
      (eventIDs b cfg lookup r).Nodup ∧
      (eventIDs b cfg lookup' r').Nodup) ↔ ¬NamesCount b cfg r r' ∧ ¬NamesCount b cfg r' r := by
  rw [and_iff_left ⟨eventIDs_nodup, eventIDs_nodup⟩]
  constructor
  · intro hdisjoint
    constructor
    · rintro ⟨hthrough, hthrough', tokenType, hcounts, heq⟩
      exact hdisjoint (mem_eventIDs.mpr ⟨hthrough, .inl rfl⟩)
        (mem_eventIDs.mpr ⟨hthrough', .inr ⟨tokenType, hcounts, heq⟩⟩)
    · rintro ⟨hthrough', hthrough, tokenType, hcounts, heq⟩
      exact hdisjoint (mem_eventIDs.mpr ⟨hthrough, .inr ⟨tokenType, hcounts, heq⟩⟩)
        (mem_eventIDs.mpr ⟨hthrough', .inl rfl⟩)
  · rintro ⟨hnot, hnot'⟩ id hmem hmem'
    obtain ⟨hthrough, hid⟩ := mem_eventIDs.mp hmem
    obtain ⟨hthrough', hid'⟩ := mem_eventIDs.mp hmem'
    rcases hid with rfl | ⟨tokenType, hcounts, rfl⟩
    · rcases hid' with heq | ⟨tokenType', hcounts', heq⟩
      · exact hdistinct heq
      · exact hnot ⟨hthrough, hthrough', tokenType', hcounts', heq⟩
    · rcases hid' with heq | ⟨tokenType', hcounts', heq⟩
      · exact hnot' ⟨hthrough', hthrough, tokenType, hcounts, heq.symm⟩
      · exact hdistinct (tokenEventID_inj hcounts.noColon hcounts'.noColon heq).1

end IDs

section Samples

def chatRecord (id : GoString) : Record :=
  accessed "httproute/llm-system/chat-external/rule/0/match/0/llm_example_com" id
    [("client_id", "user-alice-1"), ("response_code", "200"), ("input_tokens", "4")]

/-- Two requests whose IDs have nothing to do with each other. -/
theorem chat_events_distinct :
    (eventIDs plainTexts llmSystem (fun _ => .unknown) (chatRecord "lb:7f3a")).Disjoint
      (eventIDs plainTexts llmSystem (fun _ => .unknown) (chatRecord "lb:7f3b")) ∧
    (eventIDs plainTexts llmSystem (fun _ => .unknown) (chatRecord "lb:7f3a")).Nodup ∧
    (eventIDs plainTexts llmSystem (fun _ => .unknown) (chatRecord "lb:7f3b")).Nodup := by
  have hids : requestID (chatRecord "lb:7f3a") = "lb:7f3a" := by decide
  have hids' : requestID (chatRecord "lb:7f3b") = "lb:7f3b" := by decide
  refine (event_ids_distinct_iff plainTexts llmSystem _ _ (by rw [hids, hids']; decide)).mpr
    ⟨?_, ?_⟩
  · intro h
    have hlength := h.length_lt
    rw [hids, hids'] at hlength
    exact absurd hlength (by decide)
  · intro h
    have hlength := h.length_lt
    rw [hids, hids'] at hlength
    exact absurd hlength (by decide)

/-- The request "lb:input" and the input count of the request "lb" share an ID. -/
theorem chat_events_collide : requestID (chatRecord "lb:input") ≠ requestID (chatRecord "lb") ∧
    lit "lb:input" ∈ eventIDs plainTexts llmSystem (fun _ => .unknown) (chatRecord "lb:input") ∧
    lit "lb:input" ∈ eventIDs plainTexts llmSystem (fun _ => .unknown) (chatRecord "lb") := by
  decide

end Samples

end collector
