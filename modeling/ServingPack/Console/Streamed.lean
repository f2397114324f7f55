import ServingPack.Console.Hub

open golang

namespace openmeter

namespace Streamed

variable (marshal : Receipt → GoString)

/-- The changes of one read after the other, and what is remembered after them. -/
def updates : Streamed → List (List Receipt) → List (List StreamChange) × Streamed
  | s, [] => ([], s)
  | s, rs :: rest => ((s.update marshal rs).1 :: (updates (s.update marshal rs).2 rest).1,
      (updates (s.update marshal rs).2 rest).2)

/-- What a stream shows that puts each change's receipt in place of the one with its ID. -/
def replay (m : GoMap Receipt) (changes : List StreamChange) : GoMap Receipt :=
  changes.foldl (fun m c => m.insert c.id c.receipt) m

/-- `json.Marshal` encodes some receipts, and different ones differently. -/
structure TellsApart (rs : List Receipt) : Prop where
  encoded : ∀ r ∈ rs, marshal r ≠ []
  injective : ∀ r ∈ rs, ∀ r' ∈ rs, marshal r = marshal r' → r = r'

section Update

variable {marshal}

/-- The change that sends a receipt. -/
def change (marshal : Receipt → GoString) (r : Receipt) : StreamChange :=
  { id := r.id, data := marshal r, receipt := r }

private theorem foldl_update (sent : GoMap GoString) (rs : List Receipt) (out : List StreamChange)
    (next : GoMap GoString) :
    rs.foldl (fun (out, next) r =>
      (if (sent.lookup r.id).getD [] ≠ marshal r then out ++
        [{ id := r.id, data := marshal r, receipt := r }] else out,
        next.insert r.id (marshal r))) (out, next) =
      (out ++ (rs.filter (fun r => (sent.lookup r.id).getD [] ≠ marshal r)).map (change marshal),
        (rs.map (fun r => (r.id, marshal r))).foldl (fun m e => m.insert e.1 e.2) next) := by
  induction rs generalizing out next with
  | nil => simp
  | cons r rest ih =>
    rw [List.foldl_cons, ih, List.map_cons, List.foldl_cons, List.filter_cons]
    by_cases hsent : (sent.lookup r.id).getD [] ≠ marshal r
    · rw [if_pos hsent, if_pos (decide_eq_true hsent), List.map_cons, List.append_assoc]
      rfl
    · rw [if_neg hsent, if_neg (by simpa using hsent)]

private theorem update_changes (s : Streamed) (rs : List Receipt) : (s.update marshal rs).1 =
    (rs.reverse.filter (fun r => (s.sent.lookup r.id).getD [] ≠ marshal r)).map (change marshal) := by
  unfold update
  simp only
  rw [foldl_update]
  rfl

private theorem update_sent (s : Streamed) (rs : List Receipt) :
    (s.update marshal rs).2.sent = GoMap.ofList (rs.reverse.map (fun r => (r.id, marshal r))) := by
  unfold update
  simp only
  rw [foldl_update]
  rfl

end Update

/-- The receipts of a read are what is remembered. -/
def Remembers (s : Streamed) (rs : List Receipt) : Prop :=
  ∀ id data, s.sent.lookup id = some data ↔ ∃ r ∈ rs, r.id = id ∧ data = marshal r

section Remembers

variable {marshal} {s : Streamed} {previous latest : List Receipt}

private theorem update_remembers (s : Streamed) (hids : (latest.map Receipt.id).Nodup) :
    Remembers marshal (s.update marshal latest).2 latest := by
  intro id data
  have hnodup : ((latest.reverse.map (fun r => (r.id, marshal r))).map Prod.fst).Nodup := by
    rw [List.map_map, List.map_reverse]
    exact List.nodup_reverse.mpr hids
  rw [update_sent, GoMap.lookup_ofList hnodup]
  simp only [List.mem_map, List.mem_reverse, Prod.mk.injEq]
  constructor
  · rintro ⟨r, hr, rfl, rfl⟩
    exact ⟨r, hr, rfl, rfl⟩
  · rintro ⟨r, hr, rfl, rfl⟩
    exact ⟨r, hr, rfl, rfl⟩

/-- A receipt is sent if the read before did not have it as it is. -/
theorem update_sends (hsent : Remembers marshal s previous)
    (hmarshal : TellsApart marshal (previous ++ latest)) :
    (s.update marshal latest).1 = (latest.reverse.filter (fun r => r ∉ previous)).map
    (change marshal) := by
  rw [update_changes]
  refine congrArg (List.map (change marshal)) (List.filter_congr fun r hr => ?_)
  have hmem : r ∈ previous ++ latest := List.mem_append_right _ (List.mem_reverse.mp hr)
  rw [decide_eq_decide, not_iff_not]
  constructor
  · intro heq
    cases hlookup : s.sent.lookup r.id with
    | none =>
      rw [hlookup] at heq
      exact absurd heq.symm (hmarshal.encoded r hmem)
    | some data =>
      rw [hlookup] at heq
      obtain ⟨r', hr', _, hdata⟩ := (hsent _ _).mp hlookup
      have hsame : r = r' :=
        hmarshal.injective r hmem r' (List.mem_append_left _ hr') (heq.symm.trans hdata)
      rwa [hsame]
  · intro hold
    rw [(hsent r.id (marshal r)).mpr ⟨r, hold, rfl, rfl⟩]
    rfl

/-- What a stream shows after a read has every receipt of the read, if it had every one of the
read before. -/
theorem replay_update {m : GoMap Receipt} (hsent : Remembers marshal s previous)
    (hmarshal : TellsApart marshal (previous ++ latest)) (hids : (latest.map Receipt.id).Nodup)
    (hshows : ∀ r ∈ previous, m.lookup r.id = some r) :
    ∀ r ∈ latest, (replay m (s.update marshal latest).1).lookup r.id = some r := by
  intro r hr
  rw [update_sends hsent hmarshal]
  have hreplay : replay m ((latest.reverse.filter (fun r => r ∉ previous)).map (change marshal)) =
      ((latest.reverse.filter (fun r => r ∉ previous)).map (fun r => (r.id, r))).foldl
        (fun m e => m.insert e.1 e.2) m := by
    rw [replay, List.foldl_map, List.foldl_map]
    rfl
  have hnodup : ((latest.reverse.filter (fun r => r ∉ previous)).map Receipt.id).Nodup := by
    refine List.Nodup.sublist (List.filter_sublist.map _) ?_
    rw [List.map_reverse]
    exact List.nodup_reverse.mpr hids
  rw [hreplay, GoMap.lookup_foldl_insert (by rw [List.map_map]; exact hnodup)]
  by_cases hold : r ∈ previous
  · refine .inr ⟨fun hkey => ?_, hshows r hold⟩
    rw [List.map_map] at hkey
    obtain ⟨r', hr', hid⟩ := List.mem_map.mp hkey
    rw [List.mem_filter, List.mem_reverse, decide_eq_true_eq] at hr'
    have hsame : r' = r := List.inj_on_of_nodup_map hids hr'.1 hr hid
    exact hr'.2 (hsame ▸ hold)
  · refine .inl (List.mem_map.mpr ⟨r, ?_, rfl⟩)
    rw [List.mem_filter, List.mem_reverse, decide_eq_true_eq]
    exact ⟨hr, hold⟩

end Remembers

section Updates

variable {marshal}

private theorem updates_append (s : Streamed) (before : List (List Receipt))
    (latest : List Receipt) :
    updates marshal s (before ++ [latest]) =
      ((updates marshal s before).1 ++ [((updates marshal s before).2.update marshal latest).1],
        ((updates marshal s before).2.update marshal latest).2) := by
  induction before generalizing s with
  | nil => rfl
  | cons rs rest ih =>
    rw [List.cons_append, updates, ih]
    rfl

private theorem TellsApart.mono {rs rs' : List Receipt} (h : TellsApart marshal rs')
    (hsubset : rs ⊆ rs') : TellsApart marshal rs where
  encoded r hr := h.encoded r (hsubset hr)
  injective r hr r' hr' := h.injective r (hsubset hr) r' (hsubset hr')

private theorem replay_append (m : GoMap Receipt) (first second : List StreamChange) :
    replay m (first ++ second) = replay (replay m first) second := List.foldl_append ..

/-- The latest of some reads, if there is one. -/
def latestOf (reads : List (List Receipt)) : List Receipt := reads.getLast?.getD []

private theorem latestOf_append_subset (before : List (List Receipt)) (latest : List Receipt) :
    latestOf before ++ latest ⊆ (before ++ [latest]).flatten := by
  intro r hr
  rw [List.flatten_append, List.flatten_singleton]
  rcases List.mem_append.mp hr with hr | hr
  · refine List.mem_append_left _ ?_
    cases hlast : before.getLast? with
    | none => simp [latestOf, hlast] at hr
    | some rs =>
      rw [latestOf, hlast] at hr
      exact List.mem_flatten.mpr ⟨rs, List.mem_of_getLast? hlast, hr⟩
  · exact List.mem_append_right _ hr

/-- After any reads the latest is what is remembered, and what a stream shows has its receipts. -/
theorem updates_latest (reads : List (List Receipt))
    (hids : ∀ rs ∈ reads, (rs.map Receipt.id).Nodup) (hmarshal : TellsApart marshal reads.flatten) :
    Remembers marshal (updates marshal {} reads).2 (latestOf reads) ∧
      ∀ r ∈ latestOf reads, (replay ∅ (updates marshal {} reads).1.flatten).lookup r.id =
        some r := by
  induction reads using List.reverseRecOn with
  | nil => exact ⟨fun id data => by simp [updates, latestOf], fun r hr => absurd hr List.not_mem_nil⟩
  | append_singleton before latest ih =>
    have hlatest : latestOf (before ++ [latest]) = latest := by
      rw [latestOf, List.getLast?_concat]; rfl
    have hbefore : before.flatten ⊆ (before ++ [latest]).flatten := by
      rw [List.flatten_append]
      exact List.subset_append_left _ _
    obtain ⟨hsent, hshows⟩ :=
      ih (fun rs hrs => hids rs (List.mem_append_left _ hrs)) (hmarshal.mono hbefore)
    have hdistinct : (latest.map Receipt.id).Nodup :=
      hids latest (List.mem_append_right _ List.mem_cons_self)
    rw [updates_append, hlatest]
    refine ⟨update_remembers _ hdistinct, ?_⟩
    rw [List.flatten_append, List.flatten_singleton, replay_append]
    exact replay_update hsent
      (hmarshal.mono (latestOf_append_subset before latest)) hdistinct hshows

end Updates

/-- After any reads, what a stream shows that is sent every change has the latest read's
receipts; the last changes are the receipts that the read before lacked or had otherwise,
oldest first; and the IDs of the latest read are what is remembered. -/
theorem replay_latest (marshal : Receipt → GoString) (before : List (List Receipt))
    (latest : List Receipt) (hids : ∀ rs ∈ before ++ [latest], (rs.map Receipt.id).Nodup)
    (hmarshal : TellsApart marshal (before ++ [latest]).flatten) :
    (∀ r ∈ latest, (replay ∅ (updates marshal {} (before ++ [latest])).1.flatten).lookup r.id =
      some r) ∧
    (∃ changes, (updates marshal {} (before ++ [latest])).1 = (updates marshal {} before).1 ++
      [changes] ∧
      changes = (latest.reverse.filter (fun r => r ∉ latestOf before)).map (change marshal)) ∧
    ∀ id, id ∈ (updates marshal {} (before ++ [latest])).2.sent ↔ ∃ r ∈ latest, r.id = id := by
  have hlatest : latestOf (before ++ [latest]) = latest := by
    rw [latestOf, List.getLast?_concat]
    rfl
  obtain ⟨hsent, hshows⟩ := updates_latest (before ++ [latest]) hids hmarshal
  rw [hlatest] at hsent hshows
  refine ⟨hshows, ⟨_, by rw [updates_append], ?_⟩, fun id => ?_⟩
  · have hbefore : before.flatten ⊆ (before ++ [latest]).flatten := by
      rw [List.flatten_append]
      exact List.subset_append_left _ _
    have hprevious := (updates_latest before (fun rs hrs => hids rs (List.mem_append_left _ hrs))
      (hmarshal.mono hbefore)).1
    exact update_sends hprevious (hmarshal.mono (latestOf_append_subset before latest))
  · rw [← Finmap.lookup_isSome, Option.isSome_iff_exists]
    constructor
    · rintro ⟨data, hdata⟩
      obtain ⟨r, hr, hid, _⟩ := (hsent id data).mp hdata
      exact ⟨r, hr, hid⟩
    · rintro ⟨r, hr, hid⟩
      exact ⟨marshal r, (hsent id _).mpr ⟨r, hr, hid, rfl⟩⟩

/-- A field of a JSON object and what follows it. -/
def jsonField (name value : GoString) : GoString :=
  ("\"" : GoString) ++ name ++ ("\":" : GoString) ++ value

/-- A JSON text of characters that are not escaped. -/
def jsonText (s : GoString) : GoString := ("\"" : GoString) ++ s ++ ("\"" : GoString)

/-- The JSON of a receipt of an allowed request without a cost, whose texts need no escapes. -/
def receiptJSON (r : Receipt) : GoString :=
  ("\x7b" : GoString) ++ List.intercalate "," [
    jsonField "id" (jsonText r.id), jsonField "traceId" (jsonText r.traceID),
      jsonField "ts" (itoa r.ts),
    jsonField "durationMs" (itoaInt r.durationMS), jsonField "keyId" (jsonText r.keyID),
    jsonField "keyName" (jsonText r.keyName), jsonField "team" (jsonText r.team),
      jsonField "project" (jsonText r.project),
    jsonField "projectId" (jsonText r.projectID),
      jsonField "requestedModel" (jsonText r.requestedModel),
    jsonField "resolvedModel" (jsonText r.resolvedModel), jsonField "backend" (jsonText r.backend),
    jsonField "inputTokens" (itoaInt r.inputTokens),
      jsonField "cachedInputTokens" (itoaInt r.cachedInputTokens),
    jsonField "outputTokens" (itoaInt r.outputTokens),
      jsonField "reasoningTokens" (itoaInt r.reasoningTokens),
    jsonField "cacheWriteTokens" (itoaInt r.cacheWriteTokens), jsonField "costUsd" "null",
    jsonField "verdict" (jsonText r.verdict.text), jsonField "status" (itoaInt r.status)] ++
      ("\x7d" : GoString)

/-- The receipt of a request of the research team. -/
def researchReceipt (id : GoString) (time : Nat) : Receipt :=
  receiptFrom {
    id := id
    type := requestEvent
    subject := "k-1"
    time := time
    data := GoMap.ofList [("team", .text "research"), ("api_key", .text "k-1"),
      ("response_code", .text "200")] }

/-- A receipt before its tokens are in. -/
def unsettled : Receipt := researchReceipt "first" 1000

def settled : Receipt := { unsettled with inputTokens := 10 }

def newer : Receipt := researchReceipt "second" 2000

example : receiptJSON newer =
    lit ("\x7b\"id\":\"second\",\"traceId\":\"second\",\"ts\":2000,\"durationMs\":0," ++
    "\"keyId\":\"k-1\",\"keyName\":\"k-1\",\"team\":\"research\",\"project\":\"\",\"projectId\":\"research/\"," ++
    "\"requestedModel\":\"\",\"resolvedModel\":\"\",\"backend\":\"\",\"inputTokens\":0,\"cachedInputTokens\":0," ++
    "\"outputTokens\":0,\"reasoningTokens\":0,\"cacheWriteTokens\":0,\"costUsd\":null,\"verdict\":\"allowed\"," ++
    "\"status\":200\x7d") := by
  decide +kernel

/-- A request is read again with its tokens and a newer one, and a stream shows both as they are. -/
theorem changed_replayed :
    let shown := replay ∅ (updates receiptJSON {} ([[unsettled]] ++ [[newer, settled]])).1.flatten
    shown.lookup (lit "second") = some newer ∧ shown.lookup (lit "first") = some settled := by
  have hreplay := replay_latest receiptJSON [[unsettled]] [newer, settled] (by decide +kernel)
    ⟨by decide +kernel, by decide +kernel⟩
  exact ⟨hreplay.1 newer List.mem_cons_self,
    hreplay.1 settled (List.mem_cons_of_mem _ List.mem_cons_self)⟩

end Streamed

end openmeter
