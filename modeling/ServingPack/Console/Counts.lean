import ServingPack.Console.Paging
import ServingPack.Lib.Grouping

open golang concurrency

namespace openmeter

/-- The `llm_requests` meter counts the request events by the fields that are named. -/
def CountsRequests (log : List Event) (om : (q : Request) → Answer q) : Prop :=
  ∀ start stop names, ∃ rows, om (.meter "llm_requests" start stop none names) = .ok rows ∧
    Groups (requestsIn log start stop) (fun e => names.map e.field) (fun _ => 1) rows
      (fun r => names.map r.field) MeterRow.value

section ReceiptCount

/-- How far back the catalog looks, in milliseconds. -/
def catalogSpan : Int := 30 * 24 * 60 * 60 * 1000

def receiptCountFields : List GoString :=
  ["api_key", "team", "model", "model_resource", "response_code", "usage_reported"]

/-- What a filter compares, for a meter row. -/
def rowFields (row : MeterRow) : Fields :=
  let g (k : GoString) := (row.field k).getD []
  { key := g "api_key"
    team := g "team"
    project := projectID (g "team") (g "model_resource")
    model := g "model"
    verdict := (verdictOf (atoi (g "response_code")) (g "usage_reported")).text }

/-- The number of requests a filter matches, and where its window starts. -/
def receiptCount (s : Server) (f : ReceiptFilter) : Call (Nat × Int) := do
  let start := if 0 < f.since then f.since else s.now - catalogSpan
  let stop := if 0 < f.before then f.before else s.now
  let rows ← meterQuery "llm_requests" start stop none receiptCountFields
  pure (rows.foldl (fun n row => if f.match_ (rowFields row) then n + row.value else n) 0, start)

end ReceiptCount

/-- How many request events of `[start, stop)`, in milliseconds since the epoch, a filter
matches. -/
def matchesBetween (log : List Event) (f : ReceiptFilter) (start stop : Int) : Nat :=
  log.countP (fun e => e.type = requestEvent && decide (start ≤ e.time) && decide (e.time < stop) &&
    f.matchReceipt (receiptFrom e))

section Between

variable {log : List Event} {f : ReceiptFilter} {start mid stop : Int}

private theorem matchesBetween_add (hstart : start ≤ mid) (hstop : mid ≤ stop) :
    matchesBetween log f start stop =
      matchesBetween log f start mid + matchesBetween log f mid stop := by
  unfold matchesBetween
  induction log with
  | nil => rfl
  | cons e rest ih =>
    simp only [List.countP_cons, ih, Bool.and_eq_true, decide_eq_true_eq]
    by_cases hmatch : e.type = requestEvent ∧ f.matchReceipt (receiptFrom e) = true
    · simp only [hmatch.1, hmatch.2, true_and, and_true]
      split_ifs <;> omega
    · have hnone (a b : Prop) :
          ¬ (((e.type = requestEvent ∧ a) ∧ b) ∧ f.matchReceipt (receiptFrom e) = true) :=
        fun h => hmatch ⟨h.1.1.1, h.2⟩
      rw [if_neg (hnone _ _), if_neg (hnone _ _), if_neg (hnone _ _)]
      rfl

private theorem matchesBetween_empty (h : stop ≤ start) : matchesBetween log f start stop = 0 := by
  refine List.countP_eq_zero.mpr fun e _ he => ?_
  simp only [Bool.and_eq_true, decide_eq_true_eq] at he
  omega

private theorem matchesIn_length (hsince : 0 < f.since) (hbefore : 0 < f.before) :
    (matchesIn log f).length = matchesBetween log f f.since f.before := by
  rw [matchesIn, matching, window, List.filter_map, List.length_map, List.filter_filter,
    matchesBetween, List.countP_eq_length_filter]
  refine congrArg List.length (List.filter_congr fun e _ => ?_)
  rw [Bool.eq_iff_iff, Bool.and_eq_true, query_matches_iff]
  simp only [hsince, hbefore, true_imp_iff, Bool.and_eq_true, decide_eq_true_eq,
    Function.comp_apply]
  tauto

end Between

section Counts

variable {log : List Event} {om : (q : Request) → Answer q} {f : ReceiptFilter}

private theorem foldl_add_value (p : MeterRow → Bool) (rows : List MeterRow) (n : Nat) :
    rows.foldl (fun n row => if p row then n + row.value else n) n =
      n + sumOf MeterRow.value (rows.filter p) := by
  induction rows generalizing n with
  | nil => rfl
  | cons row rest ih =>
    rw [List.foldl_cons, ih, List.filter_cons]
    split_ifs
    · rw [sumOf_cons, Nat.add_assoc]
    · rfl

/-- The fields that a filter compares, from what a row is grouped by. -/
def fieldsOf : List (Option GoString) → Fields
  | [apiKey, team, model, modelResource, responseCode, usageReported] =>
    { key := apiKey.getD []
      team := team.getD []
      project := projectID (team.getD []) (modelResource.getD [])
      model := model.getD []
      verdict := (verdictOf (atoi (responseCode.getD [])) (usageReported.getD [])).text }
  | _ => { key := [], team := [], project := [], model := [], verdict := [] }

private theorem match_fields (e : Event) :
    f.match_ (fieldsOf (receiptCountFields.map e.field)) = f.matchReceipt (receiptFrom e) := by
  have hfields : fieldsOf (receiptCountFields.map e.field) =
      { key := (receiptFrom e).keyID, team := (receiptFrom e).team,
        project := (receiptFrom e).projectID,
        model := (receiptFrom e).resolvedModel, verdict := (receiptFrom e).verdict.text } := by
    simp only [receiptCountFields, List.map_cons, List.map_nil, fieldsOf, field_str]
    rfl
  rw [hfields, ReceiptFilter.matchReceipt]

/-- The count is over the whole seconds of the bounds. -/
theorem receiptCount_ok (s : Server) (hcounts : CountsRequests log om) (hsince : 0 < f.since)
    (hbefore : 0 < f.before) :
    answer om (receiptCount s f) =
      .ok (matchesBetween log f (f.since / 1000 * 1000) (f.before / 1000 * 1000), f.since) := by
  obtain ⟨rows, hrows, hgroups⟩ := hcounts (f.since / 1000) (f.before / 1000) receiptCountFields
  have hquery : answer om (meterQuery "llm_requests" f.since f.before none receiptCountFields) =
    .ok rows := hrows
  have hsum := hgroups.sumOf_filter (fun key => f.match_ (fieldsOf key))
  rw [receiptCount, if_pos hsince, if_pos hbefore]
  rw [answer_bind_of_ok hquery]
  refine congrArg (fun n => Except.ok (n, f.since)) ?_
  rw [foldl_add_value, Nat.zero_add]
  refine Eq.trans ?_ (hsum.trans ?_)
  · rfl
  · simp only [match_fields]
    rw [sumOf_one, matchesBetween, List.countP_eq_length_filter, requestsIn, List.filter_filter]
    refine congrArg List.length (List.filter_congr fun e _ => ?_)
    rw [Bool.and_comm]

/-- A list that its limit does not end, read at once, holds all matches of the window. -/
theorem listReceipts_all {s : Server} {limit : Nat} {cached cached' : Option Pricer}
    {done : List Receipt} (hserves : Serves log om)
    (h : ServerM.eval om (listReceipts s limit f) cached = (.ok (done, 0), cached'))
    (hunreached : done.length < limit) : done.length = (matchesIn log f).length := by
  obtain ⟨found, done', cached'', hlists, hread, hdone⟩ :=
    listReceipts_ok (s := s) hserves limit f (Nat.zero_lt_of_lt hunreached) cached
  rw [hread] at h
  obtain ⟨hpair, _⟩ := Prod.mk.inj h
  obtain ⟨rfl, hstop⟩ := Prod.mk.inj (Except.ok.inj hpair)
  have hlength := congrArg List.length hdone
  rw [List.length_map, List.length_take] at hlength
  have hfew : (matching f (found.take receiptScanCap)).length < limit := by omega
  have hread : found.length ≤ receiptScanCap := by
    by_contra hmore
    have hlast : found[receiptScanCap - 1]? = some found[receiptScanCap - 1] :=
      List.getElem?_eq_getElem (by omega)
    rw [stopsAt, if_pos hfew, hlast, Option.map_some, Option.getD_some] at hstop
    omega
  rw [hlength, Nat.min_eq_right hfew.le, List.take_of_length_le hread,
    hlists.matching_perm.length_eq]

/-- The count and the list agree if and only if as many matches come in the second the
window starts in, before it starts, as in the second it stops in, before it stops. -/
theorem receiptCount_eq_iff (s : Server) (om : (q : Request) → Answer q) (log : List Event)
    (f : ReceiptFilter)
    (hserves : Serves log om) (hcounts : CountsRequests log om) (hsince : 0 < f.since)
    (hbefore : 0 < f.before) :
    ∃ count, answer om (receiptCount s f) = .ok (count, f.since) ∧
      (count = (matchesIn log f).length ↔ f.before < f.since ∨
        matchesBetween log f (f.since / 1000 * 1000) f.since =
          matchesBetween log f (f.before / 1000 * 1000) f.before) ∧
      ∀ limit cached done cached', ServerM.eval om (listReceipts s limit f) cached =
        (.ok (done, 0), cached') →
        done.length < limit → done.length = (matchesIn log f).length := by
  refine ⟨_, receiptCount_ok s hcounts hsince hbefore, ?_,
    fun _ _ _ _ h hunreached => listReceipts_all hserves h hunreached⟩
  rw [matchesIn_length hsince hbefore]
  by_cases hempty : f.before < f.since
  · rw [matchesBetween_empty (show f.before / 1000 * 1000 ≤ f.since / 1000 * 1000 by omega),
      matchesBetween_empty hempty.le]
    exact iff_of_true rfl (Or.inl hempty)
  · have hstart := @matchesBetween_add log f (f.since / 1000 * 1000) f.since f.before (by omega)
      (by omega)
    have hstop := @matchesBetween_add log f (f.since / 1000 * 1000)
      (f.before / 1000 * 1000) f.before (by omega) (by omega)
    rw [or_iff_right hempty]
    omega

end Counts

section OpenMeter

private theorem lookup_ofList_map (names : List GoString) (g : GoString → Option GoString)
    {name : GoString} (h : name ∈ names) :
    (GoMap.ofList (names.map (fun n => (n, g n)))).lookup name = some (g name) := by
  have hinsert (m : GoMap (Option GoString)) (rest : List GoString)
    (hm : name ∈ rest ∨ m.lookup name = some (g name)) :
      ((rest.map (fun n => (n, g n))).foldl (fun m e => m.insert e.1 e.2) m).lookup name =
        some (g name) := by
    induction rest generalizing m with
    | nil => exact hm.resolve_left List.not_mem_nil
    | cons n rest ih =>
      rw [List.map_cons, List.foldl_cons]
      refine ih _ ?_
      rw [GoMap.lookup_insert_eq]
      rcases hm with hmem | hm
      · rcases List.mem_cons.mp hmem with rfl | hmem
        · exact Or.inr (if_pos rfl)
        · exact Or.inl hmem
      · refine Or.inr ?_
        split_ifs with heq
        · rw [heq]
        · exact hm
  exact hinsert ∅ names (Or.inl h)

/-- The fields of a row that groups events by some names. -/
theorem fields_zip (names : List GoString) (g : GoString → Option GoString) :
    names.map (fun name => ((GoMap.ofList (names.zip (names.map g))).lookup name).join) =
      names.map g := by
  have hzip : names.zip (names.map g) = names.map (fun name => (name, g name)) := by
    have h := @List.zip_map' _ _ _ id g names
    rwa [List.map_id] at h
  refine List.map_congr_left fun name hname => ?_
  rw [hzip, lookup_ofList_map names g hname, Option.join_some]

/-- The client's count requests, answered from a log, are what the request meter counts there.
-/
theorem openMeter_counts (log : List Event) : CountsRequests log (openMeter log) := by
  intro start stop names
  have hanswer : openMeter log (.meter (lit "llm_requests") start stop none names) =
      .ok (meterRows (requestsIn log start stop) start names) := by
    rw [openMeter, if_pos rfl]
  refine ⟨_, hanswer, groups_dedup _ _ fun key hkey => ⟨?_, rfl⟩⟩
  obtain ⟨e, _, rfl⟩ := List.mem_map.mp (List.mem_dedup.mp hkey)
  exact fields_zip names e.field

end OpenMeter

/-- One request at the start of the range: the count and the list both see it. -/
theorem one_request_counted : ∃ count,
    answer (openMeter [served "r-1" 5000])
      (receiptCount plainServer { since := 5000, before := 9000 }) = .ok (count, 5000) ∧
      (count = (matchesIn [served "r-1" 5000] { since := 5000, before := 9000 }).length ↔
        (9000 : Int) < 5000 ∨
        matchesBetween [served "r-1" 5000] { since := 5000, before := 9000 }
          (5000 / 1000 * 1000) 5000 =
          matchesBetween [served "r-1" 5000] { since := 5000, before := 9000 }
            (9000 / 1000 * 1000) 9000) ∧
      ∀ limit cached done cached', ServerM.eval (openMeter [served "r-1" 5000])
          (listReceipts plainServer limit { since := 5000, before := 9000 }) cached =
            (.ok (done, 0), cached') →
        done.length < limit →
          done.length = (matchesIn [served "r-1" 5000] { since := 5000, before := 9000 }).length :=
  receiptCount_eq_iff plainServer (openMeter [served "r-1" 5000]) [served "r-1" 5000]
    { since := 5000, before := 9000 }
    (openMeter_serves _) (openMeter_counts _) (by decide) (by decide)

/-- A window that starts half a second after a request counts it, and does not list it. -/
theorem half_second_counted : CountsRequests [served "r-1" 5000] (openMeter [served "r-1" 5000]) ∧
    answer (openMeter [served "r-1" 5000]) (receiptCount plainServer { since := 5500, before := 9000 }) = .ok (1, 5500) ∧
    ∃ cached, ServerM.eval (openMeter [served "r-1" 5000]) (listReceipts plainServer 50 { since := 5500, before := 9000 }) none =
      (.ok ([], 0), cached) := by
  refine ⟨openMeter_counts _, ?_, ?_⟩
  · rw [receiptCount_ok plainServer (openMeter_counts _) (by decide) (by decide)]
    rfl
  · obtain ⟨found, done, cached, hlists, hread, hdone⟩ :=
      listReceipts_ok (s := plainServer) (openMeter_serves [served "r-1" 5000]) 50 { since := 5500, before := 9000 } (by decide) none
    obtain rfl : found = [] := hlists.perm.eq_nil
    obtain rfl : done = [] := List.map_eq_nil_iff.mp hdone
    exact ⟨cached, hread⟩

end openmeter
