import ServingPack.Usage.EventIDs
import ServingPack.Console.Tokens
import ServingPack.Lib.Grouping

open golang reconcilers

namespace collector

/-- The counts of a record; what it does not say is 0. The input count includes
what was cached. -/
structure Amounts where
  input : Int
  cacheRead : Int
  cacheWrite : Int
  output : Int

section Records

variable (b : Bloblang Int) (cfg : Config)

def amounts (r : Record) : Amounts where
  input := (number b r "input_tokens").getD 0
  cacheRead := (number b r "cached_input_tokens").getD 0
  cacheWrite := (number b r "cache_creation_input_tokens").getD 0
  output := (number b r "output_tokens").getD 0

/-- No count is negative, and no more was cached than came in. -/
structure Amounts.Sound (a : Amounts) : Prop where
  cacheRead : 0 ≤ a.cacheRead
  cacheWrite : 0 ≤ a.cacheWrite
  output : 0 ≤ a.output
  cached : a.cacheRead + a.cacheWrite ≤ a.input

/-- What a record counts of a token type. -/
def Amounts.of (a : Amounts) (tokenType : GoString) : Int :=
  if tokenType = "input" then a.input - a.cacheRead - a.cacheWrite
  else if tokenType = "cache_read" then a.cacheRead
  else if tokenType = "cache_write" then a.cacheWrite
  else if tokenType = "output" then a.output
  else 0

end Records

section Ingest

variable (instant : Option GoString → Nat)

def boolText (yes : Bool) : GoString := if yes then "true" else "false"

/-- The data of an event, as JSON. -/
def EventData.fields : EventData Int → List (GoString × openmeter.Value)
  | .request usageReported responseCode responseFlags durationMs =>
    [("usage_reported", .text (boolText usageReported)), ("response_code", .text responseCode),
      ("response_flags", .text responseFlags), ("duration_ms", durationMs.elim .null .number)]
  | .tokens tokenType n => [("token_type", .text tokenType), ("tokens", .number n)]

def Common.fields (c : Common) : List (GoString × openmeter.Value) :=
  let fields : List (GoString × openmeter.Value) :=
    [("model", .text c.model), ("model_resource", .text c.modelResource),
      ("access_path", .text c.accessPath),
      ("user", .text c.user), ("team", .text c.team), ("api_key", .text c.apiKey)]
  fields ++ (c.ownerLookup.map
    (fun answer => (lit "owner_lookup", openmeter.Value.text answer))).toList

/-- An event as OpenMeter has it; `instant` reads its time. -/
def ingested (e : Event Int) : openmeter.Event where
  id := e.id
  type := e.type
  subject := e.subject
  time := instant e.time
  data := GoMap.ofList (e.common.fields ++ e.data.fields)

/-- The events of some records, each with the answers its lookup got. -/
def logOf (b : Bloblang Int) (cfg : Config) (lookup : Record → GoString → OwnerAnswer)
    (records : List Record) :
    List openmeter.Event :=
  records.flatMap (fun r => (collect b cfg (lookup r) r).map (ingested instant))

end Ingest

section Events

variable {b : Bloblang Int} {cfg : Config} {r : Record} {lookup : GoString → OwnerAnswer}
  {entry : Entry Int} {instant : Option GoString → Nat}

private theorem identify_counts (lookup : GoString → OwnerAnswer) (entry : Entry Int) :
    (identify lookup entry).requestID = entry.requestID ∧
    (identify lookup entry).startTime = entry.startTime ∧
      tokens (identify lookup entry) = tokens entry := by
  unfold identify
  split
  · exact ⟨rfl, rfl, rfl⟩
  · split <;> exact ⟨rfl, rfl, rfl⟩

/-- The counts by token type are those of the record. -/
theorem tokens_amounts (h : normalize b cfg r = some entry) (hsound : (amounts b r).Sound) :
    tokens entry =
    [lit "cache_read", lit "cache_write", lit "input", lit "output"].map
    (fun typ => (typ, (amounts b r).of typ)) := by
  obtain ⟨hinput, hread, hwrite, houtput⟩ := normalize_counts h
  have hrest : (entry.inputTokens.map
    (fun input => max (input - entry.cacheRead - entry.cacheWrite) 0)).getD 0 =
      (amounts b r).input - (amounts b r).cacheRead - (amounts b r).cacheWrite := by
    have hcached := hsound.cached
    have hcacheRead := hsound.cacheRead
    have hcacheWrite := hsound.cacheWrite
    rw [hinput, hread, hwrite]
    simp only [amounts] at hcached hcacheRead hcacheWrite ⊢
    cases hnumber : number b r "input_tokens" with
    | none =>
      rw [hnumber, Option.getD_none] at hcached
      rw [Option.map_none]
      simp only [Option.getD_none]
      omega
    | some n =>
      rw [hnumber, Option.getD_some] at hcached
      rw [Option.map_some, Option.getD_some, Option.getD_some]
      omega
  rw [tokens, hrest, hread, hwrite, houtput]
  rfl

/-- The token events of a record: one for each count that is not 0. -/
theorem mem_events_tokens (h : normalize b cfg r = some entry) (hsound : (amounts b r).Sound)
    {e : Event Int} (htype : e.type = "llm.tokens") : e ∈ events cfg (identify lookup entry) ↔
    ∃ typ ∈ openmeter.tokenTypes,
      0 < (amounts b r).of typ ∧
      e = tokenEvent cfg (identify lookup entry) (typ, (amounts b r).of typ) := by
  have hnot : e ≠ requestEvent cfg (identify lookup entry) := by
    rintro rfl
    exact absurd htype (by decide : lit "llm.request" ≠ lit "llm.tokens")
  rw [events, List.mem_cons, or_iff_right hnot, List.mem_map, counted,
    (identify_counts lookup entry).2.2, tokens_amounts h hsound]
  constructor
  · rintro ⟨⟨typ, n⟩, hmem, rfl⟩
    obtain ⟨hmem, hpos⟩ := List.mem_filter.mp hmem
    obtain ⟨typ', htyp, heq⟩ := List.mem_map.mp hmem
    obtain ⟨rfl, rfl⟩ := Prod.mk.inj heq
    refine ⟨typ', ?_, of_decide_eq_true hpos, rfl⟩
    exact (by decide : ∀ t ∈ [lit "cache_read", lit "cache_write", lit "input", lit "output"], t ∈ openmeter.tokenTypes) typ' htyp
  · rintro ⟨typ, htyp, hpos, rfl⟩
    refine ⟨_, List.mem_filter.mpr ⟨List.mem_map_of_mem ?_, decide_eq_true hpos⟩, rfl⟩
    have hcases : ∀ t ∈ openmeter.tokenTypes, t = "reasoning" ∨
        t ∈ [lit "cache_read", lit "cache_write", lit "input", lit "output"] := by decide
    refine (hcases typ htyp).resolve_left ?_
    rintro rfl
    exact absurd hpos (Int.lt_irrefl 0)

/-- The request event of a record is the only one of its type. -/
theorem mem_events_request {e : Event Int} (htype : e.type = "llm.request") :
    e ∈ events cfg (identify lookup entry) ↔ e = requestEvent cfg (identify lookup entry) := by
  rw [events, List.mem_cons, or_iff_left]
  intro hmem
  obtain ⟨_, _, rfl⟩ := List.mem_map.mp hmem
  exact absurd htype (by decide : lit "llm.tokens" ≠ lit "llm.request")

private theorem fields_nodup (c : Common) (typ : GoString) (n : Int) :
    ((c.fields ++ (EventData.tokens typ n).fields).map Prod.fst).Nodup := by
  unfold Common.fields
  cases c.ownerLookup with
  | none =>
    change [lit "model", lit "model_resource", lit "access_path", lit "user", lit "team",
      lit "api_key", lit "token_type",
      lit "tokens"].Nodup
    decide
  | some answer =>
    change [lit "model", lit "model_resource", lit "access_path", lit "user", lit "team",
      lit "api_key", lit "owner_lookup",
      lit "token_type", lit "tokens"].Nodup
    decide

private theorem ingested_tokens (entry : Entry Int) (token : GoString × Int) :
    (ingested instant (tokenEvent cfg entry token)).tokens = token.2 := by
  have hmem : (lit "tokens", openmeter.Value.number token.2) ∈
      (common cfg entry).fields ++ (EventData.tokens token.1 token.2).fields :=
    List.mem_append_right _ (List.mem_cons_of_mem _ List.mem_cons_self)
  have hlookup := (GoMap.lookup_ofList (fields_nodup _ token.1 token.2)).mpr hmem
  rw [openmeter.Event.tokens, ingested, tokenEvent, hlookup]
  rfl

private theorem sumOf_pos (l : List (GoString × Int)) (hnonneg : ∀ token ∈ l, 0 ≤ token.2) :
    sumOf Prod.snd (l.filter (fun token => decide (0 < token.2))) = sumOf Prod.snd l := by
  induction l with
  | nil => rfl
  | cons token rest ih =>
    obtain ⟨htoken, hrest⟩ := List.forall_mem_cons.mp hnonneg
    rw [List.filter_cons]
    split_ifs with hpos
    · rw [sumOf_cons, sumOf_cons, ih hrest]
    · rw [sumOf_cons, ih hrest]
      rw [decide_eq_true_eq] at hpos
      omega

private theorem Amounts.Sound.nonneg {a : Amounts} (h : a.Sound) (typ : GoString) :
    0 ≤ a.of typ := by
  obtain ⟨hread, hwrite, houtput, hcached⟩ := h
  unfold Amounts.of
  split_ifs <;> omega

private theorem events_tokens (entry : Entry Int) :
    ((events cfg entry).map (ingested instant)).filter
    (fun e => decide (e.type = openmeter.tokensEvent)) =
      (counted entry).map (fun token => ingested instant (tokenEvent cfg entry token)) := by
  have hall : ∀ e ∈ ((counted entry).map (tokenEvent cfg entry)).map (ingested instant),
      decide (e.type = openmeter.tokensEvent) = true := by
    intro e he
    obtain ⟨_, hevent, rfl⟩ := List.mem_map.mp he
    obtain ⟨_, _, rfl⟩ := List.mem_map.mp hevent
    rfl
  have hrequest : ¬ decide ((ingested instant (requestEvent cfg entry)).type =
      openmeter.tokensEvent) = true := by
    change ¬ decide (lit "llm.request" = openmeter.tokensEvent) = true
    decide
  rw [events, List.map_cons, List.filter_cons, if_neg hrequest, List.filter_eq_self.mpr hall,
    List.map_map]
  rfl

/-- A record's counts add up to what came in and what went out. -/
theorem collect_sum (hthrough : LetThrough cfg r) (hsound : (amounts b r).Sound) :
    sumOf openmeter.Event.tokens (((collect b cfg lookup r).map (ingested instant)).filter
      (fun e => decide (e.type = openmeter.tokensEvent))) =
      (amounts b r).input + (amounts b r).output := by
  obtain ⟨entry, hentry⟩ := (letThrough_iff (b := b)).mp hthrough
  have hcollect : collect b cfg lookup r = events cfg (identify lookup entry) := by
    unfold collect
    rw [hentry]
  have hsum : sumOf openmeter.Event.tokens ((counted (identify lookup entry)).map
      (fun token => ingested instant (tokenEvent cfg (identify lookup entry) token))) =
      sumOf Prod.snd (counted (identify lookup entry)) := by
    rw [sumOf, List.map_map]
    exact congrArg List.sum (List.map_congr_left fun token _ => ingested_tokens _ token)
  rw [hcollect, events_tokens, hsum, counted, (identify_counts lookup entry).2.2,
    tokens_amounts hentry hsound, sumOf_pos]
  · have hread : (amounts b r).of "cache_read" = (amounts b r).cacheRead := rfl
    have hwrite : (amounts b r).of "cache_write" = (amounts b r).cacheWrite := rfl
    have hinput : (amounts b r).of "input" = (amounts b r).input - (amounts b r).cacheRead -
      (amounts b r).cacheWrite := rfl
    have houtput : (amounts b r).of "output" = (amounts b r).output := rfl
    simp only [List.map_cons, List.map_nil, sumOf_cons, sumOf_nil, hread, hwrite, hinput, houtput]
    omega
  · intro token htoken
    obtain ⟨typ, _, rfl⟩ := List.mem_map.mp htoken
    exact hsound.nonneg typ

private theorem ofType_zero {a : Amounts} (h : a.Sound) {typ : GoString} (hpos : ¬ 0 < a.of typ) :
    a.of typ = 0 := by
  have := h.nonneg typ
  omega

end Events

/-- What the record with an ID counts of a token type. -/
def amountOf (b : Bloblang Int) (records : List Record) (id typ : GoString) : Int :=
  ((records.find? (fun r => decide (requestID r = id))).map (fun r => (amounts b r).of typ)).getD 0

section Log

variable {b : Bloblang Int} {cfg : Config} {instant : Option GoString → Nat}
  {lookup : Record → GoString → OwnerAnswer}
  {records : List Record} {r : Record} {e : openmeter.Event}

private theorem amountOf_eq (hids : (records.map requestID).Nodup) (hr : r ∈ records)
    (typ : GoString) :
    amountOf b records (requestID r) typ = (amounts b r).of typ := by
  have hfind : records.find? (fun r' => decide (requestID r' = requestID r)) = some r := by
    rw [← List.head?_filter, filter_key_eq hids hr]
    rfl
  rw [amountOf, hfind]
  rfl

/-- An event of the log comes from a record that was let through. -/
theorem mem_logOf : e ∈ logOf instant b cfg lookup records ↔
    ∃ r ∈ records, ∃ entry, normalize b cfg r = some entry ∧
    ∃ event ∈ events cfg (identify (lookup r) entry), e = ingested instant event := by
  simp only [logOf, List.mem_flatMap, List.mem_map, mem_collect]
  constructor
  · rintro ⟨r, hr, event, ⟨entry, hentry, hevent⟩, rfl⟩
    exact ⟨r, hr, entry, hentry, event, hevent, rfl⟩
  · rintro ⟨r, hr, entry, hentry, event, hevent, rfl⟩
    exact ⟨r, hr, event, ⟨entry, hentry, hevent⟩, rfl⟩

private theorem identify_requestID {entry : Entry Int} (h : normalize b cfg r = some entry)
    (answers : GoString → OwnerAnswer) :
    (identify answers entry).requestID = requestID r := by
  obtain ⟨_, _, _, _, _, _, hid, _⟩ := normalize_eq h
  rw [(identify_counts answers entry).1, hid]
  rfl

/-- A request event of the log is that of a record. -/
theorem request_of_log (h : e ∈ logOf instant b cfg lookup records)
    (htype : e.type = openmeter.requestEvent) :
    ∃ r ∈ records, ∃ entry, normalize b cfg r = some entry ∧ e.id = requestID r ∧
    e.time = instant entry.startTime := by
  obtain ⟨r, hr, entry, hentry, event, hevent, rfl⟩ := mem_logOf.mp h
  obtain rfl := (mem_events_request htype).mp hevent
  exact ⟨r, hr, entry, hentry, identify_requestID hentry _,
    congrArg instant (identify_counts _ _).2.1⟩

/-- A token event of the log is that of a record's count. -/
theorem tokens_of_log (hsound : ∀ r ∈ records, (amounts b r).Sound) :
    (e ∈ logOf instant b cfg lookup records ∧ e.type = openmeter.tokensEvent) ↔
    ∃ r ∈ records, ∃ entry,
      normalize b cfg r = some entry ∧ ∃ typ ∈ openmeter.tokenTypes, 0 < (amounts b r).of typ ∧
        e = ingested instant (tokenEvent cfg (identify (lookup r) entry)
          (typ, (amounts b r).of typ)) := by
  rw [mem_logOf]
  constructor
  · rintro ⟨⟨r, hr, entry, hentry, event, hevent, rfl⟩, htype⟩
    obtain ⟨typ, htyp, hpos, rfl⟩ := (mem_events_tokens hentry (hsound r hr) htype).mp hevent
    exact ⟨r, hr, entry, hentry, typ, htyp, hpos, rfl⟩
  · rintro ⟨r, hr, entry, hentry, typ, htyp, hpos, rfl⟩
    exact ⟨⟨r, hr, entry, hentry, _,
      (mem_events_tokens hentry (hsound r hr) rfl).mpr ⟨typ, htyp, hpos, rfl⟩, rfl⟩, rfl⟩

variable {log : List openmeter.Event} {om : (q : openmeter.Request) → openmeter.Answer q}
  {s : openmeter.Server}

/-- A receipt shows a record: its ID and its counts. -/
structure Shows (b : Bloblang Int) (r : Record) (d : openmeter.Receipt) : Prop where
  id : d.id = requestID r
  input : d.inputTokens = (amounts b r).input
  cacheRead : d.cachedInputTokens = (amounts b r).cacheRead
  cacheWrite : d.cacheWriteTokens = (amounts b r).cacheWrite
  output : d.outputTokens = (amounts b r).output

/-- Receipts of the log's requests are completed with what the records count. -/
theorem complete_records (hsound : ∀ r ∈ records, (amounts b r).Sound)
    (hids : (records.map requestID).Nodup) (hlog : log.Perm (logOf instant b cfg lookup records))
    (hserves : openmeter.Serves log om) {rs done : List openmeter.Receipt}
    {cached cached' : Option openmeter.Pricer}
    (hrs : ∀ receipt ∈ rs, ∃ e ∈ log, e.type = openmeter.requestEvent ∧
      receipt = openmeter.receiptFrom e)
    (h : openmeter.ServerM.eval om (openmeter.complete s rs) cached = (.ok done, cached')) :
    ∀ d ∈ done, ∃ r ∈ records, Shows b r d := by
  have htyped : ∀ e ∈ log, e.type = openmeter.tokensEvent → ∀ id, ∀ typ ∈ openmeter.tokenTypes,
      e.id = openmeter.tokenEventID id typ → e.tokens = amountOf b records id typ := by
    intro e he htype id typ htyp hid
    obtain ⟨r, hr, entry, hentry, typ', htyp', _, rfl⟩ :=
      (tokens_of_log hsound).mp ⟨hlog.mem_iff.mp he, htype⟩
    rw [ingested_tokens]
    have hsame : tokenEventID (requestID r) typ' = tokenEventID id typ := by
      rw [← identify_requestID hentry (lookup r)]
      exact hid
    obtain ⟨rfl, rfl⟩ := tokenEventID_inj (openmeter.noColon_tokenTypes _ htyp')
      (openmeter.noColon_tokenTypes _ htyp) hsame
    exact (amountOf_eq hids hr _).symm
  have hthere : ∀ receipt ∈ rs, ∀ typ ∈ openmeter.tokenTypes, amountOf b records receipt.id typ =
    0 ∨
      ∃ e ∈ log, e.type = openmeter.tokensEvent ∧ e.id = openmeter.tokenEventID receipt.id typ ∧
        receipt.ts / 1000 * 1000 ≤ e.time ∧ e.time < receipt.ts / 1000 * 1000 + 1000 := by
    intro receipt hreceipt typ htyp
    obtain ⟨e, he, htype, rfl⟩ := hrs receipt hreceipt
    obtain ⟨r, hr, entry, hentry, hid, htime⟩ := request_of_log (hlog.mem_iff.mp he) htype
    have hamount : amountOf b records (openmeter.receiptFrom e).id typ = (amounts b r).of typ := by
      rw [← amountOf_eq hids hr]
      exact congrArg (amountOf b records · typ) hid
    rw [hamount]
    by_cases hpos : 0 < (amounts b r).of typ
    · refine Or.inr ⟨_, hlog.mem_iff.mpr
        ((tokens_of_log hsound).mpr ⟨r, hr, entry, hentry, typ, htyp, hpos, rfl⟩).1, rfl, ?_, ?_⟩
      · change tokenEventID (identify (lookup r) entry).requestID typ = _
        rw [identify_requestID hentry]
        exact congrArg (openmeter.tokenEventID · typ) hid.symm
      · have hsecond : (ingested instant
            (tokenEvent cfg (identify (lookup r) entry) (typ, (amounts b r).of typ))).time =
            e.time := by
          rw [htime]
          exact congrArg instant (identify_counts _ _).2.1
        rw [hsecond]
        change e.time / 1000 * 1000 ≤ e.time ∧ e.time < e.time / 1000 * 1000 + 1000
        omega
    · exact Or.inl (ofType_zero (hsound r hr) hpos)
  intro d hd
  obtain ⟨hinput, hread, hwrite, houtput, _⟩ :=
    openmeter.complete_counts hserves h htyped hthere d hd
  have hrequest : d.request ∈ rs.map openmeter.Receipt.request := by
    rw [← openmeter.complete_request h]
    exact List.mem_map_of_mem hd
  obtain ⟨receipt, hreceipt, hsame⟩ := List.mem_map.mp hrequest
  obtain ⟨e, he, htype, rfl⟩ := hrs receipt hreceipt
  obtain ⟨r, hr, _, _, hid, _⟩ := request_of_log (hlog.mem_iff.mp he) htype
  have hdid : d.id = requestID r := (congrArg openmeter.Receipt.id hsame).symm.trans hid
  rw [hdid] at hinput hread hwrite houtput
  simp only [amountOf_eq hids hr] at hinput hread hwrite houtput
  refine ⟨r, hr, hdid, ?_, hread, hwrite, houtput⟩
  rw [hinput]
  change (amounts b r).input - (amounts b r).cacheRead -
    (amounts b r).cacheWrite + (amounts b r).cacheRead +
    (amounts b r).cacheWrite = _
  omega

/-- The receipts that a list reads are built from the log's requests. -/
theorem listReceipts_from_log (hserves : openmeter.Serves log om) {limit : Nat} (hlimit : 0 < limit)
    {f : openmeter.ReceiptFilter} {done : List openmeter.Receipt} {continueBefore : Int}
    {cached cached' : Option openmeter.Pricer}
    (h : openmeter.ServerM.eval om (openmeter.listReceipts s limit f) cached =
      (.ok (done, continueBefore), cached')) :
    ∃ rs cached'', openmeter.ServerM.eval om (openmeter.complete s rs) cached'' =
      (.ok done, cached') ∧
      ∀ receipt ∈ rs, ∃ e ∈ log, e.type = openmeter.requestEvent ∧
      receipt = openmeter.receiptFrom e := by
  obtain ⟨⟨rs, _⟩, cached'', hscan, h⟩ := openmeter.ServerM.eval_bind_ok h
  obtain ⟨done', _, hcomplete, hpure⟩ := openmeter.ServerM.eval_bind_ok h
  obtain ⟨hpair, rfl⟩ := Prod.mk.inj hpure
  obtain ⟨rfl, _⟩ := Prod.mk.inj (Except.ok.inj hpair)
  refine ⟨rs, cached'', hcomplete, fun receipt hreceipt => ?_⟩
  obtain ⟨found, hlists, hhonest, _⟩ := hserves.events f.query
  rw [openmeter.ServerM.eval_lift] at hscan
  obtain ⟨rfl, _⟩ := openmeter.scanRequests_honest hhonest hlimit (Prod.mk.inj hscan).1
  obtain ⟨e, he, rfl⟩ := List.mem_map.mp (List.mem_of_mem_filter (List.mem_of_mem_take hreceipt))
  obtain ⟨hlog, hmatches⟩ := openmeter.mem_window.mp (hlists.mem.mp (List.mem_of_mem_take he))
  exact ⟨e, hlog, (openmeter.query_matches_iff.mp hmatches).2.2, rfl⟩

end Log

/-- The events of any records sum to their counts, and the receipts that are built from
all of them show these counts. -/
theorem receipts_show_records (b : Bloblang Int) (cfg : Config) (instant : Option GoString → Nat)
    (lookup : Record → GoString → OwnerAnswer) (records : List Record) (log : List openmeter.Event)
    (om : (q : openmeter.Request) → openmeter.Answer q) (s : openmeter.Server)
    (hthrough : ∀ r ∈ records, LetThrough cfg r) (hsound : ∀ r ∈ records, (amounts b r).Sound)
    (hids : (records.map requestID).Nodup) (hlog : log.Perm (logOf instant b cfg lookup records))
    (hserves : openmeter.Serves log om) :
    (∀ r ∈ records, sumOf openmeter.Event.tokens
      (((collect b cfg (lookup r) r).map (ingested instant)).filter
          (fun e => decide (e.type = openmeter.tokensEvent))) =
          (amounts b r).input + (amounts b r).output ∧
        ∀ e ∈ (collect b cfg (lookup r) r).map (ingested instant), e.type = openmeter.tokensEvent →
        0 < e.tokens) ∧
    (∀ r ∈ records, ∃ e ∈ log, e.type = openmeter.requestEvent ∧ e.id = requestID r) ∧
    (∀ rs cached, (∀ receipt ∈ rs, ∃ e ∈ log, e.type = openmeter.requestEvent ∧
      receipt = openmeter.receiptFrom e) →
      ∃ done cached', openmeter.ServerM.eval om (openmeter.complete s rs) cached =
        (.ok done, cached') ∧
        done.map openmeter.Receipt.request = rs ∧ ∀ d ∈ done, ∃ r ∈ records, Shows b r d) ∧
    ∀ limit f cached done continueBefore cached', 0 < limit →
      openmeter.ServerM.eval om (openmeter.listReceipts s limit f) cached =
        (.ok (done, continueBefore), cached') →
        ∀ d ∈ done, ∃ r ∈ records, Shows b r d := by
  refine ⟨fun r hr => ⟨collect_sum (hthrough r hr) (hsound r hr), fun e he htype => ?_⟩,
    fun r hr => ?_, fun rs cached hrs => ?_,
    fun limit f cached done continueBefore cached' hlimit h => ?_⟩
  · obtain ⟨r', hr', _, _, typ, _, hpos, rfl⟩ :=
      (tokens_of_log (fun r' hr' => hsound r' (List.mem_singleton.mp hr' ▸ hr))).mp
        ⟨List.mem_flatMap.mpr ⟨r, List.mem_cons_self, he⟩, htype⟩
    rw [ingested_tokens]
    exact hpos
  · obtain ⟨entry, hentry⟩ := (letThrough_iff (b := b)).mp (hthrough r hr)
    refine ⟨ingested instant (requestEvent cfg (identify (lookup r) entry)),
      hlog.mem_iff.mpr (mem_logOf.mpr ?_), rfl,
      identify_requestID hentry _⟩
    exact ⟨r, hr, entry, hentry, _, List.mem_cons_self, rfl⟩
  · obtain ⟨done, cached', h⟩ := openmeter.complete_ok (s := s) hserves rs cached
    refine ⟨done, cached', h, (openmeter.complete_request h).trans ?_,
      complete_records hsound hids hlog hserves hrs h⟩
    refine (List.map_congr_left fun receipt hreceipt => ?_).trans (List.map_id rs)
    obtain ⟨e, _, _, rfl⟩ := hrs receipt hreceipt
    rfl
  · obtain ⟨rs, _, hcomplete, hrs⟩ := listReceipts_from_log hserves hlimit h
    exact complete_records hsound hids hlog hserves hrs hcomplete

def twoChats : List Record := [chatRecord "lb:7f3a", chatRecord "lb:7f3a:input"]

def twoChatsLog : List openmeter.Event :=
  logOf (fun _ => 5000) plainTexts llmSystem (fun _ _ => .unknown) twoChats

private theorem twoChats_sound :
    ∀ r ∈ twoChats, LetThrough llmSystem r ∧ (amounts plainTexts r).Sound := by
  refine List.forall_mem_cons.mpr ⟨⟨⟨.apiKey, ?_⟩, ?_⟩,
    List.forall_mem_singleton.mpr ⟨⟨.apiKey, ?_⟩, ?_⟩⟩
  · decide
  · exact ⟨by decide, by decide +kernel, by decide +kernel, by decide +kernel⟩
  · decide
  · exact ⟨by decide, by decide +kernel, by decide +kernel, by decide +kernel⟩

/-- Two requests, one of them with the ID of the other's count, are read with their own counts. -/
theorem twoChats_shown :
    (∀ r ∈ twoChats, ∃ e ∈ twoChatsLog, e.type = openmeter.requestEvent ∧ e.id = requestID r) ∧
    ∀ limit f cached done continueBefore cached', 0 < limit →
      openmeter.ServerM.eval (openmeter.openMeter twoChatsLog)
        (openmeter.listReceipts openmeter.plainServer limit f) cached =
        (.ok (done, continueBefore), cached') →
        ∀ d ∈ done, ∃ r ∈ twoChats, Shows plainTexts r d := by
  obtain ⟨_, hrequests, _, hlists⟩ :=
    receipts_show_records plainTexts llmSystem (fun _ => 5000)
      (fun _ _ => .unknown) twoChats twoChatsLog
      (openmeter.openMeter twoChatsLog) openmeter.plainServer (fun r hr => (twoChats_sound r hr).1)
      (fun r hr => (twoChats_sound r hr).2) (by decide) (List.Perm.refl _)
        (openmeter.openMeter_serves _)
  exact ⟨hrequests, hlists⟩

end collector
