import ServingPack.Console.Receipts

open golang concurrency

namespace openmeter

/-- The receipts of the events that a filter matches. -/
def matching (f : ReceiptFilter) (events : List Event) : List Receipt :=
  (events.map receiptFrom).filter f.matchReceipt

section Each

variable {limit : Nat} {f : ReceiptFilter}

private theorem matching_cons (e : Event) (rest : List Event) :
    matching f (e :: rest) = (if f.matchReceipt (receiptFrom e) then [receiptFrom e] else []) ++
      matching f rest := by
  unfold matching
  rw [List.map_cons, List.filter_cons]
  split_ifs <;> rfl

/-- Filtering goes event by event, so a list may be scanned in pieces. -/
theorem matching_append (first second : List Event) :
    matching f (first ++ second) = matching f first ++ matching f second := by
  rw [matching, List.map_append, List.filter_append]
  rfl

/-- What the scan does with one event, with its matches as a list: it stops at the page's limit
or at the scan cap, whichever comes first. -/
theorem scanEvent_eq (s : Scan) (e : Event) : scanEvent limit f s e =
    if (s.out ++ matching f [e]).length < limit ∧ receiptScanCap ≤ s.scanned + 1 then
      ({ out := s.out ++ matching f [e], continueBefore := e.time + 1, scanned := s.scanned + 1 }, false)
    else ({ out := s.out ++ matching f [e], continueBefore := s.continueBefore, scanned := s.scanned + 1 },
      (s.out ++ matching f [e]).length < limit) := by
  have hout : (if f.matchReceipt (receiptFrom e) then s.out ++ [receiptFrom e] else s.out) =
      s.out ++ matching f [e] := by
    rw [matching_cons]
    split_ifs <;> simp [matching]
  unfold scanEvent
  rw [hout]

/-- A scan finds the first matches among as many events as it may look through.
Where these are too few and there may be more, it says where it stopped. -/
theorem each_scanEvent (found : List Event) (s : Scan) {k : Nat}
    (hk : s.scanned + k = receiptScanCap) (hpos : 0 < k) (hout : s.out.length < limit) :
    (each (scanEvent limit f) s found).1.out = s.out ++ (matching f (found.take k)).take
    (limit - s.out.length) ∧
    (each (scanEvent limit f) s found).1.continueBefore =
      if s.out.length + (matching f (found.take k)).length < limit then
        (found[k - 1]?.map (fun e => (e.time : Int) + 1)).getD s.continueBefore
        else s.continueBefore := by
  induction found generalizing s k with
  | nil => simp [each, matching]
  | cons e rest ih =>
    obtain ⟨k, rfl⟩ : ∃ k', k = k' + 1 := ⟨k - 1, by omega⟩
    have hone : (matching f [e]).length ≤ 1 := List.length_filter_le ..
    have htake : matching f ((e :: rest).take (k + 1)) = matching f [e] ++
        matching f (rest.take k) :=
      matching_append [e] (rest.take k)
    have hevent := @scanEvent_eq limit f s e
    rw [List.length_append] at hevent
    rw [htake, each, List.length_append]
    by_cases hfull : s.out.length + (matching f [e]).length < limit
    · by_cases hcap : receiptScanCap ≤ s.scanned + 1
      · obtain rfl : k = 0 := by omega
        rw [if_pos ⟨hfull, hcap⟩] at hevent
        have hnone : matching f (rest.take 0) = [] := rfl
        rw [hevent, hnone, List.append_nil, List.take_of_length_le (by omega), List.length_nil,
          if_pos (show s.out.length + ((matching f [e]).length + 0) < limit by omega)]
        exact ⟨rfl, rfl⟩
      · rw [if_neg (fun h => hcap h.2), decide_eq_true hfull] at hevent
        obtain ⟨houts, hcont⟩ := @ih
          { out := s.out ++ matching f [e], continueBefore := s.continueBefore,
            scanned := s.scanned + 1 } k
          (by simp only; omega) (by omega) (by simp only [List.length_append]; exact hfull)
        rw [hevent, if_pos rfl, houts, hcont]
        refine ⟨?_, ?_⟩
        · simp only [List.length_append]
          rw [List.append_assoc, List.take_append,
            List.take_of_length_le (show (matching f [e]).length ≤ _ by omega), Nat.sub_sub]
        · simp only [List.length_append, Nat.add_assoc]
          cases k with
          | zero => omega
          | succ k => rfl
    · rw [if_neg (fun h => hfull h.1), decide_eq_false hfull] at hevent
      rw [hevent, if_neg Bool.false_ne_true]
      refine ⟨?_, ?_⟩
      · rw [List.take_append_of_le_length (by omega), List.take_of_length_le (by omega)]
      · rw [if_neg (by omega)]

end Each

/-- The answer of a server to a call. -/
def answer {α : Type} (om : (q : Request) → Answer q) (x : Call α) : Except Failure α :=
  (x.run.eval (fun s q => (om q, s)) ()).1

/-- These are the events of a log that a query matches, newest first. -/
structure Lists (log : List Event) (q : EventQuery) (found : List Event) : Prop where
  perm : found.Perm (log.filter q.matches)
  newest : found.Pairwise (fun e e' => e'.time ≤ e.time)

/-- OpenMeter over a log of events, with answers to every call. -/
structure Serves (log : List Event) (om : (q : Request) → Answer q) : Prop where
  events : ∀ q, ∃ found, Lists log q found ∧ (om (.events q)).Honest found ∧
    (om (.events q)).failure = none
  features : ∃ fs, om .features = .ok fs
  overrides : ∃ rows, om .overrides = .ok rows
  prices : ∀ provider model, ∃ rows, om (.prices provider model) = .ok rows

/-- OpenMeter over a log of events that is in the order it lists them, with
answers to every call. -/
structure ServesInOrder (log : List Event) (om : (q : Request) → Answer q) : Prop where
  newest : log.Pairwise (fun e e' => e'.time ≤ e.time)
  honest : ∀ q, (om (.events q)).Honest (log.filter q.matches)
  whole : ∀ q, (om (.events q)).failure = none
  features : ∃ fs, om .features = .ok fs
  overrides : ∃ rows, om .overrides = .ok rows
  prices : ∀ provider model, ∃ rows, om (.prices provider model) = .ok rows

/-- Events served newest first are served. -/
theorem ServesInOrder.serves {log : List Event} {om : (q : Request) → Answer q}
    (h : ServesInOrder log om) :
    Serves log om where
  events q := ⟨log.filter q.matches, ⟨List.Perm.refl _, h.newest.filter _⟩, h.honest q, h.whole q⟩
  features := h.features
  overrides := h.overrides
  prices := h.prices

/-- A field of an event as a meter groups by it: its text, or null. -/
def Event.field (e : Event) (name : GoString) : Option GoString :=
  match e.data.lookup name with
  | some (.text s) => some s
  | _ => none

def MeterRow.field (r : MeterRow) (name : GoString) : Option GoString :=
  (r.groupBy.lookup name).join

/-- The text of a field is empty where the event leaves the field out. -/
theorem field_str (e : Event) (name : GoString) :
    (e.field name).getD [] = str (e.data.lookup name) := by
  unfold Event.field
  cases e.data.lookup name with
  | none => rfl
  | some value => cases value <;> rfl

/-- The request events in `[start, stop)`, in seconds since the epoch. -/
def requestsIn (log : List Event) (start stop : Int) : List Event :=
  log.filter (fun e => e.type = requestEvent && decide (start * 1000 ≤ e.time) &&
    decide (e.time < stop * 1000))

/-- The rows of a meter that counts events by some fields. -/
def meterRows (events : List Event) (start : Int) (names : List GoString) : List MeterRow :=
  (events.map (fun e => names.map e.field)).dedup.map (fun key =>
    { groupBy := GoMap.ofList (names.zip key)
      value := events.countP (fun e => names.map e.field = key)
      windowStart := start * 1000 })

/-- OpenMeter with a log of events, and without prices. -/
def openMeter (log : List Event) : (q : Request) → Answer q
  | .events q =>
    let found := (log.filter q.matches).mergeSort (fun e e' => e'.time ≤ e.time)
    { pages := if found.isEmpty then [] else [found] }
  | .meter slug start stop _ names =>
    if slug = "llm_requests" then .ok (meterRows (requestsIn log start stop) start names)
      else .ok []
  | .cost _ _ _ _ => .ok []
  | .features => .ok []
  | .overrides => .ok []
  | .prices _ _ => .ok []

/-- Pages cut from the sorted log hold its events, whole and in order. -/
theorem openMeter_honest (log : List Event) (q : EventQuery) :
    (openMeter log (.events q)).Honest
    ((log.filter q.matches).mergeSort (fun e e' => e'.time ≤ e.time)) := by
  by_cases hempty : ((log.filter q.matches).mergeSort (fun e e' => e'.time ≤ e.time)).isEmpty = true
  · rw [openMeter, if_pos hempty, List.isEmpty_iff.mp hempty]
    exact ⟨List.prefix_rfl, fun _ => rfl, List.not_mem_nil⟩
  · rw [openMeter, if_neg hempty]
    refine ⟨by rw [List.flatten_singleton], fun _ => List.flatten_singleton, fun h => ?_⟩
    rw [List.mem_singleton] at h
    exact hempty (List.isEmpty_iff.mpr h.symm)

/-- A log behind the events API, newest first, serves what the reader relies on. -/
theorem openMeter_serves (log : List Event) : Serves log (openMeter log) where
  events q := by
    refine ⟨_, ⟨List.mergeSort_perm _ _, ?_⟩, openMeter_honest log q, rfl⟩
    refine (List.pairwise_mergeSort ?_ ?_ _).imp of_decide_eq_true
    · intro e e' e'' h h'
      simp only [decide_eq_true_eq] at h h' ⊢
      exact h'.trans h
    · intro e e'
      simp only [Bool.or_eq_true, decide_eq_true_eq]
      exact Nat.le_total _ _
  features := ⟨[], rfl⟩
  overrides := ⟨[], rfl⟩
  prices _ _ := ⟨[], rfl⟩

/-- A log that is already newest first is served in its own order. -/
theorem openMeter_servesInOrder {log : List Event}
    (h : log.Pairwise (fun e e' => e'.time ≤ e.time)) :
    ServesInOrder log (openMeter log) where
  newest := h
  honest q := by
    have hsorted : (log.filter q.matches).mergeSort (fun e e' => e'.time ≤ e.time) =
        log.filter q.matches :=
      List.mergeSort_of_pairwise ((h.filter q.matches).imp decide_eq_true)
    have hhonest := openMeter_honest log q
    rwa [hsorted] at hhonest
  whole _ := rfl
  features := ⟨[], rfl⟩
  overrides := ⟨[], rfl⟩
  prices _ _ := ⟨[], rfl⟩

section Answers

variable {om : (q : Request) → Answer q} {limit : Nat} {f : ReceiptFilter} {log : List Event}

private theorem answer_bind {α β : Type} (x : Call α) (next : α → Call β) : answer om (x >>= next) =
    match answer om x with
    | .ok value => answer om (next value)
    | .error e => .error e := by
  rw [answer, Fallible.run_bind_eq, Program.eval_bind, answer]
  generalize x.run.eval (fun s q => (om q, s)) () = r
  obtain ⟨res, u⟩ := r
  cases res <;> rfl

/-- Calls in a row that succeed as a whole succeeded one by one. -/
theorem answer_bind_ok {α β : Type} {x : Call α} {next : α → Call β} {value : β}
    (h : answer om (x >>= next) = .ok value) :
    ∃ mid, answer om x = .ok mid ∧ answer om (next mid) = .ok value := by
  rw [answer_bind] at h
  split at h
  · next mid hmid => exact ⟨mid, hmid, h⟩
  · cases h

/-- Past a call that succeeded, the rest goes on with its value. -/
theorem answer_bind_of_ok {α β : Type} {x : Call α} {next : α → Call β} {mid : α}
    (h : answer om x = .ok mid) :
    answer om (x >>= next) = answer om (next mid) := by
  rw [answer_bind, h]

private theorem answer_eachEvent {σ : Type} (fn : σ → Event → σ × Bool) (q : EventQuery) (s : σ) :
    answer om (eachEvent fn q s) = eachPage fn s (om (.events q)).pages (om (.events q)).failure :=
  rfl

/-- A reading that succeeds has gone through what the query lists. -/
theorem answer_eachEvent_honest {σ : Type} {fn : σ → Event → σ × Bool} {q : EventQuery} {s s' : σ}
    {found : List Event}
    (hhonest : (om (.events q)).Honest found) (h : answer om (eachEvent fn q s) = .ok s') :
    s' = (each fn s found).1 :=
  eachPage_honest fn hhonest.served hhonest.whole hhonest.nonempty h

/-- When no page fails, visiting the events page by page is one pass over all that was found. -/
theorem answer_eachEvent_whole {σ : Type} (fn : σ → Event → σ × Bool) {q : EventQuery}
    {found : List Event}
    (hhonest : (om (.events q)).Honest found) (hwhole : (om (.events q)).failure = none) (s : σ) :
    answer om (eachEvent fn q s) = .ok (each fn s found).1 := by
  rw [answer_eachEvent, hwhole, eachPage_whole fn s hhonest.nonempty, hhonest.whole hwhole]

/-- Where the scan of these events stops, if it stops early. -/
def stopsAt (limit : Nat) (f : ReceiptFilter) (found : List Event) : Int :=
  if (matching f (found.take receiptScanCap)).length < limit then
    (found[receiptScanCap - 1]?.map (fun e => (e.time : Int) + 1)).getD 0 else 0

private theorem each_scan (hlimit : 0 < limit) (found : List Event) :
    (each (scanEvent limit f) {} found).1.out =
    (matching f (found.take receiptScanCap)).take limit ∧
    (each (scanEvent limit f) {} found).1.continueBefore = stopsAt limit f found := by
  obtain ⟨hout, hcont⟩ := each_scanEvent found {} (Nat.zero_add receiptScanCap) (by decide) hlimit
  refine ⟨hout, ?_⟩
  rw [hcont, stopsAt, List.length_nil, Nat.zero_add]

/-- A scan that succeeds saw a prefix of what was found: its receipts are the first matches
within the cap, and it says where it stopped. -/
theorem scanRequests_honest {found : List Event} (hhonest : (om (.events f.query)).Honest found)
    (hlimit : 0 < limit) {out : List Receipt} {continueBefore : Int}
    (h : answer om (scanRequests limit f) = .ok (out, continueBefore)) :
    out = (matching f (found.take receiptScanCap)).take limit ∧
    continueBefore = stopsAt limit f found := by
  obtain ⟨s, hs, hpure⟩ := answer_bind_ok h
  obtain rfl := answer_eachEvent_honest hhonest hs
  obtain ⟨rfl, rfl⟩ := Prod.mk.inj (Except.ok.inj hpure)
  exact each_scan hlimit found

/-- When no page fails the scan succeeds, with the same receipts and the same stop. -/
theorem scanRequests_whole {found : List Event} (hhonest : (om (.events f.query)).Honest found)
    (hwhole : (om (.events f.query)).failure = none) (hlimit : 0 < limit) :
    answer om (scanRequests limit f) =
      .ok ((matching f (found.take receiptScanCap)).take limit, stopsAt limit f found) := by
  rw [scanRequests,
    answer_bind_of_ok (answer_eachEvent_whole (scanEvent limit f) hhonest hwhole {}),
    (each_scan hlimit found).1, (each_scan hlimit found).2]
  rfl

end Answers

/-- A receipt as its request event shows it, without tokens and cost. -/
def Receipt.request (r : Receipt) : Receipt :=
  { r with
    inputTokens := 0
    cachedInputTokens := 0
    outputTokens := 0
    reasoningTokens := 0
    cacheWriteTokens := 0
    costUSD := none }

section Complete

variable {s : Server} {om : (q : Request) → Answer q} {cached cached' : Option Pricer}
  {log : List Event} {limit : Nat} {f : ReceiptFilter}

private theorem matching_request (f : ReceiptFilter) (events : List Event) :
    (matching f events).map Receipt.request = matching f events := by
  refine (List.map_congr_left fun r hr => ?_).trans (List.map_id _)
  obtain ⟨e, _, rfl⟩ := List.mem_map.mp (List.mem_of_mem_filter hr)
  rfl

/-- Completing receipts adds tokens and costs, and nothing else. -/
theorem completeReceipts_request {tokens : GoMap (GoMap Int)} {p : Pricer} {rs done : List Receipt}
    (h : ServerM.eval om (completeReceipts s tokens p rs) cached = (.ok done, cached')) :
    done.map Receipt.request = rs.map Receipt.request := by
  induction rs generalizing p cached cached' done with
  | nil =>
    obtain ⟨hdone, _⟩ := Prod.mk.inj h
    rw [← Except.ok.inj hdone]
  | cons r rest ih =>
    unfold completeReceipts at h
    split_ifs at h with hallowed
    · obtain ⟨⟨costUSD, p'⟩, _, _, h⟩ := ServerM.eval_bind_ok h
      obtain ⟨tail, _, htail, hpure⟩ := ServerM.eval_bind_ok h
      obtain ⟨hdone, _⟩ := Prod.mk.inj hpure
      rw [← Except.ok.inj hdone, List.map_cons, List.map_cons, ih htail]
      rfl
    · obtain ⟨tail, _, htail, hpure⟩ := ServerM.eval_bind_ok h
      obtain ⟨hdone, _⟩ := Prod.mk.inj hpure
      rw [← Except.ok.inj hdone, List.map_cons, List.map_cons, ih htail]
      rfl

/-- Completing fills in tokens, cost and timing; the requests themselves stay, in order. -/
theorem complete_request {rs done : List Receipt}
    (h : ServerM.eval om (complete s rs) cached = (.ok done, cached')) :
    done.map Receipt.request = rs.map Receipt.request := by
  obtain ⟨_, _, _, h⟩ := ServerM.eval_bind_ok h
  obtain ⟨_, _, _, h⟩ := ServerM.eval_bind_ok h
  exact completeReceipts_request h

section Serves

variable (hserves : Serves log om)
include hserves

private theorem price_ok (p : Pricer) (provider model : GoString) (cached : Option Pricer) :
    ∃ r cached', ServerM.eval om (price s p provider model) cached = (.ok r, cached') := by
  unfold price
  split_ifs with hprovider
  · exact ⟨_, _, rfl⟩
  · simp only
    cases hcached : p.cache (s.normalizeModelID provider model) with
    | some pr => exact ⟨_, _, rfl⟩
    | none =>
      obtain ⟨rows, hrows⟩ :=
        hserves.prices (s.normalizeModelID provider model).1 (s.normalizeModelID provider model).2
      cases hoverride : inEffect p.now p.overrides (s.normalizeModelID provider model).1
          (s.normalizeModelID provider model).2 with
      | some pr => exact ⟨_, _, rfl⟩
      | none =>
        have hlift : ServerM.eval om (ServerM.lift (prices (s.normalizeModelID provider model).1
            (s.normalizeModelID provider model).2)) cached = (.ok rows, cached) := by
          rw [ServerM.eval_lift]
          exact Prod.ext hrows rfl
        exact ⟨_, _, (ServerM.eval_bind_of_ok hlift).trans rfl⟩

private theorem cost_ok (p : Pricer) (resource model : GoString) (tokens : GoMap Int)
    (cached : Option Pricer) :
    ∃ r cached', ServerM.eval om (cost s p resource model tokens) cached = (.ok r, cached') := by
  obtain ⟨r, cached', hprice⟩ :=
    price_ok (s := s) hserves p ((p.providers.lookup resource).getD []) model cached
  exact ⟨_, cached', (ServerM.eval_bind_of_ok hprice).trans rfl⟩

private theorem pricer_ok (cached : Option Pricer) : ∃ p cached', ServerM.eval om (pricer s) cached = (.ok p, cached') := by
  obtain ⟨fs, hfs⟩ := hserves.features
  obtain ⟨rows, hrows⟩ := hserves.overrides
  have hrenew : ∃ p cached', ServerM.eval om (pricer.renew s) cached = (.ok p, cached') := by
    have hnew : answer om (newPricer s) = .ok { now := s.now, providers := providersOf fs, overrides := rows } :=
      (answer_bind_of_ok (show answer om features = .ok fs from hfs)).trans
        ((answer_bind_of_ok (show answer om overrides = .ok rows from hrows)).trans rfl)
    have hlift : ServerM.eval om (ServerM.lift (newPricer s)) cached = (.ok _, cached) :=
      (ServerM.eval_lift _).trans (Prod.ext hnew rfl)
    exact ⟨_, _, (ServerM.eval_bind_of_ok hlift).trans rfl⟩
  cases cached with
  | none => exact hrenew
  | some p =>
    have hload : ServerM.eval om (pricer s) (some p) =
        ServerM.eval om (if s.now - p.now < pricerTTL then pure p else pricer.renew s) (some p) := rfl
    rw [hload]
    split_ifs
    · exact ⟨_, _, rfl⟩
    · exact hrenew

private theorem completeReceipts_ok (tokens : GoMap (GoMap Int)) (p : Pricer) (rs : List Receipt)
    (cached : Option Pricer) :
    ∃ done cached', ServerM.eval om (completeReceipts s tokens p rs) cached =
      (.ok done, cached') := by
  induction rs generalizing p cached with
  | nil => exact ⟨_, _, rfl⟩
  | cons r rest ih =>
    unfold completeReceipts
    split_ifs with hallowed
    · obtain ⟨priced, cached', hcost⟩ := cost_ok (s := s) hserves p r.backend r.resolvedModel
        ((tokens.lookup r.id).getD ∅) cached
      obtain ⟨done, cached'', hdone⟩ := ih priced.2 cached'
      exact ⟨_, _, (ServerM.eval_bind_of_ok hcost).trans
        ((ServerM.eval_bind_of_ok hdone).trans rfl)⟩
    · obtain ⟨done, cached', hdone⟩ := ih p cached
      exact ⟨_, _, (ServerM.eval_bind_of_ok hdone).trans rfl⟩

private theorem lookupTokens_ok (out : GoMap (GoMap Int)) (groups : List (List Receipt)) :
    ∃ tokens, answer om (lookupTokens out groups) = .ok tokens := by
  induction groups generalizing out with
  | nil => exact ⟨out, rfl⟩
  | cons batch rest ih =>
    obtain ⟨found, _, hhonest, hwhole⟩ := hserves.events (tokensQuery batch)
    obtain ⟨tokens, htokens⟩ := ih (each noteTokens out found).1
    exact ⟨tokens, (answer_bind_of_ok (answer_eachEvent_whole noteTokens hhonest hwhole out)).trans
      htokens⟩

/-- With OpenMeter answering, completing never fails. -/
theorem complete_ok (rs : List Receipt) (cached : Option Pricer) :
    ∃ done cached', ServerM.eval om (complete s rs) cached = (.ok done, cached') := by
  obtain ⟨tokens, htokens⟩ := lookupTokens_ok hserves ∅ (batches rs.length rs)
  have hlift : ServerM.eval om (ServerM.lift (tokensOf rs)) cached = (.ok tokens, cached) :=
    (ServerM.eval_lift _).trans (Prod.ext htokens rfl)
  obtain ⟨p, cached', hpricer⟩ := pricer_ok (s := s) hserves cached
  obtain ⟨done, cached'', hdone⟩ := completeReceipts_ok (s := s) hserves tokens p rs cached'
  exact ⟨done, cached'',
    (ServerM.eval_bind_of_ok hlift).trans ((ServerM.eval_bind_of_ok hpricer).trans hdone)⟩

/-- A list read in full: the first matches among the events it looks through. -/
theorem listReceipts_honest {found : List Event} (hhonest : (om (.events f.query)).Honest found)
    (hwhole : (om (.events f.query)).failure = none) (hlimit : 0 < limit) (cached : Option Pricer) :
    ∃ done cached', ServerM.eval om (listReceipts s limit f) cached =
      (.ok (done, stopsAt limit f found), cached') ∧
      done.map Receipt.request = (matching f (found.take receiptScanCap)).take limit := by
  have hlift : ServerM.eval om (ServerM.lift (scanRequests limit f)) cached =
      (.ok ((matching f (found.take receiptScanCap)).take limit, stopsAt limit f found), cached) :=
    (ServerM.eval_lift _).trans (Prod.ext (scanRequests_whole hhonest hwhole hlimit) rfl)
  obtain ⟨done, cached', hdone⟩ :=
    complete_ok (s := s) hserves ((matching f (found.take receiptScanCap)).take limit) cached
  refine ⟨done, cached',
    (ServerM.eval_bind_of_ok hlift).trans ((ServerM.eval_bind_of_ok hdone).trans rfl), ?_⟩
  rw [complete_request hdone, List.map_take, matching_request]

/-- With OpenMeter answering, a page is the first matches within the scan cap and its stop. -/
theorem listReceipts_ok (limit : Nat) (f : ReceiptFilter) (hlimit : 0 < limit)
    (cached : Option Pricer) :
    ∃ found done cached', Lists log f.query found ∧
      ServerM.eval om (listReceipts s limit f) cached =
        (.ok (done, stopsAt limit f found), cached') ∧
      done.map Receipt.request = (matching f (found.take receiptScanCap)).take limit := by
  obtain ⟨found, hlists, hhonest, hwhole⟩ := hserves.events f.query
  obtain ⟨done, cached', hread, hdone⟩ :=
    listReceipts_honest (s := s) hserves hhonest hwhole hlimit cached
  exact ⟨found, done, cached', hlists, hread, hdone⟩

end Serves

end Complete

end openmeter
