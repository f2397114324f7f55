import ServingPack.Console.Scan
import ServingPack.Lib.Numbers

open golang concurrency

namespace openmeter

/-- The request events in a filter's window. -/
def window (log : List Event) (f : ReceiptFilter) : List Event := log.filter f.query.matches

/-- The receipts of a log that match a filter in its window. -/
def matchesIn (log : List Event) (f : ReceiptFilter) : List Receipt := matching f (window log f)

/-- The filter of the next read, where one has stopped. -/
def ReceiptFilter.from_ (f : ReceiptFilter) (continueBefore : Int) : ReceiptFilter :=
  { f with before := continueBefore }

/-- At most `n` reads, each from where the one before has stopped: their pages,
and whether the last one came to the end. -/
def readPages (s : Server) (om : (q : Request) → Answer q) (limit : Nat) :
    Nat → ReceiptFilter → Option Pricer → List (List Receipt) × Bool
  | 0, _, _ => ([], false)
  | n + 1, f, cached =>
    match ServerM.eval om (listReceipts s limit f) cached with
    | (.ok (out, continueBefore), cached') =>
      if 0 < continueBefore then
        let older := readPages s om limit n (f.from_ continueBefore) cached'
        (out :: older.1, older.2)
      else ([out], true)
    | (.error _, _) => ([], false)

/-- No page lists as many receipts as are asked for. -/
def LimitUnreached (s : Server) (om : (q : Request) → Answer q) (limit : Nat) (f : ReceiptFilter)
    (cached : Option Pricer) : Prop :=
  ∀ n, ∀ page ∈ (readPages s om limit n f cached).1, page.length < limit

/-- The reads come to an end, and their pages hold the receipts in the window that match. -/
def ReadsWindow (s : Server) (om : (q : Request) → Answer q) (limit : Nat) (log : List Event)
    (f : ReceiptFilter) (cached : Option Pricer) : Prop :=
  ∃ n, (readPages s om limit n f cached).2 = true ∧
    ∀ r, (∃ page ∈ (readPages s om limit n f cached).1, r ∈ page.map Receipt.request) ↔
      r ∈ matchesIn log f

/-- How many request events of the window share a time. -/
def crowd (log : List Event) (f : ReceiptFilter) (t : Nat) : Nat :=
  (window log f).countP (·.time = t)

section Window

variable {log found : List Event} {f : ReceiptFilter} {e : Event} {t : Nat}

/-- The events a query asks OpenMeter for are the log's that meet it. -/
theorem mem_window : e ∈ window log f ↔ e ∈ log ∧ f.query.matches e = true := List.mem_filter

/-- A bound, a type or a list of ids that a query leaves out asks for nothing. -/
theorem matches_iff {q : EventQuery} :
    q.matches e = true ↔ (∀ since, q.since = some since → since ≤ e.time) ∧
    (∀ before, q.before = some before → e.time < before) ∧ (q.typ = [] ∨ e.type = q.typ) ∧
    (q.ids = [] ∨ e.id ∈ q.ids) := by
  simp only [EventQuery.matches, Bool.and_eq_true, Bool.or_eq_true, decide_eq_true_eq,
    Option.all_eq_true, and_assoc]

/-- The request events in `[since, before)`, with a bound of 0 open. -/
theorem query_matches_iff : f.query.matches e = true ↔
    (0 < f.since → f.since ≤ e.time) ∧ (0 < f.before → (e.time : Int) < f.before) ∧
    e.type = requestEvent := by
  have hsince : (∀ since, f.query.since = some since → since ≤ e.time) ↔
      (0 < f.since → f.since ≤ e.time) := by
    simp only [ReceiptFilter.query, Option.ite_none_right_eq_some, Option.some.injEq, and_imp,
      @forall_comm Nat, forall_eq']
    exact ⟨fun h hpos => by have := h hpos; omega, fun h hpos => by have := h hpos; omega⟩
  have hbefore : (∀ before, f.query.before = some before → e.time < before) ↔
      (0 < f.before → (e.time : Int) < f.before) := by
    simp only [ReceiptFilter.query, Option.ite_none_right_eq_some, Option.some.injEq, and_imp,
      @forall_comm Nat, forall_eq']
    exact ⟨fun h hpos => by have := h hpos; omega, fun h hpos => by have := h hpos; omega⟩
  rw [matches_iff, hsince, hbefore]
  simp only [ReceiptFilter.query, true_or, and_true]
  have htype : requestEvent ≠ [] := by decide
  simp only [htype, false_or]

private theorem query_from {last : Event} (hlast : f.query.matches last = true) :
    (f.from_ (last.time + 1)).query.matches e = true ↔
    f.query.matches e = true ∧ e.time ≤ last.time := by
  rw [query_matches_iff] at hlast
  rw [query_matches_iff, query_matches_iff]
  simp only [ReceiptFilter.from_]
  constructor
  · rintro ⟨hsince, hbefore, htype⟩
    have hle := hbefore (by omega)
    refine ⟨⟨hsince, fun h => ?_, htype⟩, by omega⟩
    have hlt := hlast.2.1 h
    omega
  · rintro ⟨⟨hsince, _, htype⟩, hle⟩
    exact ⟨hsince, fun _ => by omega, htype⟩

/-- The window of the next read holds the events up to the one the read has stopped at. -/
theorem window_from {last : Event} (hlast : last ∈ window log f) :
    window log (f.from_ (last.time + 1)) = (window log f).filter (·.time ≤ last.time) := by
  rw [window, window, List.filter_filter]
  refine List.filter_congr fun e _ => Bool.eq_iff_iff.mpr ?_
  rw [query_from (mem_window.mp hlast).2, Bool.and_eq_true, decide_eq_true_eq, and_comm]

private theorem matchesIn_from {last : Event} (hlast : last ∈ window log f) {r : Receipt} :
    r ∈ matchesIn log (f.from_ (last.time + 1)) ↔ r ∈ matchesIn log f ∧ r.ts ≤ last.time := by
  have hmatch : (f.from_ (last.time + 1)).matchReceipt = f.matchReceipt := rfl
  rw [matchesIn, matchesIn, window_from hlast, matching, matching, List.mem_filter, List.mem_filter,
    hmatch]
  simp only [List.mem_map, List.mem_filter, decide_eq_true_eq]
  constructor
  · rintro ⟨⟨e, ⟨he, hle⟩, rfl⟩, hmatches⟩
    exact ⟨⟨⟨e, he, rfl⟩, hmatches⟩, hle⟩
  · rintro ⟨⟨⟨e, he, rfl⟩, hmatches⟩, hle⟩
    exact ⟨⟨e, ⟨he, hle⟩, rfl⟩, hmatches⟩

/-- The next read matches no more than the one before. -/
theorem matchesIn_from_length {last : Event} (hlast : last ∈ window log f) :
    (matchesIn log (f.from_ (last.time + 1))).length ≤ (matchesIn log f).length := by
  have hmatch : (f.from_ (last.time + 1)).matchReceipt = f.matchReceipt := rfl
  rw [matchesIn, matchesIn, window_from hlast, matching, matching, hmatch]
  exact ((List.filter_sublist.map receiptFrom).filter _).length_le

private theorem crowd_from {last : Event} (hlast : last ∈ window log f) (t : Nat) :
    crowd log (f.from_ (last.time + 1)) t = if t ≤ last.time then crowd log f t else 0 := by
  rw [crowd, crowd, window_from hlast, List.countP_filter]
  split_ifs with hle
  · refine List.countP_congr fun e _ => ?_
    simp only [Bool.and_eq_true, decide_eq_true_eq]
    exact ⟨fun h => h.1, fun h => ⟨h, by omega⟩⟩
  · refine List.countP_eq_zero.mpr fun e _ h => ?_
    simp only [Bool.and_eq_true, decide_eq_true_eq] at h
    omega

end Window

section Found

variable {log found : List Event} {f : ReceiptFilter} {limit k : Nat} {last : Event}

/-- A listing holds the window's events, whatever order it came in. -/
theorem Lists.mem (h : Lists log f.query found) {e : Event} : e ∈ found ↔ e ∈ window log f :=
  h.perm.mem_iff

/-- The receipts of a listing are those of the window up to their order. -/
theorem Lists.matching_perm (h : Lists log f.query found) :
    (matching f found).Perm (matchesIn log f) :=
  (h.perm.map receiptFrom).filter _

private theorem Lists.crowd_eq (h : Lists log f.query found) (t : Nat) :
    found.countP (·.time = t) = crowd log f t :=
  h.perm.countP_eq _

/-- What a list shows after one of its events is no newer than it. -/
theorem Lists.older (h : Lists log f.query found) (hlast : found[k]? = some last) {e : Event}
    (he : e ∈ found.drop k) :
    e.time ≤ last.time := by
  obtain ⟨hk, rfl⟩ := List.getElem?_eq_some_iff.mp hlast
  obtain ⟨i, hi, rfl⟩ := List.mem_iff_getElem.mp he
  rw [List.getElem_drop]
  rcases Nat.eq_zero_or_pos i with rfl | hpos
  · exact Nat.le_refl _
  · exact List.pairwise_iff_getElem.mp h.newest k (k + i) hk _ (by omega)

/-- What a list shows up to one of its events is no older than it. -/
theorem Lists.newer (h : Lists log f.query found) (hlast : found[k]? = some last) {e : Event}
    (he : e ∈ found.take (k + 1)) :
    last.time ≤ e.time := by
  obtain ⟨hk, rfl⟩ := List.getElem?_eq_some_iff.mp hlast
  obtain ⟨i, hi, rfl⟩ := List.mem_iff_getElem.mp he
  rw [List.length_take] at hi
  rw [List.getElem_take]
  rcases Nat.lt_or_ge i k with hlt | hge
  · exact List.pairwise_iff_getElem.mp h.newest i k _ hk hlt
  · obtain rfl : i = k := by omega
    exact Nat.le_refl _

/-- Where as many events as one read looks through share a time, the read stops at it or before. -/
theorem Lists.stops_at {t : Nat} (h : Lists log f.query found)
    (hcrowd : receiptScanCap ≤ crowd log f t) :
    ∃ last, found[receiptScanCap - 1]? = some last ∧ t ≤ last.time := by
  rw [← h.crowd_eq t] at hcrowd
  have hlength : receiptScanCap ≤ found.length := hcrowd.trans List.countP_le_length
  have hlast : found[receiptScanCap - 1]? = some found[receiptScanCap - 1] :=
    List.getElem?_eq_getElem (by
    have : 0 < receiptScanCap := by decide
    omega)
  refine ⟨_, hlast, ?_⟩
  by_contra hlt
  -- all events at that time come before the one it stops at
  have hnone : (found.drop (receiptScanCap - 1)).countP (·.time = t) = 0 := by
    refine List.countP_eq_zero.mpr fun e he htime => ?_
    have := h.older hlast he
    have := of_decide_eq_true htime
    omega
  have hsplit := congrArg (List.countP (fun e => decide (e.time = t)))
    (List.take_append_drop (receiptScanCap - 1) found)
  rw [List.countP_append, hnone] at hsplit
  have hle := (List.countP_le_length (p := fun e => decide (e.time = t))
    (l := found.take (receiptScanCap - 1)))
  rw [List.length_take] at hle
  have : 0 < receiptScanCap := by decide
  omega

/-- A read that stops past a crowd of its own time leaves fewer events to the next. -/
theorem Lists.shrinks (h : Lists log f.query found) (hlast : found[receiptScanCap - 1]? = some last)
    (huncrowded : crowd log f last.time < receiptScanCap) :
    (window log (f.from_ (last.time + 1))).length < (window log f).length := by
  rw [window_from (h.mem.mp (List.mem_of_getElem? hlast))]
  have hfewer : crowd log f last.time < (found.take receiptScanCap).length := by
    obtain ⟨hk, _⟩ := List.getElem?_eq_some_iff.mp hlast
    rw [List.length_take]
    omega
  rw [← h.crowd_eq] at hfewer
  obtain ⟨e, he, htime⟩ : ∃ e ∈ found.take receiptScanCap, e.time ≠ last.time := by
    by_contra hall
    push Not at hall
    refine absurd hfewer (Nat.not_lt.mpr ?_)
    rw [← List.countP_eq_length.mpr (fun e he => decide_eq_true (hall e he))]
    exact (List.take_sublist _ _).countP_le
  have hnewer := h.newer (k := receiptScanCap - 1) hlast he
  refine List.length_filter_lt_length_iff_exists.mpr ⟨e, h.mem.mp (List.mem_of_mem_take he), ?_⟩
  rw [decide_eq_true_eq]
  omega

/-- The matches of a window are those a read has looked through, and those up to where it
stopped. -/
theorem Lists.pages (h : Lists log f.query found) (hlast : found[receiptScanCap - 1]? = some last)
    {r : Receipt} :
    r ∈ matching f (found.take receiptScanCap) ∨ r ∈ matchesIn log (f.from_ (last.time + 1)) ↔
    r ∈ matchesIn log f := by
  rw [matchesIn_from (h.mem.mp (List.mem_of_getElem? hlast)), ← h.matching_perm.mem_iff, matching,
    matching, List.mem_filter, List.mem_filter]
  constructor
  · rintro (⟨hr, hmatches⟩ | ⟨hr, _⟩)
    · exact ⟨((List.take_sublist _ _).map _).subset hr, hmatches⟩
    · exact hr
  · rintro ⟨hr, hmatches⟩
    obtain ⟨e, he, rfl⟩ := List.mem_map.mp hr
    rw [← List.take_append_drop receiptScanCap found, List.mem_append] at he
    refine he.imp (fun he => ⟨List.mem_map_of_mem he, hmatches⟩) fun he => ⟨⟨hr, hmatches⟩, ?_⟩
    have hdrop : e ∈ found.drop (receiptScanCap - 1) :=
      (List.drop_sublist_drop_left _ (by omega)).subset he
    exact h.older hlast hdrop

end Found

section Reads

variable {s : Server} {om : (q : Request) → Answer q} {log : List Event} {limit : Nat}
  {f : ReceiptFilter} {cached : Option Pricer}

/-- One read that its limit does not end: the matches among as many events as it may look
through, and then the reads from where it stopped, if it did. -/
theorem readPages_step (hserves : Serves log om) (hlimit : 0 < limit)
    (hunreached : LimitUnreached s om limit f cached) :
    ∃ found page, Lists log f.query found ∧
    page.map Receipt.request = matching f (found.take receiptScanCap) ∧
      match found[receiptScanCap - 1]? with
      | some last => ∃ cached', LimitUnreached s om limit (f.from_ (last.time + 1)) cached' ∧
          ∀ n, readPages s om limit (n + 1) f cached =
            (page :: (readPages s om limit n (f.from_ (last.time + 1)) cached').1,
              (readPages s om limit n (f.from_ (last.time + 1)) cached').2)
      | none => ∀ n, readPages s om limit (n + 1) f cached = ([page], true) := by
  obtain ⟨found, page, cached', hlists, hread, hpage⟩ :=
    listReceipts_ok (s := s) hserves limit f hlimit cached
  have hstep : ∀ n, readPages s om limit (n + 1) f cached =
      if 0 < stopsAt limit f found then
        (page :: (readPages s om limit n (f.from_ (stopsAt limit f found)) cached').1,
          (readPages s om limit n (f.from_ (stopsAt limit f found)) cached').2)
      else ([page], true) := by
    intro n
    rw [readPages, hread]
  have hfirst : page.length < limit := by
    refine hunreached 1 page ?_
    rw [hstep 0]
    split_ifs <;> exact List.mem_cons_self
  have hfew : (matching f (found.take receiptScanCap)).length < limit := by
    have hlength := congrArg List.length hpage
    rw [List.length_map, List.length_take] at hlength
    omega
  rw [List.take_of_length_le hfew.le] at hpage
  refine ⟨found, page, hlists, hpage, ?_⟩
  rw [stopsAt, if_pos hfew] at hstep
  cases hlast : found[receiptScanCap - 1]? with
  | none => exact fun n => by rw [hstep n, hlast]; rfl
  | some last =>
    rw [hlast, Option.map_some, Option.getD_some] at hstep
    have hread n := (hstep n).trans (if_pos (by omega))
    refine ⟨cached', fun n older holder => hunreached (n + 1) older ?_, hread⟩
    rw [hread n]
    exact List.mem_cons_of_mem _ holder

/-- Where a time holds as many events as one read looks through, the reads do not get past it. -/
theorem readPages_stuck {t : Nat} (hserves : Serves log om) (hlimit : 0 < limit)
    (hunreached : LimitUnreached s om limit f cached) (hcrowd : receiptScanCap ≤ crowd log f t)
    (n : Nat) :
    (readPages s om limit n f cached).2 = false := by
  induction n generalizing f cached with
  | zero => rfl
  | succ n ih =>
    obtain ⟨found, page, hlists, _, hrest⟩ := readPages_step hserves hlimit hunreached
    obtain ⟨last, hlast, hle⟩ := hlists.stops_at hcrowd
    rw [hlast] at hrest
    obtain ⟨cached', hunreached', hstep⟩ := hrest
    rw [hstep n]
    refine ih hunreached' ?_
    rw [crowd_from (hlists.mem.mp (List.mem_of_getElem? hlast)), if_pos hle]
    exact hcrowd

/-- Reads that meet no crowded time come to the end, with every match in some page. -/
theorem readPages_whole (hserves : Serves log om) (hlimit : 0 < limit)
    (hunreached : LimitUnreached s om limit f cached)
    (huncrowded : ∀ t, crowd log f t < receiptScanCap) :
    ReadsWindow s om limit log f cached := by
  induction hsize : (window log f).length using Nat.strong_induction_on generalizing f cached with
  | _ size ih =>
    obtain ⟨found, page, hlists, hpage, hrest⟩ := readPages_step hserves hlimit hunreached
    cases hlast : found[receiptScanCap - 1]? with
    | none =>
      rw [hlast] at hrest
      have hshort : found.length ≤ receiptScanCap := by
        have := List.getElem?_eq_none_iff.mp hlast
        omega
      rw [List.take_of_length_le hshort] at hpage
      refine ⟨1, by rw [hrest 0], fun r => ?_⟩
      rw [hrest 0, ← hlists.matching_perm.mem_iff]
      simp only [List.mem_singleton, exists_eq_left, hpage]
    | some last =>
      rw [hlast] at hrest
      obtain ⟨cached', hunreached', hstep⟩ := hrest
      have hmem := hlists.mem.mp (List.mem_of_getElem? hlast)
      obtain ⟨n, hends, hholds⟩ :=
        ih _ (hsize ▸ hlists.shrinks hlast (huncrowded last.time)) hunreached'
        (fun t => by rw [crowd_from hmem]; split_ifs <;> [exact huncrowded t; exact Nat.zero_lt_succ _]) rfl
      refine ⟨n + 1, by rw [hstep n]; exact hends, fun r => ?_⟩
      rw [hstep n]
      simp only [List.mem_cons, exists_eq_or_imp, hpage, hholds]
      exact hlists.pages hlast

/-- Where fewer receipts match than are asked for, no page holds as many. -/
theorem limitUnreached_of_few (hserves : Serves log om) (hfew : (matchesIn log f).length < limit) :
    LimitUnreached s om limit f cached := by
  intro n
  induction n generalizing f cached with
  | zero => exact fun page hpage => absurd hpage List.not_mem_nil
  | succ n ih =>
    obtain ⟨found, page, cached', hlists, hread, hpage⟩ :=
      listReceipts_ok (s := s) hserves limit f (Nat.zero_lt_of_lt hfew) cached
    have hle : (matching f (found.take receiptScanCap)).length ≤ (matchesIn log f).length := by
      rw [← hlists.matching_perm.length_eq]
      exact (((List.take_sublist _ _).map receiptFrom).filter _).length_le
    rw [List.take_of_length_le (hle.trans hfew.le)] at hpage
    have hfirst : page.length < limit := by
      rw [← List.length_map, hpage]
      exact hle.trans_lt hfew
    rw [readPages, hread]
    simp only
    split_ifs with hmore
    · rw [stopsAt, if_pos (hle.trans_lt hfew)] at hmore ⊢
      cases hlast : found[receiptScanCap - 1]? with
      | none =>
        rw [hlast] at hmore
        exact absurd hmore (Int.lt_irrefl 0)
      | some last =>
        have hrest := matchesIn_from_length (hlists.mem.mp (List.mem_of_getElem? hlast))
        exact List.forall_mem_cons.mpr ⟨hfirst, ih (hrest.trans_lt hfew)⟩
    · exact List.forall_mem_singleton.mpr hfirst

/-- Reading on from where each read stops ends, and lists the whole window, if and
only if no time holds as many request events as one read looks through. -/
theorem readsWindow_iff_uncrowded (s : Server) (om : (q : Request) → Answer q) (log : List Event)
    (limit : Nat)
    (f : ReceiptFilter) (cached : Option Pricer) (hserves : Serves log om) (hlimit : 0 < limit)
    (hunreached : LimitUnreached s om limit f cached) :
    ReadsWindow s om limit log f cached ↔ ∀ t, crowd log f t < receiptScanCap := by
  refine ⟨fun hreads t => ?_, readPages_whole hserves hlimit hunreached⟩
  obtain ⟨n, hends, _⟩ := hreads
  by_contra hcrowd
  rw [readPages_stuck hserves hlimit hunreached (Nat.not_lt.mp hcrowd)] at hends
  cases hends

end Reads

/-- A server that knows no prices. -/
def plainServer : Server where
  now := 0
  normalizeModelID := Prod.mk
  parseFloat := fun _ => none
  roundUSD := id

/-- A served request of the research team. -/
def served (id : GoString) (time : Nat) : Event where
  id := id
  type := requestEvent
  subject := "k-1"
  time := time
  data := GoMap.ofList [("team", .text "research"), ("api_key", .text "k-1"),
    ("response_code", .text "200")]

/-- Another team has no requests among served ones. -/
theorem support_unserved {log : List Event} (h : ∀ e ∈ log, ∃ id time, served id time = e) :
    matchesIn log { team := ["support"] } = [] := by
  refine List.filter_eq_nil_iff.mpr fun r hr => ?_
  obtain ⟨e, he, rfl⟩ := List.mem_map.mp hr
  obtain ⟨id, time, rfl⟩ := h e (mem_window.mp he).1
  exact Bool.false_ne_true

/-- Served requests a second apart, the newest first. -/
def apart (n : Nat) : List Event := (List.range n).reverse.map (fun i => served (itoa i) (1000 * i))

/-- The requests of the log one second apart, by number. -/
theorem mem_apart {n : Nat} {e : Event} :
    e ∈ apart n ↔ ∃ i < n, served (itoa i) (1000 * i) = e := by
  simp only [apart, List.mem_map, List.mem_reverse, List.mem_range]

/-- No two of them share a time. -/
theorem apart_uncrowded (n : Nat) (f : ReceiptFilter) (t : Nat) : crowd (apart n) f t ≤ 1 := by
  have hnodup : ((apart n).map Event.time).Nodup := by
    rw [apart, List.map_map]
    refine (List.nodup_reverse.mpr List.nodup_range).map fun i j hij => ?_
    have htimes : 1000 * i = 1000 * j := hij
    omega
  have hcount := List.nodup_iff_count_le_one.mp hnodup t
  rw [List.count_eq_countP, List.countP_map] at hcount
  refine le_trans List.filter_sublist.countP_le
    (le_trans (List.countP_mono_left fun e _ htime => ?_) hcount)
  simpa using htime

private theorem apart_window (n : Nat) (team : List GoString) :
    window (apart n) { team := team } = apart n := by
  refine List.filter_eq_self.mpr fun e he => ?_
  obtain ⟨i, _, rfl⟩ := mem_apart.mp he
  rfl

/-- Another team's requests are looked for among more than one read looks through: the first
read does not come to the end, and the reads that go on do. -/
theorem support_read :
    ReadsWindow plainServer (openMeter (apart 6000)) 50 (apart 6000) { team := ["support"] } none ∧
    (readPages plainServer (openMeter (apart 6000)) 50 1 { team := ["support"] } none).2 =
      false := by
  have hserves := openMeter_serves (apart 6000)
  have hnone : matchesIn (apart 6000) { team := ["support"] } = [] := by
    refine support_unserved fun e he => ?_
    obtain ⟨i, _, heq⟩ := mem_apart.mp he
    exact ⟨_, _, heq⟩
  have hunreached : LimitUnreached plainServer (openMeter (apart 6000)) 50
      { team := ["support"] } none :=
    limitUnreached_of_few hserves (by rw [hnone]; decide)
  refine ⟨(readsWindow_iff_uncrowded plainServer (openMeter (apart 6000)) (apart 6000) 50
    { team := ["support"] } none
    hserves (by decide) hunreached).mpr fun t => (apart_uncrowded _ _ t).trans_lt (by decide), ?_⟩
  obtain ⟨found, page, hlists, _, hrest⟩ := readPages_step hserves (by decide) hunreached
  have hlength : found.length = 6000 := by
    have hsame := hlists.perm.length_eq
    change found.length = (window (apart 6000) { team := ["support"] }).length at hsame
    rw [hsame, apart_window, apart, List.length_map, List.length_reverse, List.length_range]
  rw [List.getElem?_eq_getElem (by rw [hlength]; decide)] at hrest
  obtain ⟨cached', _, hstep⟩ := hrest
  rw [hstep 0]
  rfl

/-- A second with as many requests as one read looks through. -/
def busySecond : List Event := (List.range 5000).map (fun i => served (itoa i) 5000)

private theorem busySecond_crowd :
    crowd busySecond { team := ["support"] } 5000 = receiptScanCap := by
  have hquery (id : GoString) :
    ({ team := ["support"] } : ReceiptFilter).query.matches (served id 5000) = true := rfl
  rw [crowd, window, busySecond, List.filter_eq_self.mpr, List.countP_eq_length.mpr,
    List.length_map, List.length_range]
  · rfl
  all_goals
    simp only [List.mem_map, forall_exists_index, and_imp, forall_apply_eq_imp_iff₂]
    intro i _
    first | exact hquery _ | rfl

/-- Who looks for another team's requests reads the busy second again and again. -/
theorem busySecond_read_forever : Serves busySecond (openMeter busySecond) ∧
    LimitUnreached plainServer (openMeter busySecond) 50 { team := ["support"] } none ∧
    ¬ ReadsWindow plainServer (openMeter busySecond) 50 busySecond
      { team := ["support"] } none := by
  have hserves := openMeter_serves busySecond
  have hnone : matchesIn busySecond { team := ["support"] } = [] := by
    refine support_unserved fun e he => ?_
    obtain ⟨i, _, heq⟩ := List.mem_map.mp he
    exact ⟨_, _, heq⟩
  have hunreached : LimitUnreached plainServer (openMeter busySecond) 50
      { team := ["support"] } none :=
    limitUnreached_of_few hserves (by rw [hnone]; decide)
  refine ⟨hserves, hunreached, fun ⟨n, hends, _⟩ => ?_⟩
  rw [readPages_stuck hserves (by decide) hunreached busySecond_crowd.ge] at hends
  cases hends

end openmeter
