import ServingPack.Console.Traffic

open golang concurrency openmeter

namespace trafficFeed

/-- How many matching receipts of the window share a time. -/
def hits (log : List Event) (q : ReceiptFilter) (t : Nat) : Nat :=
  (matchesIn log q).countP (·.ts = t)

/-- The request events of the window up to a time. -/
def upTo (log : List Event) (q : ReceiptFilter) (t : Nat) : List Event :=
  (window log q).filter (·.time ≤ t)

/-- The matches among the events that a read from a time looks through. -/
def found (log : List Event) (q : ReceiptFilter) (t : Nat) : List Receipt :=
  matching q ((upTo log q t).take receiptScanCap)

/-- Fewer matches share a time than a page holds, and fewer events than one read looks through. -/
structure Fits (log : List Event) (q : ReceiptFilter) (t : Nat) : Prop where
  hits : hits log q t < PAGE
  crowd : crowd log q t < receiptScanCap

/-- As many matches share a time as a page holds, one read finds them all, and no match is older. -/
structure Finishes (log : List Event) (q : ReceiptFilter) (t : Nat) : Prop where
  hits : hits log q t = PAGE
  found : PAGE ≤ (found log q t).length
  oldest : ∀ r ∈ matchesIn log q, t ≤ r.ts

/-- The events of a window that are not older than a time. -/
abbrev events (log : List Event) (q : ReceiptFilter) (t : Nat) : Nat :=
  notOlder Event.time (window log q) t

/-- The matches of a window that are not older than a time. -/
abbrev receipts (log : List Event) (q : ReceiptFilter) (t : Nat) : Nat :=
  notOlder Receipt.ts (matchesIn log q) t

section Counting

variable {log : List Event} {q : ReceiptFilter} {t t' : Nat}

private theorem events_eq_add : events log q t = events log q (t + 1) + crowd log q t :=
  Newest.notOlder_eq_add

private theorem receipts_eq_add : receipts log q t = receipts log q (t + 1) + hits log q t :=
  Newest.notOlder_eq_add

/-- What the events of some times match is what of the matches has these times. -/
theorem matching_filter_time (f : ReceiptFilter) (l : List Event) (p : Nat → Bool) :
    matching f (l.filter (fun e => p e.time)) = (matching f l).filter (fun r => p r.ts) := by
  rw [matching, matching, List.filter_map, List.filter_filter, List.filter_filter, List.filter_map]
  refine congrArg (List.map receiptFrom) (List.filter_congr fun e _ => ?_)
  exact Bool.and_comm _ _

/-- Receipts of events that come newest first come newest first. -/
theorem matching_newest {f : ReceiptFilter} {l : List Event} (h : Newest Event.time l) :
    Newest Receipt.ts (matching f l) :=
  List.Pairwise.filter _ (List.pairwise_map.mpr h)

/-- Fewer events give a prefix of the receipts: none is passed over. -/
theorem matching_take_isPrefix (f : ReceiptFilter) (l : List Event) (k : Nat) :
    matching f (l.take k) <+: matching f l :=
  ⟨matching f (l.drop k), by rw [← matching_append, List.take_append_drop]⟩

variable (h : Newest Event.time (window log q))
include h

/-- The events up to a time are the window's without those newer than it. -/
theorem upTo_eq_drop : upTo log q t = (window log q).drop (events log q (t + 1)) := by
  rw [← h.filter_older, upTo]
  refine List.filter_congr fun e _ => ?_
  rw [decide_eq_decide, Nat.lt_succ_iff]

private theorem matching_take_events :
    matching q ((window log q).take (events log q t)) =
      (matchesIn log q).take (receipts log q t) := by
  have hmatches : Newest Receipt.ts (matchesIn log q) := matching_newest h
  rw [← h.filter_notOlder, ← hmatches.filter_notOlder]
  exact matching_filter_time q (window log q) (fun time => decide (t ≤ time))

private theorem length_matching_take_events :
    (matching q ((window log q).take (events log q t))).length = receipts log q t := by
  rw [matching_take_events h, List.length_take, Nat.min_eq_left Newest.notOlder_le_length]

/-- The matches up to where a read from a time may look. -/
theorem length_scanned :
    (matching q ((window log q).take (events log q (t + 1) + receiptScanCap))).length =
    receipts log q (t + 1) + (found log q t).length := by
  rw [List.take_add, matching_append, List.length_append, length_matching_take_events h, found,
    upTo_eq_drop h]

private theorem matching_upTo :
    matching q (upTo log q t) = (matchesIn log q).drop (receipts log q (t + 1)) := by
  have hsplit : matching q ((window log q).take (events log q (t + 1))) ++
      matching q (upTo log q t) = matchesIn log q := by
    rw [upTo_eq_drop h, ← matching_append, List.take_append_drop, matchesIn]
  rw [← hsplit, matching_take_events h, List.drop_append, List.length_take,
    Nat.min_eq_left Newest.notOlder_le_length, Nat.sub_self, List.drop_zero,
    List.drop_eq_nil_of_le (by rw [List.length_take]; exact Nat.min_le_left _ _), List.nil_append]

/-- A page's receipts follow those newer than its bound, without a gap. -/
theorem found_eq : found log q t = ((matchesIn log q).drop (receipts log q (t + 1))).take
    (found log q t).length := by
  rw [← matching_upTo h]
  exact List.prefix_iff_eq_take.mp (matching_take_isPrefix q (upTo log q t) receiptScanCap)

private theorem receipts_le_found (hle : events log q t' ≤ events log q (t + 1) + receiptScanCap) :
    receipts log q t' ≤ receipts log q (t + 1) + (found log q t).length := by
  rw [← length_scanned h, ← length_matching_take_events h]
  have hprefix := matching_take_isPrefix q
    ((window log q).take (events log q (t + 1) + receiptScanCap)) (events log q t')
  rw [List.take_take, Nat.min_eq_left hle] at hprefix
  exact hprefix.length_le

private theorem found_le_receipts (hle : events log q (t + 1) + receiptScanCap ≤ events log q t') :
    receipts log q (t + 1) + (found log q t).length ≤ receipts log q t' := by
  rw [← length_scanned h, ← @length_matching_take_events log q t' h]
  have hprefix := matching_take_isPrefix q ((window log q).take (events log q t'))
    (events log q (t + 1) + receiptScanCap)
  rw [List.take_take, Nat.min_eq_left hle] at hprefix
  exact hprefix.length_le

private theorem le_event_iff {k : Nat} {e : Event} (he : (window log q)[k]? = some e) :
    t ≤ e.time ↔ k < events log q t := h.le_time_iff he

private theorem le_receipt_iff {k : Nat} {r : Receipt}
    (hr : (matchesIn log q)[k]? = some r) : t ≤ r.ts ↔ k < receipts log q t :=
  Newest.le_time_iff (matching_newest h) hr

end Counting

/-- A page that the server answers to a request from a time. -/
structure Answers (log : List Event) (q : ReceiptFilter) (t : Nat) (page : Page) : Prop where
  rows : page.rows.map Receipt.request = (found log q t).take PAGE
  more : page.continueBefore = if (found log q t).length < PAGE then
    (window log q)[events log q (t + 1) + (receiptScanCap - 1)]?.map (fun e => (e.time : Int) + 1)
      else none

/-- The list shows the first `p` matches, with all that are newer than a time, at
most a page that is not, and none that is older. -/
structure Shows (log : List Event) (q : ReceiptFilter) (feed : Feed) (t p : Nat) : Prop where
  rows : feed.rows.map Receipt.request = (matchesIn log q).take p
  loaded : feed.loaded = true
  newer : receipts log q (t + 1) ≤ p
  few : p ≤ receipts log q (t + 1) + PAGE
  upTo : p ≤ receipts log q t

/-- The list goes on from a time. -/
structure Waits (log : List Event) (q : ReceiptFilter) (feed : Feed) (t p : Nat) :
    Prop extends Shows log q feed t p where
  more : feed.reachedEnd = false
  before : feed.before = some ((t : Int) + 1)
  time : ∃ e ∈ window log q, e.time = t

/-- What comes of a page of older rows: the read has gone through the window, or
the page shows nothing new, or the list goes on from where the read stopped, or
from its oldest row. -/
inductive Loaded (log : List Event) (q : ReceiptFilter) (t p : Nat) (feed : Feed) : Prop where
  | all (hfew : (found log q t).length < PAGE)
    (hread : (window log q).length < events log q (t + 1) + receiptScanCap)
      (hended : feed.reachedEnd = true) (hrows : feed.rows.map Receipt.request = matchesIn log q)
  | repeated (hfull : PAGE ≤ (found log q t).length) (hp : p = receipts log q (t + 1) + PAGE)
      (hended : feed.reachedEnd = true) (hrows : feed.rows.map Receipt.request =
        (matchesIn log q).take p)
  | stopped {last : Event} (hfew : (found log q t).length < PAGE)
      (hlast : (window log q)[events log q (t + 1) + (receiptScanCap - 1)]? = some last)
      (hwaits : Waits log q feed last.time
        (max p (receipts log q (t + 1) + (found log q t).length)))
  | paged {r : Receipt} (hfull : PAGE ≤ (found log q t).length)
    (hp : p < receipts log q (t + 1) + PAGE)
      (hr : (matchesIn log q)[receipts log q (t + 1) + (PAGE - 1)]? = some r)
      (hwaits : Waits log q feed r.ts (receipts log q (t + 1) + PAGE))

section Pages

variable {log : List Event} {q : ReceiptFilter} {t p : Nat}

/-- The list endpoint answers a page's query with a page of the log. -/
theorem apiReceipts_answers {s : Server} {om : (q : Request) → Answer q}
    (hserves : ServesInOrder log om)
    {q' : ReceiptFilter} (hmatch : q'.matchReceipt = q.matchReceipt)
    (hwindow : window log q' = upTo log q t) (cached : Option Pricer) :
    ∃ page cached', ServerM.eval om (apiReceipts s q') cached = (.ok page, cached') ∧
    Answers log q t page := by
  have hnewest : Newest Event.time (window log q) := hserves.newest.filter _
  obtain ⟨done, cached', hread, hdone⟩ := listReceipts_honest (s := s) (f := q') hserves.serves
    (hserves.honest q'.query) (hserves.whole q'.query) (show 0 < PAGE by decide) cached
  have hfound : log.filter q'.query.matches = upTo log q t := hwindow
  have hmatching (l : List Event) : matching q' l = matching q l := by
    rw [matching, matching, hmatch]
  rw [hfound, hmatching] at hdone
  rw [hfound] at hread
  refine ⟨_, _, (ServerM.eval_bind_of_ok hread).trans rfl, hdone, ?_⟩
  simp only [stopsAt, hmatching]
  rw [upTo_eq_drop hnewest, List.getElem?_drop, ← upTo_eq_drop hnewest, ← found]
  split_ifs with hfew hpos hpos
  · cases hlast : (window log q)[events log q (t + 1) + (receiptScanCap - 1)]? with
    | none =>
      rw [hlast] at hpos
      exact absurd hpos (Int.lt_irrefl 0)
    | some last => rfl
  · cases hlast : (window log q)[events log q (t + 1) + (receiptScanCap - 1)]? with
    | none => rfl
    | some last =>
      rw [hlast, Option.map_some, Option.getD_some] at hpos
      omega
  · exact absurd hpos (Int.lt_irrefl 0)
  · rfl

private theorem unseen_request (rows page : List Receipt) : (unseen rows page).map Receipt.request =
    (page.map Receipt.request).filter (fun r => r.id ∉ (rows.map Receipt.request).map Receipt.id) := by
  rw [unseen, List.filter_map, List.map_map]
  rfl

/-- Of a page of a list that begins among its first `p`, the rest is new. -/
theorem filter_unseen {M : List Receipt} (hids : (M.map Receipt.id).Nodup) {j l p : Nat}
    (hjp : j ≤ p) :
    ((M.drop j).take l).filter (fun r => r.id ∉ (M.take p).map Receipt.id) = (M.drop p).take
    (l - (p - j)) := by
  have hsplit : (M.drop j).take l = ((M.take p).drop j).take l ++
      (M.drop p).take (l - (p - j)) := by
    rw [List.drop_take, ← Nat.sub_add_cancel hjp, ← Nat.add_comm j, ← List.drop_drop,
      Nat.add_sub_cancel_left]
    rcases Nat.le_total l (p - j) with hle | hle
    · rw [List.take_take, Nat.min_eq_left hle, Nat.sub_eq_zero_of_le hle, List.take_zero,
        List.append_nil]
    · rw [List.take_take, Nat.min_eq_right hle, ← List.take_add, Nat.add_sub_cancel' hle]
  have hold : (((M.take p).drop j).take l).filter (fun r => r.id ∉ (M.take p).map Receipt.id) =
      [] := by
    refine List.filter_eq_nil_iff.mpr fun r hr => ?_
    have hmem := List.mem_of_mem_drop (List.mem_of_mem_take hr)
    simp only [decide_eq_true_eq, not_not]
    exact List.mem_map_of_mem hmem
  have hnew : ((M.drop p).take (l - (p - j))).filter (fun r => r.id ∉ (M.take p).map Receipt.id) =
      (M.drop p).take (l - (p - j)) := by
    refine List.filter_eq_self.mpr fun r hr => ?_
    have hmem := List.mem_map_of_mem (f := Receipt.id) (List.mem_of_mem_take hr)
    rw [← List.take_append_drop p M, List.map_append] at hids
    rw [decide_eq_true_eq]
    exact fun hseen => List.disjoint_of_nodup_append hids hseen hmem
  rw [hsplit, List.filter_append, hold, hnew, List.nil_append]

private theorem getLast?_ts {rows : List Receipt} {M : List Receipt} {k : Nat} {r : Receipt}
    (hrows : rows.map Receipt.request = M.take (k + 1)) (hr : M[k]? = some r) :
    rows.getLast?.map Receipt.ts = some r.ts := by
  have hlast : (rows.map Receipt.request).getLast? = some r := by
    obtain ⟨hk, rfl⟩ := List.getElem?_eq_some_iff.mp hr
    rw [hrows, List.take_succ_eq_append_getElem hk, List.getLast?_append, List.getLast?_singleton,
      Option.some_or]
  rw [List.getLast?_map] at hlast
  obtain ⟨last, hmem, rfl⟩ := Option.map_eq_some_iff.mp hlast
  rw [hmem]
  rfl

/-- A list that goes on from where a read has stopped. -/
theorem stopped_waits {feed feed' : Feed} {last : Event}
    (hnewest : Newest Event.time (window log q)) (hshows : Shows log q feed t p)
    (hlast : (window log q)[events log q (t + 1) + (receiptScanCap - 1)]? = some last)
    (hfew : (found log q t).length < PAGE)
    (hrows : feed'.rows.map Receipt.request =
      (matchesIn log q).take (max p (receipts log q (t + 1) + (found log q t).length)))
    (hloaded : feed'.loaded = true) (hmore : feed'.reachedEnd = false)
    (hbefore : feed'.before = some ((last.time : Int) + 1)) :
    Waits log q feed' last.time (max p (receipts log q (t + 1) + (found log q t).length)) := by
  have hcap : 0 < receiptScanCap := by decide
  have hthere : events log q (t + 1) + (receiptScanCap - 1) < events log q last.time :=
    (le_event_iff hnewest hlast).mp le_rfl
  have hpast : events log q (last.time + 1) ≤ events log q (t + 1) + (receiptScanCap - 1) :=
    Nat.not_lt.mp fun h => absurd ((le_event_iff hnewest hlast).mpr h) (Nat.not_succ_le_self _)
  have hle : last.time ≤ t := Nat.not_lt.mp fun (h : t + 1 ≤ last.time) => by
    have := (le_event_iff hnewest hlast).mp h
    omega
  have hnewer := @receipts_le_found log q t (last.time + 1) hnewest (by omega)
  have hupTo := @found_le_receipts log q t last.time hnewest (by omega)
  have hfewer : receipts log q (t + 1) ≤ receipts log q (last.time + 1) :=
    Newest.notOlder_anti (by omega)
  have holder : receipts log q t ≤ receipts log q last.time := Newest.notOlder_anti hle
  have hfewShown := hshows.few
  have hupToShown := hshows.upTo
  exact {
    rows := hrows
    loaded := hloaded
    newer := by omega
    few := by omega
    upTo := by omega
    more := hmore
    before := hbefore
    time := ⟨last, List.mem_of_getElem? hlast, rfl⟩ }

/-- A list that goes on from its oldest row. -/
theorem paged_waits {feed : Feed} {r : Receipt} (hnewest : Newest Event.time (window log q))
    (hr : (matchesIn log q)[receipts log q (t + 1) + (PAGE - 1)]? = some r)
    (hrows : feed.rows.map Receipt.request = (matchesIn log q).take (receipts log q (t + 1) + PAGE))
    (hloaded : feed.loaded = true) (hmore : feed.reachedEnd = false)
    (hcontinue : feed.continueBefore = none) :
    Waits log q feed r.ts (receipts log q (t + 1) + PAGE) := by
  have hpage : 0 < PAGE := by decide
  have hthere : receipts log q (t + 1) + (PAGE - 1) < receipts log q r.ts :=
    (le_receipt_iff hnewest hr).mp le_rfl
  have hpast : receipts log q (r.ts + 1) ≤ receipts log q (t + 1) + (PAGE - 1) :=
    Nat.not_lt.mp fun h => absurd ((le_receipt_iff hnewest hr).mpr h) (Nat.not_succ_le_self _)
  have hle : r.ts ≤ t := Nat.not_lt.mp fun (h : t + 1 ≤ r.ts) => by
    have := (le_receipt_iff hnewest hr).mp h
    omega
  have hfewer : receipts log q (t + 1) ≤ receipts log q (r.ts + 1) :=
    Newest.notOlder_anti (by omega)
  obtain ⟨e, he, hreceipt⟩ := List.mem_map.mp (List.mem_of_mem_filter (List.mem_of_getElem? hr))
  have hlast : feed.rows.getLast?.map Receipt.ts = some r.ts :=
    getLast?_ts (by rw [hrows]; congr 1) hr
  exact {
    rows := hrows
    loaded := hloaded
    newer := by omega
    few := by omega
    upTo := by omega
    more := hmore
    before := by
      obtain ⟨row, hrow, hts⟩ := Option.map_eq_some_iff.mp hlast
      rw [Feed.before, hcontinue, hrow, ← hts]
      rfl
    time := ⟨e, he, by rw [← hreceipt]; rfl⟩ }

/-- A page of older rows, from a time on. -/
theorem older_loaded {feed : Feed} {page : Page} (hnewest : Newest Event.time (window log q))
    (hids : ((matchesIn log q).map Receipt.id).Nodup) (hshows : Shows log q feed t p)
    (hpage : Answers log q t page) :
    Loaded log q t p (feed.older page) := by
  have hlength : page.rows.length = min PAGE (found log q t).length := by
    rw [← List.length_map (f := Receipt.request), hpage.rows, List.length_take]
  have hpageRows : page.rows.map Receipt.request =
      ((matchesIn log q).drop (receipts log q (t + 1))).take (min PAGE (found log q t).length) := by
    rw [hpage.rows]
    exact (congrArg (List.take PAGE) (found_eq hnewest)).trans List.take_take
  have hnew : (unseen feed.rows page.rows).map Receipt.request =
      ((matchesIn log q).drop p).take
        (min PAGE (found log q t).length - (p - receipts log q (t + 1))) := by
    rw [unseen_request, hshows.rows, hpageRows, filter_unseen hids hshows.newer]
  have hrows : (feed.older page).rows.map Receipt.request =
      (matchesIn log q).take
        (max p (receipts log q (t + 1) + min PAGE (found log q t).length)) := by
    have hnewer := hshows.newer
    rw [Feed.older, List.map_append, hshows.rows, hnew, ← List.take_add]
    congr 1
    omega
  have hmore := hpage.more
  by_cases hfew : (found log q t).length < PAGE
  · rw [if_pos hfew] at hmore
    rw [Nat.min_eq_right hfew.le] at hrows hlength
    cases hlast : (window log q)[events log q (t + 1) + (receiptScanCap - 1)]? with
    | none =>
      rw [hlast, Option.map_none] at hmore
      have hread : (window log q).length < events log q (t + 1) + receiptScanCap := by
        have := List.getElem?_eq_none_iff.mp hlast
        have : 0 < receiptScanCap := by decide
        omega
      have hwhole := @receipts_le_found log q t 0 hnewest (Newest.notOlder_le_length.trans hread.le)
      refine .all hfew hread ?_ ?_
      · simp only [Feed.older, hmore, hlength, decide_eq_true hfew, decide_true, Bool.true_or,
          Bool.and_self]
      · rw [hrows, List.take_of_length_le]
        rw [receipts, Newest.notOlder_zero] at hwhole
        omega
    | some last =>
      rw [hlast, Option.map_some] at hmore
      refine .stopped hfew hlast (stopped_waits hnewest hshows hlast hfew hrows ?_ ?_ ?_)
      · exact hshows.loaded
      · simp only [Feed.older, hmore, reduceCtorEq, decide_false, Bool.false_and]
      · rw [Feed.before, Feed.older, hmore]
        rfl
  · have hfull := Nat.not_lt.mp hfew
    rw [if_neg hfew] at hmore
    rw [Nat.min_eq_left hfull] at hrows hlength hnew
    have hnewer := hshows.newer
    have hsome : receipts log q (t + 1) + PAGE ≤ (matchesIn log q).length := by
      have hle := congrArg List.length (found_eq (t := t) hnewest)
      rw [List.length_take, List.length_drop] at hle
      have : 0 < PAGE := by decide
      omega
    by_cases hp : p < receipts log q (t + 1) + PAGE
    · have hpos : (unseen feed.rows page.rows) ≠ [] := by
        refine List.ne_nil_of_length_pos ?_
        rw [← List.length_map (f := Receipt.request), hnew, List.length_take, List.length_drop]
        omega
      have hin : receipts log q (t + 1) + (PAGE - 1) < (matchesIn log q).length := by
        have : 0 < PAGE := by decide
        omega
      rw [Nat.max_eq_right hp.le] at hrows
      refine .paged hfull hp (List.getElem?_eq_getElem hin)
        (paged_waits hnewest (List.getElem?_eq_getElem _) hrows hshows.loaded ?_ hmore)
      simp only [Feed.older, hlength, Nat.lt_irrefl, hpos, decide_false, Bool.or_self,
        Bool.and_false]
    · have hfewShown := hshows.few
      rw [Nat.max_eq_left (by omega)] at hrows
      refine .repeated hfull (by omega) ?_ hrows
      have hnone : unseen feed.rows page.rows = [] := by
        refine List.map_eq_nil_iff.mp (hnew.trans ?_)
        rw [Nat.sub_eq_zero_of_le (by omega), List.take_zero]
      simp only [Feed.older, hmore, hnone, decide_true, Bool.or_true, Bool.and_self]

/-- A read that finds less than a page does not get past a time that does not fit. -/
theorem stops_at {t₀ : Nat} (hnewest : Newest Event.time (window log q))
    (hcrowded : ¬ Fits log q t₀) (hle : t₀ ≤ t) (hfew : (found log q t).length < PAGE) :
    events log q (t + 1) + receiptScanCap ≤ events log q t₀ := by
  by_contra hpast
  have hwhole := @receipts_le_found log q t t₀ hnewest (by omega)
  have hevents := @events_eq_add log q t₀
  have hreceipts := @receipts_eq_add log q t₀
  have hevents' : events log q (t + 1) ≤ events log q (t₀ + 1) := Newest.notOlder_anti (by omega)
  have hreceipts' : receipts log q (t + 1) ≤ receipts log q (t₀ + 1) :=
    Newest.notOlder_anti (by omega)
  exact hcrowded ⟨by omega, by omega⟩

/-- A full page does not get past a time that does not fit. -/
theorem pages_at {t₀ : Nat} (hnewest : Newest Event.time (window log q))
    (hcrowded : ¬ Fits log q t₀) (hle : t₀ ≤ t)
    (hfull : PAGE ≤ (found log q t).length) :
    receipts log q (t + 1) + PAGE ≤ receipts log q t₀ := by
  by_contra hpast
  have hevents := @events_eq_add log q t₀
  have hreceipts := @receipts_eq_add log q t₀
  have hevents' : events log q (t + 1) ≤ events log q (t₀ + 1) := Newest.notOlder_anti (by omega)
  have hreceipts' : receipts log q (t + 1) ≤ receipts log q (t₀ + 1) :=
    Newest.notOlder_anti (by omega)
  by_cases hread : events log q (t + 1) + receiptScanCap ≤ events log q t₀
  · have := found_le_receipts hnewest hread
    omega
  · exact hcrowded ⟨by omega, by omega⟩

end Pages

section Runs

variable {keyID : GoString → GoString} {s : Server} {om : (q : Request) → Answer q} {f : Filters}
  {w : TrafficWindow} {log : List Event} {t p : Nat}

/-- The rows asked for below an event of the window are a page from its time. -/
theorem apiReceipts_older (hserves : ServesInOrder log om) {e : Event}
    (he : e ∈ window log (queryString keyID f w)) (cached : Option Pricer) :
    ∃ page cached', ServerM.eval om
        (apiReceipts s (queryString keyID f { w with before := some ((e.time : Int) + 1) }))
        cached = (.ok page, cached') ∧
      Answers log (queryString keyID f w) e.time page := by
  have hquery : queryString keyID f { w with before := some ((e.time : Int) + 1) } =
      (queryString keyID f w).from_ ((e.time : Int) + 1) := rfl
  have hmatch : ((queryString keyID f w).from_ ((e.time : Int) + 1)).matchReceipt =
      (queryString keyID f w).matchReceipt := rfl
  rw [hquery]
  exact apiReceipts_answers hserves hmatch (window_from he) cached

/-- Asking for older rows from where the list goes on. -/
theorem loadOlder_loaded (hserves : ServesInOrder log om)
    (hids : ((matchesIn log (queryString keyID f w)).map Receipt.id).Nodup) {feed : Feed}
    (hwaits : Waits log (queryString keyID f w) feed t p) (cached : Option Pricer) :
    ∃ feed' cached', loadOlder keyID s om f w feed cached = (feed', cached') ∧
      Loaded log (queryString keyID f w) t p feed' := by
  obtain ⟨e, he, rfl⟩ := hwaits.time
  obtain ⟨page, cached', hread, hpage⟩ :=
    apiReceipts_older (s := s) hserves he cached
  refine ⟨feed.older page, cached', ?_,
    older_loaded (hserves.newest.filter _) hids hwaits.toShows hpage⟩
  rw [loadOlder, hwaits.more, hwaits.loaded, if_neg (by decide), hwaits.before]
  simp only
  rw [hread]

private theorem first_eq_older (page : Page) :
    ({} : Feed).first page = ({ loaded := true } : Feed).older page := by
  have hall : unseen [] page.rows = page.rows := List.filter_eq_self.mpr fun _ _ => rfl
  have hempty : (decide (page.rows.length < PAGE) || decide (page.rows = [])) =
      decide (page.rows.length < PAGE) := by
    cases hrows : page.rows with
    | nil => rfl
    | cons r rest => rw [decide_eq_false (List.cons_ne_nil r rest), Bool.or_false]
  rw [Feed.first, Feed.older]
  simp only [hall, mergeNewer, if_true, List.nil_append, hempty]
  rw [Bool.and_comm]

/-- The first page is one from the newest time of the window. -/
theorem loadFirst_loaded (hserves : ServesInOrder log om)
    (hids : ((matchesIn log (queryString keyID f w)).map Receipt.id).Nodup)
    (hnewest : ∀ e ∈ window log (queryString keyID f w), e.time ≤ t) (cached : Option Pricer) :
    ∃ feed cached', loadFirst keyID s om f w cached = (feed, cached') ∧
      Loaded log (queryString keyID f w) t 0 feed := by
  have hall : window log (queryString keyID f w) = upTo log (queryString keyID f w) t :=
    (List.filter_eq_self.mpr fun e he => decide_eq_true (hnewest e he)).symm
  have hnone : receipts log (queryString keyID f w) (t + 1) = 0 := by
    refine List.countP_eq_zero.mpr fun r hr hlt => ?_
    obtain ⟨e, he, rfl⟩ := List.mem_map.mp (List.mem_of_mem_filter hr)
    have := hnewest e he
    have hts : t + 1 ≤ e.time := of_decide_eq_true hlt
    omega
  obtain ⟨page, cached', hread, hpage⟩ :=
    apiReceipts_answers (s := s) (q := queryString keyID f w) hserves
    (Eq.refl (queryString keyID f w).matchReceipt) hall cached
  refine ⟨({ loaded := true } : Feed).older page, cached', ?_,
    older_loaded (hserves.newest.filter _) hids ⟨rfl, rfl, by omega, by omega, by omega⟩ hpage⟩
  rw [loadFirst, hread, ← first_eq_older]

/-- A list that has come to its end stays as it is. -/
theorem loadOlders_ended (n : Nat) {feed : Feed} (hended : feed.reachedEnd = true)
    (cached : Option Pricer) :
    loadOlders keyID s om f w n (feed, cached) = (feed, cached) := by
  induction n with
  | zero => rfl
  | succ n ih =>
    rw [loadOlders, loadOlder, hended, Bool.true_or, if_pos rfl]
    exact ih

private theorem Finishes.not_fits {q : ReceiptFilter} (h : Finishes log q t) : ¬ Fits log q t :=
  fun hfits => absurd h.hits (Nat.ne_of_lt hfits.hits)

/-- A list whose rows are all the matches. -/
def Complete (log : List Event) (q : ReceiptFilter) (feed : Feed) : Prop :=
  feed.reachedEnd = true ∧ feed.rows.map Receipt.request = matchesIn log q

/-- Where each time fits, or comes before one that finishes, the list gets to its end with all
matches. The induction is on the time the list goes on from, and then on what it shows of it.
-/
theorem loadOlders_complete (hserves : ServesInOrder log om)
    (hids : ((matchesIn log (queryString keyID f w)).map Receipt.id).Nodup)
    (hfits : ∀ t, Fits log (queryString keyID f w) t ∨
      ∃ t' ≥ t, Finishes log (queryString keyID f w) t')
    {feed : Feed} (hpast : ∀ t', Finishes log (queryString keyID f w) t' → t' ≤ t)
    (hloaded : Loaded log (queryString keyID f w) t p feed)
    (hshown : p ≤ receipts log (queryString keyID f w) t) (cached : Option Pricer) :
    ∃ n, Complete log (queryString keyID f w) (loadOlders keyID s om f w n (feed, cached)).1 := by
  have hnewest : Newest Event.time (window log (queryString keyID f w)) := hserves.newest.filter _
  induction hsize : (PAGE + 1) * t + (receipts log (queryString keyID f w) (t + 1) + PAGE - p)
    using Nat.strong_induction_on generalizing t p feed cached with
  | _ size ih =>
    have hnow : Fits log (queryString keyID f w) t ∨ Finishes log (queryString keyID f w) t := by
      refine (hfits t).imp_right fun ⟨t', hle, hfinishes⟩ => ?_
      rwa [← Nat.le_antisymm (hpast t' hfinishes) hle]
    -- what the list shows next: older times, or all matches of this one
    have hnext {t' p' : Nat} (hwaits : Waits log (queryString keyID f w) feed t' p')
        (hlater : ∀ t'', Finishes log (queryString keyID f w) t'' → t'' ≤ t')
        (hless : t' < t ∨ t' = t ∧ p < p' ∧
          p' ≤ receipts log (queryString keyID f w) (t + 1) + PAGE) :
        ∃ n, Complete log (queryString keyID f w)
          (loadOlders keyID s om f w n (feed, cached)).1 := by
      obtain ⟨feed', cached', hload, hloaded'⟩ :=
        loadOlder_loaded (s := s) hserves hids hwaits cached
      have hsmaller : (PAGE + 1) * t' +
          (receipts log (queryString keyID f w) (t' + 1) + PAGE - p') < size := by
        have := hwaits.newer
        rcases hless with hlt | ⟨rfl, hmore, hle⟩
        · have := Nat.mul_le_mul_left (PAGE + 1) (Nat.succ_le_of_lt hlt)
          rw [Nat.mul_succ] at this
          omega
        · omega
      obtain ⟨n, hcomplete⟩ := ih _ hsmaller hlater hloaded' hwaits.upTo cached' rfl
      refine ⟨n + 1, ?_⟩
      rw [loadOlders, hload]
      exact hcomplete
    have hevents := @events_eq_add log (queryString keyID f w) t
    have hreceipts := @receipts_eq_add log (queryString keyID f w) t
    cases hloaded with
    | all hfew hread hended hrows => exact ⟨0, hended, hrows⟩
    | repeated hfull hp hended hrows =>
      refine ⟨0, hended, hrows.trans (List.take_of_length_le ?_)⟩
      rcases hnow with hfit | hfinish
      · have := hfit.hits
        omega
      · have hall : receipts log (queryString keyID f w) t =
            (matchesIn log (queryString keyID f w)).length :=
          List.countP_eq_length.mpr fun r hr => decide_eq_true (hfinish.oldest r hr)
        have := hfinish.hits
        omega
    | @stopped last hfew hlast hwaits =>
      have hfit := hnow.resolve_right fun hfinish => absurd hfinish.found (Nat.not_le.mpr hfew)
      refine hnext hwaits (fun t' hfinish => (le_event_iff hnewest hlast).mpr ?_) (Or.inl ?_)
      · have := stops_at hnewest hfinish.not_fits (hpast t' hfinish) hfew
        have : 0 < receiptScanCap := by decide
        omega
      · refine Nat.not_le.mp fun hle => ?_
        have := (le_event_iff hnewest hlast).mp hle
        have := hfit.crowd
        omega
    | @paged r hfull hp hr hwaits =>
      refine hnext hwaits (fun t' hfinish => (le_receipt_iff hnewest hr).mpr ?_) ?_
      · have := pages_at hnewest hfinish.not_fits (hpast t' hfinish) hfull
        have : 0 < PAGE := by decide
        omega
      · have hle : r.ts ≤ t := Nat.not_lt.mp fun (h : t + 1 ≤ r.ts) => by
          have := (le_receipt_iff hnewest hr).mp h
          omega
        rcases Nat.lt_or_eq_of_le hle with hlt | heq
        · exact Or.inl hlt
        · exact Or.inr ⟨heq, hp, le_rfl⟩

/-- A list that has come to its end too early, or that goes on from a time `t₀` or later. -/
def Falls (log : List Event) (q : ReceiptFilter) (t₀ : Nat) (feed : Feed) : Prop :=
  (feed.reachedEnd = true ∧ (feed.rows.map Receipt.request).length < (matchesIn log q).length) ∨
    ∃ t p, t₀ ≤ t ∧ Waits log q feed t p

/-- Where a time does not fit, and none from it on finishes, no page gets past it and comes to
the right end. -/
theorem Loaded.falls {q : ReceiptFilter} {t₀ : Nat} (hnewest : Newest Event.time (window log q))
    (hcrowded : ¬ Fits log q t₀)
    (hunfinished : ∀ t ≥ t₀, ¬ Finishes log q t) (hle : t₀ ≤ t) {feed : Feed}
    (hloaded : Loaded log q t p feed) (hshown : p ≤ receipts log q t) : Falls log q t₀ feed := by
  cases hloaded with
  | all hfew hread hended hrows =>
    have hstops := stops_at hnewest hcrowded hle hfew
    have hall : events log q t₀ ≤ (window log q).length := Newest.notOlder_le_length
    omega
  | repeated hfull hp hended hrows =>
    refine Or.inl ⟨hended, ?_⟩
    by_contra hall
    rw [hrows, List.length_take] at hall
    have hsplit := @receipts_eq_add log q t
    have hmost : receipts log q t ≤ (matchesIn log q).length := Newest.notOlder_le_length
    -- the rows that were shown already are all matches, and all of this time
    have hwhole : receipts log q t = (matchesIn log q).length := by omega
    refine hunfinished t hle ⟨by omega, hfull, fun r hr => ?_⟩
    exact of_decide_eq_true (List.countP_eq_length.mp hwhole r hr)
  | @stopped last hfew hlast hwaits =>
    refine Or.inr ⟨last.time, _, (le_event_iff hnewest hlast).mpr ?_, hwaits⟩
    have hstops := stops_at hnewest hcrowded hle hfew
    have : 0 < receiptScanCap := by decide
    omega
  | @paged r hfull hp hr hwaits =>
    refine Or.inr ⟨r.ts, _, (le_receipt_iff hnewest hr).mpr ?_, hwaits⟩
    have hpages := pages_at hnewest hcrowded hle hfull
    have : 0 < PAGE := by decide
    omega

private theorem loadOlders_falls {t₀ : Nat} (hserves : ServesInOrder log om)
    (hids : ((matchesIn log (queryString keyID f w)).map Receipt.id).Nodup)
    (hcrowded : ¬ Fits log (queryString keyID f w) t₀)
    (hunfinished : ∀ t ≥ t₀, ¬ Finishes log (queryString keyID f w) t) {feed : Feed}
    (hfalls : Falls log (queryString keyID f w) t₀ feed) (cached : Option Pricer) (n : Nat) :
    Falls log (queryString keyID f w) t₀ (loadOlders keyID s om f w n (feed, cached)).1 := by
  induction n generalizing feed cached with
  | zero => exact hfalls
  | succ n ih =>
    rcases hfalls with ⟨hended, hshort⟩ | ⟨t, p, hle, hwaits⟩
    · rw [loadOlders_ended (n + 1) hended]
      exact Or.inl ⟨hended, hshort⟩
    · obtain ⟨feed', cached', hload, hloaded⟩ :=
        loadOlder_loaded (s := s) hserves hids hwaits cached
      rw [loadOlders, hload]
      exact ih (hloaded.falls (hserves.newest.filter _) hcrowded hunfinished hle hwaits.upTo)
        cached'

private theorem listsWindow_of_fits (hserves : ServesInOrder log om)
    (hids : ((matchesIn log (queryString keyID f w)).map Receipt.id).Nodup)
    (hfits : ∀ t, Fits log (queryString keyID f w) t ∨
      ∃ t' ≥ t, Finishes log (queryString keyID f w) t')
    (cached : Option Pricer) : ListsWindow keyID s om f w log cached := by
  have hnewest : Newest Event.time (window log (queryString keyID f w)) := hserves.newest.filter _
  obtain ⟨newest, hbound⟩ := hnewest.exists_newest
  obtain ⟨feed, cached', hfirst, hloaded⟩ := loadFirst_loaded (s := s) hserves hids hbound cached
  have hpast : ∀ t', Finishes log (queryString keyID f w) t' → t' ≤ newest := by
    intro t' hfinishes
    obtain ⟨r, hr, hts⟩ := List.countP_pos_iff.mp (hfinishes.hits ▸ (by decide : 0 < PAGE))
    obtain ⟨e, he, rfl⟩ := List.mem_map.mp (List.mem_of_mem_filter hr)
    rw [← of_decide_eq_true hts]
    exact hbound e he
  obtain ⟨n, hended, hrows⟩ :=
    loadOlders_complete hserves hids hfits hpast hloaded (Nat.zero_le _) cached'
  refine ⟨n, ?_⟩
  rw [hfirst]
  refine ⟨hended, hrows ▸ List.Perm.refl _, ?_⟩
  have hsorted : Newest Receipt.ts (matchesIn log (queryString keyID f w)) :=
    matching_newest hnewest
  rw [← hrows, Newest, List.pairwise_map] at hsorted
  exact hsorted

private theorem not_listsWindow {t₀ : Nat} (hserves : ServesInOrder log om)
    (hids : ((matchesIn log (queryString keyID f w)).map Receipt.id).Nodup)
    (hunfit : ¬ Fits log (queryString keyID f w) t₀)
    (hunfinished : ∀ t ≥ t₀, ¬ Finishes log (queryString keyID f w) t) (cached : Option Pricer) :
    ¬ ListsWindow keyID s om f w log cached := by
  rintro ⟨n, hended, hperm, _⟩
  have hnewest : Newest Event.time (window log (queryString keyID f w)) := hserves.newest.filter _
  obtain ⟨newest, hbound⟩ := hnewest.exists_newest
  obtain ⟨feed, cached', hfirst, hloaded⟩ :=
    loadFirst_loaded (s := s) (t := max t₀ newest) hserves hids
    (fun e he => (hbound e he).trans (Nat.le_max_right _ _)) cached
  rw [hfirst] at hended hperm
  have hfalls := hloaded.falls hnewest hunfit hunfinished (Nat.le_max_left _ _) (Nat.zero_le _)
  rcases loadOlders_falls (s := s) hserves hids hunfit hunfinished hfalls cached' n
    with ⟨_, hshort⟩ | ⟨t, p, _, hwaits⟩
  · exact absurd hperm.length_eq (Nat.ne_of_lt hshort)
  · rw [hwaits.more] at hended
    cases hended

/-- Loading the first page and then older rows comes to the end with each match of the
window once, newest first, if and only if each time has fewer matches than a page holds and
fewer events than a read looks through, or is not newer than one that fills a last page. -/
theorem listsWindow_iff (keyID : GoString → GoString) (s : Server) (om : (q : Request) → Answer q)
    (f : Filters)
    (w : TrafficWindow) (log : List Event) (cached : Option Pricer) (hserves : ServesInOrder log om)
    (hids : ((matchesIn log (queryString keyID f w)).map Receipt.id).Nodup) :
    ListsWindow keyID s om f w log cached ↔
      ∀ t, Fits log (queryString keyID f w) t ∨
      ∃ t' ≥ t, Finishes log (queryString keyID f w) t' := by
  refine ⟨fun hlists t₀ => ?_, fun hfits => listsWindow_of_fits hserves hids hfits cached⟩
  by_contra hcrowded
  obtain ⟨hunfit, hunfinished⟩ := not_or.mp hcrowded
  push Not at hunfinished
  exact not_listsWindow hserves hids hunfit hunfinished cached hlists

end Runs

/-- No more receipts of a time match than it has events. -/
theorem hits_le_crowd (log : List Event) (q : ReceiptFilter) (t : Nat) :
    hits log q t ≤ crowd log q t := by
  refine List.filter_sublist.countP_le.trans (le_of_eq ?_)
  rw [List.countP_map]
  rfl

/-- What is looked through is served requests that all match. -/
theorem served_matches {log : List Event} (h : ∀ e ∈ log, ∃ id time, served id time = e) :
    matchesIn log (queryString id {} ⟨0, none⟩) = log.map receiptFrom := by
  rw [matchesIn, window, List.filter_eq_self.mpr, matching, List.filter_eq_self.mpr]
  · intro r hr
    obtain ⟨e, he, rfl⟩ := List.mem_map.mp hr
    obtain ⟨id, time, rfl⟩ := h e he
    rfl
  · intro e he
    obtain ⟨id, time, rfl⟩ := h e he
    rfl

private theorem apart_matches (n : Nat) :
    matchesIn (apart n) (queryString id {} ⟨0, none⟩) = (apart n).map receiptFrom := by
  refine served_matches fun e he => ?_
  obtain ⟨i, _, heq⟩ := mem_apart.mp he
  exact ⟨_, _, heq⟩

/-- The requests of some minutes, a second apart, are listed over two pages. -/
theorem two_pages_listed :
    ListsWindow id plainServer (openMeter (apart 250)) {} ⟨0, none⟩ (apart 250) none ∧
    PAGE < (matchesIn (apart 250) (queryString id {} ⟨0, none⟩)).length := by
  have hserves : ServesInOrder (apart 250) (openMeter (apart 250)) := by
    refine openMeter_servesInOrder (List.pairwise_map.mpr (List.pairwise_reverse.mpr ?_))
    refine List.pairwise_lt_range.imp fun {i j} hlt => ?_
    show 1000 * i ≤ 1000 * j
    omega
  have hids : ((matchesIn (apart 250) (queryString id {} ⟨0, none⟩)).map Receipt.id).Nodup := by
    rw [apart_matches, apart, List.map_map, List.map_map]
    exact (List.nodup_reverse.mpr List.nodup_range).map itoa_injective
  refine ⟨(listsWindow_iff id plainServer (openMeter (apart 250)) {} ⟨0, none⟩
    (apart 250) none hserves hids).mpr
    fun t => .inl ⟨?_, ?_⟩, ?_⟩
  · exact ((hits_le_crowd _ _ _).trans (apart_uncrowded _ _ t)).trans_lt (by decide)
  · exact (apart_uncrowded _ _ t).trans_lt (by decide)
  · rw [apart_matches, apart, List.length_map, List.length_map, List.length_reverse,
      List.length_range]
    decide

/-- A second with one match more than a page holds. -/
def fullSecond : List Event := (List.range (PAGE + 1)).map (fun i => served (itoa i) 5000)

private theorem fullSecond_matches :
    matchesIn fullSecond (queryString id {} ⟨0, none⟩) = fullSecond.map receiptFrom := by
  refine served_matches fun e he => ?_
  obtain ⟨i, _, heq⟩ := List.mem_map.mp he
  exact ⟨_, _, heq⟩

private theorem fullSecond_hits (t : Nat) :
    hits fullSecond (queryString id {} ⟨0, none⟩) t = if t = 5000 then PAGE + 1 else 0 := by
  have hts (i : Nat) : (receiptFrom (served (itoa i) 5000)).ts = 5000 := rfl
  rw [hits, fullSecond_matches, fullSecond, List.map_map, List.countP_map]
  split_ifs with ht
  · refine (List.countP_eq_length.mpr fun i _ => decide_eq_true ?_).trans List.length_range
    exact (hts i).trans ht.symm
  · exact List.countP_eq_zero.mpr fun i _ h => ht ((of_decide_eq_true h).symm.trans (hts i))

/-- The page after the first shows nothing new, and the last match is not listed. -/
theorem fullSecond_cut : ServesInOrder fullSecond (openMeter fullSecond) ∧
    ((matchesIn fullSecond (queryString id {} ⟨0, none⟩)).map Receipt.id).Nodup ∧
    ¬ ListsWindow id plainServer (openMeter fullSecond) {} ⟨0, none⟩ fullSecond none := by
  have hserves : ServesInOrder fullSecond (openMeter fullSecond) :=
    openMeter_servesInOrder
      (List.pairwise_map.mpr (List.pairwise_of_forall fun _ _ => Nat.le_refl _))
  have hids : ((matchesIn fullSecond (queryString id {} ⟨0, none⟩)).map Receipt.id).Nodup := by
    rw [fullSecond_matches, fullSecond, List.map_map, List.map_map]
    exact List.nodup_range.map itoa_injective
  refine ⟨hserves, hids,
    @not_listsWindow _ _ _ _ _ _ 5000 hserves hids (fun hfits => ?_) (fun t _ hfinishes => ?_) none⟩
  · exact absurd (fullSecond_hits 5000 ▸ hfits.hits) (by decide)
  · have hfull := hfinishes.hits
    rw [fullSecond_hits] at hfull
    split_ifs at hfull
    · exact absurd hfull (by decide)
    · exact absurd hfull (by decide)

end trafficFeed
