import ServingPack.Console.TrafficTrims

open golang concurrency openmeter appState

namespace trafficFeed

/-- The rows are no older than where older ones are asked for. -/
def Feed.GoesOn (feed : Feed) : Prop :=
  ∀ before, feed.before = some before → ∀ r ∈ feed.rows, before ≤ (r.ts : Int) + 1

/-- A page of what is not newer than a time. -/
structure Page.UpTo (page : Page) (log : List Event) (q : ReceiptFilter) (t : Nat) : Prop where
  rows : ∀ r ∈ page.rows, r.ts ≤ t
  stop : ∀ continueBefore, page.continueBefore = some continueBefore → ∃ stopped : Nat,
    continueBefore = (stopped : Int) + 1 ∧ stopped ≤ t ∧ ∀ r ∈ page.rows, stopped ≤ r.ts
  past : crowd log q t < receiptScanCap → page.continueBefore ≠ some ((t : Int) + 1)

section Progress

variable {log : List Event} {q : ReceiptFilter} {t : Nat} {page : Page} {feed : Feed} {r : Receipt}

private theorem mem_found (hr : r ∈ found log q t) :
    ∃ e ∈ (upTo log q t).take receiptScanCap, receiptFrom e = r := by
  obtain ⟨hmem, _⟩ := List.mem_filter.mp hr
  exact List.mem_map.mp hmem

private theorem Answers.upTo (hnewest : Newest Event.time (window log q))
    (hpage : Answers log q t page) : page.UpTo log q t := by
  have hsorted : Newest Event.time (trafficFeed.upTo log q t) := hnewest.filter _
  have hrow {r : Receipt} (hr : r ∈ page.rows) :
      ∃ e ∈ (trafficFeed.upTo log q t).take receiptScanCap, e.time = r.ts := by
    have hmem : r.request ∈ (found log q t).take PAGE := hpage.rows ▸ List.mem_map_of_mem hr
    obtain ⟨e, he, hreceipt⟩ := mem_found (List.mem_of_mem_take hmem)
    exact ⟨e, he, (congrArg Receipt.ts hreceipt : e.time = r.request.ts)⟩
  have hstop {continueBefore : Int} (hstop : page.continueBefore = some continueBefore) :
      ∃ last, (trafficFeed.upTo log q t)[receiptScanCap - 1]? = some last ∧
        continueBefore = (last.time : Int) + 1 := by
    rw [hpage.more] at hstop
    split_ifs at hstop
    obtain ⟨last, hlast, rfl⟩ := Option.map_eq_some_iff.mp hstop
    refine ⟨last, ?_, rfl⟩
    rw [upTo_eq_drop hnewest, List.getElem?_drop]
    exact hlast
  refine ⟨fun r hr => ?_, fun continueBefore hmore => ?_, fun hcrowd hmore => ?_⟩
  · obtain ⟨e, he, htime⟩ := hrow hr
    rw [← htime]
    exact of_decide_eq_true (List.mem_filter.mp (List.mem_of_mem_take he)).2
  · obtain ⟨last, hlast, rfl⟩ := hstop hmore
    refine ⟨last.time, rfl, of_decide_eq_true (List.mem_filter.mp (List.mem_of_getElem? hlast)).2,
      fun r hr => ?_⟩
    obtain ⟨e, he, htime⟩ := hrow hr
    rw [← htime]
    obtain ⟨i, hi, rfl⟩ := List.mem_take_iff_getElem.mp he
    have hthere := (hsorted.le_time_iff hlast).mp le_rfl
    exact (hsorted.le_time_iff (List.getElem?_eq_getElem _)).mpr (by omega)
  · -- all that is scanned would be of this time
    obtain ⟨last, hlast, heq⟩ := hstop hmore
    have htime : last.time = t := by omega
    have hthere := (hsorted.le_time_iff hlast).mp le_rfl
    have hcount : notOlder Event.time (trafficFeed.upTo log q t) last.time ≤ crowd log q t := by
      rw [notOlder, trafficFeed.upTo, List.countP_filter, crowd]
      refine List.countP_mono_left fun e _ h => ?_
      simp only [Bool.and_eq_true, decide_eq_true_eq] at h ⊢
      omega
    omega

/-- A full page of rows that are shown already would be of one time. -/
theorem unseen_ne_nil (hids : ((matchesIn log q).map Receipt.id).Nodup) (hgoesOn : feed.GoesOn)
    (hbefore : feed.before = some ((t : Int) + 1)) (hpage : page.Of log q)
    (hupTo : page.UpTo log q t)
    (hheld : ∀ r ∈ feed.rows, r.request ∈ matchesIn log q) (hhits : hits log q t < PAGE)
    (hfull : PAGE ≤ page.rows.length) :
    unseen feed.rows page.rows ≠ [] := by
  intro hnone
  have hseen : ∀ r ∈ page.rows, r.ts = t := by
    intro r hr
    have hid : r.id ∈ feed.rows.map Receipt.id := by
      by_contra hnot
      have hmem : r ∈ unseen feed.rows page.rows := List.mem_filter.mpr ⟨hr, decide_eq_true hnot⟩
      rw [hnone] at hmem
      cases hmem
    obtain ⟨row, hrow, hid⟩ := List.mem_map.mp hid
    have hts := ts_eq_of_id hids (hheld row hrow) (hpage.held r hr) hid
    have hle := hgoesOn _ hbefore row hrow
    have hupTo := hupTo.rows r hr
    omega
  have hnodup : (page.rows.map Receipt.request).Nodup := by
    refine List.Nodup.of_map Receipt.id ?_
    rw [List.map_map]
    exact hpage.ids
  have hsubset : page.rows.map Receipt.request ⊆ (matchesIn log q).filter (fun r => r.ts = t) := by
    intro x hx
    obtain ⟨r, hr, rfl⟩ := List.mem_map.mp hx
    exact List.mem_filter.mpr ⟨hpage.held r hr, decide_eq_true (hseen r hr)⟩
  have hlength := (hnodup.subperm hsubset).length_le
  rw [List.length_map, ← List.countP_eq_length_filter, ← hits] at hlength
  omega

/-- Where a list goes on after a page of older rows: from an older time, or from the
same or an older one with more rows. -/
theorem older_progress (hgoesOn : feed.GoesOn) (hbefore : feed.before = some ((t : Int) + 1))
    (hpage : page.Of log q) (hupTo : page.UpTo log q t) (hcrowd : crowd log q t < receiptScanCap)
    (hmore : (feed.older page).reachedEnd = false) :
    (feed.older page).GoesOn ∧ ∃ t' : Nat, (feed.older page).before = some ((t' : Int) + 1) ∧
      (t' < t ∨ t' = t ∧ feed.rows.length < (feed.older page).rows.length) := by
  have hrows := hgoesOn _ hbefore
  cases hstop : page.continueBefore with
  | some continueBefore =>
    obtain ⟨stopped, rfl, hle, hnewer⟩ := hupTo.stop continueBefore hstop
    have hpast := hupTo.past hcrowd
    have hgo : (feed.older page).before = some ((stopped : Int) + 1) := by
      simp only [Feed.before, Feed.older, hstop]
      rfl
    refine ⟨fun before hbefore r hr => ?_, stopped, hgo, .inl ?_⟩
    · rw [hgo] at hbefore
      obtain rfl := Option.some.inj hbefore
      rcases List.mem_append.mp hr with hrow | hnew
      · have := hrows r hrow
        omega
      · have := hnewer r ((unseen_sublist _ _).subset hnew)
        omega
    · refine Nat.lt_of_le_of_ne hle fun hsame => hpast ?_
      rw [hstop, hsame]
  | none =>
    have hnew : unseen feed.rows page.rows ≠ [] := by
      intro hnone
      simp only [Feed.older, hstop, hnone, decide_true, Bool.or_true, Bool.and_self] at hmore
      cases hmore
    have hlast := List.getLast?_eq_some_getLast hnew
    have hmem := (unseen_sublist _ _).subset (List.getLast_mem hnew)
    have hle := hupTo.rows _ hmem
    have hgo : (feed.older page).before =
        some ((((unseen feed.rows page.rows).getLast hnew).ts : Int) + 1) := by
      simp only [Feed.before, Feed.older, hstop, List.getLast?_append, hlast]
      rfl
    have hlonger : feed.rows.length < (feed.older page).rows.length := by
      have := List.length_pos_iff.mpr hnew
      rw [Feed.older, List.length_append]
      omega
    refine ⟨fun before hbefore r hr => ?_, _, hgo, ?_⟩
    · rw [hgo] at hbefore
      obtain rfl := Option.some.inj hbefore
      rcases List.mem_append.mp hr with hrow | hnewer
      · have := hrows r hrow
        omega
      · have hsorted : Newest Receipt.ts (unseen feed.rows page.rows) := hpage.newest.filter _
        have holdest := hsorted.getLast_le hlast hnewer
        omega
    · omega

end Progress

section Scrolling

variable {keyID : GoString → GoString} {s : Server} {om : (q : Request) → Answer q} {f : Filters}
  {w : TrafficWindow} {log : List Event} {q : ReceiptFilter} {feed : Feed} {r : Receipt}

/-- A list over a log that shows a receipt, or can still get to it. -/
structure Scrolls (log : List Event) (q : ReceiptFilter) (r : Receipt) (feed : Feed) : Prop where
  loaded : feed.loaded = true
  ids : (feed.rows.map Receipt.id).Nodup
  held : ∀ r ∈ feed.rows, r.request ∈ matchesIn log q
  stop : ∀ continueBefore, feed.continueBefore = some continueBefore →
    ∃ e ∈ window log q, continueBefore = (e.time : Int) + 1
  goesOn : feed.reachedEnd = false → feed.GoesOn
  reaches : r.id ∉ feed.rows.map Receipt.id → feed.Reaches r

private theorem Scrolls.rows_le (h : Scrolls log q r feed) :
    feed.rows.length ≤ (matchesIn log q).length := by
  have hnodup : (feed.rows.map Receipt.request).Nodup := by
    refine List.Nodup.of_map Receipt.id ?_
    rw [List.map_map]
    exact h.ids
  have hsubset : feed.rows.map Receipt.request ⊆ matchesIn log q := by
    intro x hx
    obtain ⟨r, hr, rfl⟩ := List.mem_map.mp hx
    exact h.held r hr
  have hlength := (hnodup.subperm hsubset).length_le
  rwa [List.length_map] at hlength

/-- Asking for older rows once more shows the receipt, or gets nearer to it. -/
theorem Scrolls.loadOlder (hserves : ServesInOrder log om)
    (hids : ((matchesIn log (queryString keyID f w)).map Receipt.id).Nodup)
    (hfits : ∀ t, Fits log (queryString keyID f w) t)
    (hr : r.request ∈ matchesIn log (queryString keyID f w))
    (h : Scrolls log (queryString keyID f w) r feed) (hhidden : r.id ∉ feed.rows.map Receipt.id)
    {t : Nat} (hbefore : feed.before = some ((t : Int) + 1)) (cached : Option Pricer) :
    ∃ feed' cached', trafficFeed.loadOlder keyID s om f w feed cached = (feed', cached') ∧
      Scrolls log (queryString keyID f w) r feed' ∧
      (r.id ∉ feed'.rows.map Receipt.id → ∃ t' : Nat, feed'.before = some ((t' : Int) + 1) ∧
        (t' < t ∨ t' = t ∧ feed.rows.length < feed'.rows.length)) := by
  have hnewest : Newest Event.time (window log (queryString keyID f w)) := hserves.newest.filter _
  have hreaches := h.reaches hhidden
  have hgoesOn := h.goesOn hreaches.more
  obtain ⟨e, he, hevent⟩ : ∃ e ∈ window log (queryString keyID f w),
    (t : Int) + 1 = (e.time : Int) + 1 := by
    rw [Feed.before] at hbefore
    cases hstop : feed.continueBefore with
    | some continueBefore =>
      rw [hstop] at hbefore
      obtain rfl := Option.some.inj hbefore
      exact h.stop _ hstop
    | none =>
      rw [hstop] at hbefore
      obtain ⟨row, hrow, hts⟩ := Option.map_eq_some_iff.mp hbefore
      obtain ⟨e, he, hreceipt, _⟩ := mem_matchesIn.mp (h.held row (List.mem_of_getLast? hrow))
      have htime : e.time = row.ts := congrArg Receipt.ts hreceipt
      exact ⟨e, he, by rw [← hts, htime]⟩
  obtain rfl : t = e.time := by omega
  obtain ⟨page, cached', heval, hanswers⟩ :=
    apiReceipts_older (s := s) hserves he cached
  have hpage := hanswers.of hnewest hids
  have hupTo := hanswers.upTo hnewest
  have hreaches' : r.id ∉ (feed.older page).rows.map Receipt.id → (feed.older page).Reaches r := by
    refine older_reaches (fun hnot => ?_) (fun _ hfull => ?_)
    · obtain ⟨before, hbefore', hlt⟩ := hreaches.before
      rw [hbefore] at hbefore'
      have hsame := Option.some.inj hbefore'
      exact hanswers.leaves hnewest hr (by omega) hnot
    · exact unseen_ne_nil hids hgoesOn hbefore hpage hupTo h.held (hfits e.time).hits hfull
  refine ⟨feed.older page, cached', ?_,
    ⟨h.loaded, nodup_unseen h.ids hpage.ids, held_older h.held hpage, hpage.stop,
    fun hmore => ?_, hreaches'⟩, fun hhidden' => ?_⟩
  · rw [trafficFeed.loadOlder, hreaches.more, h.loaded, if_neg (by decide), hbefore]
    simp only
    rw [heval]
  · exact (older_progress hgoesOn hbefore hpage hupTo (hfits e.time).crowd hmore).1
  · exact (older_progress hgoesOn hbefore hpage hupTo (hfits e.time).crowd
      (hreaches' hhidden').more).2

/-- The induction is on the time the list goes on from, and then on the matches it does not show. -/
theorem Scrolls.shows (hserves : ServesInOrder log om)
    (hids : ((matchesIn log (queryString keyID f w)).map Receipt.id).Nodup)
    (hfits : ∀ t, Fits log (queryString keyID f w) t)
    (hr : r.request ∈ matchesIn log (queryString keyID f w))
    (h : Scrolls log (queryString keyID f w) r feed) {t : Nat}
    (hbefore : feed.before = some ((t : Int) + 1)) (cached : Option Pricer) :
    ∃ n, r.id ∈ (loadOlders keyID s om f w n (feed, cached)).1.rows.map Receipt.id := by
  induction hsize : ((matchesIn log (queryString keyID f w)).length + 1) * t +
      ((matchesIn log (queryString keyID f w)).length - feed.rows.length)
    using Nat.strong_induction_on generalizing t feed cached with
  | _ size ih =>
    by_cases hshown : r.id ∈ feed.rows.map Receipt.id
    · exact ⟨0, hshown⟩
    obtain ⟨feed', cached', hload, hscrolls, hnext⟩ :=
      h.loadOlder (s := s) hserves hids hfits hr hshown hbefore cached
    by_cases hshown' : r.id ∈ feed'.rows.map Receipt.id
    · refine ⟨1, ?_⟩
      rw [loadOlders, hload]
      exact hshown'
    obtain ⟨t', hbefore', hless⟩ := hnext hshown'
    have hfew := hscrolls.rows_le
    have hsmaller : ((matchesIn log (queryString keyID f w)).length + 1) * t' +
        ((matchesIn log (queryString keyID f w)).length - feed'.rows.length) < size := by
      rcases hless with hlt | ⟨rfl, hmore⟩
      · have := Nat.mul_le_mul_left ((matchesIn log (queryString keyID f w)).length + 1)
          (Nat.succ_le_of_lt hlt)
        rw [Nat.mul_succ] at this
        omega
      · omega
    obtain ⟨n, hn⟩ := ih _ hsmaller hscrolls hbefore' cached' rfl
    refine ⟨n + 1, ?_⟩
    rw [loadOlders, hload]
    exact hn

/-- Scrolling brings back whatever the list has trimmed: after any run of steady steps
to a list whose rows are no older than where it goes on from, if fewer matches share a time
than a page holds and fewer events than a read looks through, asking for older rows often
enough shows it again. While a page of older rows is awaited no other is asked for: the list
meant is then the one that the page is shown in, or that goes on without it. -/
theorem trimmed_brought_back (keyID : GoString → GoString) (s : Server)
    (om : (q : Request) → Answer q) (f : Filters)
    (w : TrafficWindow) (cached : Option Pricer) (l : Listing) (hreach : Reachable keyID s f w l)
    (hserves : ServesInOrder l.log om) (hfits : ∀ t, Fits l.log (queryString keyID f w) t)
    (hgoesOn : l.feed.GoesOn) (r : Receipt) (htrimmed : r ∈ l.trimmed) :
    ∃ n, r.id ∈ (loadOlders keyID s om f w n (l.feed, cached)).1.rows.map Receipt.id := by
  have hinv := hreach.inv
  by_cases hshown : r.id ∈ l.feed.rows.map Receipt.id
  · exact ⟨0, hshown⟩
  obtain ⟨before, hbefore, _⟩ := (hinv.reaches r ⟨htrimmed, hshown⟩).before
  obtain ⟨e, _, rfl⟩ := hinv.before hbefore
  have hfirst : l.first = none := by
    by_contra hawaited
    obtain ⟨page, hpage⟩ := Option.ne_none_iff_exists'.mp hawaited
    exact Listing.not_missing (hinv.first page hpage) ⟨htrimmed, hshown⟩
  have hscrolls : Scrolls l.log (queryString keyID f w) r l.feed :=
    ⟨hinv.loaded hfirst, hinv.ids, hinv.held, hinv.stop, fun _ => hgoesOn,
      fun hhidden => hinv.reaches r ⟨htrimmed, hhidden⟩⟩
  exact hscrolls.shows hserves hinv.logIds hfits (hinv.heldTrimmed r htrimmed) hbefore cached

end Scrolling

section Example

/-- A log whose events have different times fits. -/
theorem fits_of_distinct {log : List Event} (hnodup : log.Nodup)
    (hdistinct : ∀ e ∈ log, ∀ e' ∈ log, e.time = e'.time → e = e') (q : ReceiptFilter) (t : Nat) :
    Fits log q t := by
  have hfew : crowd log q t ≤ 1 := by
    rw [crowd, List.countP_eq_length_filter]
    by_contra hmany
    have hsame (i : Nat) (hi : i < ((window log q).filter (·.time = t)).length) :
        ((window log q).filter (·.time = t))[i] ∈ log ∧
          ((window log q).filter (·.time = t))[i].time = t := by
      obtain ⟨hwindow, htime⟩ := List.mem_filter.mp (List.getElem_mem hi)
      exact ⟨(mem_window.mp hwindow).1, of_decide_eq_true htime⟩
    obtain ⟨hfirst, hfirstTime⟩ := hsame 0 (by omega)
    obtain ⟨hsecond, hsecondTime⟩ := hsame 1 (by omega)
    have heq := hdistinct _ hfirst _ hsecond (hfirstTime.trans hsecondTime.symm)
    have hzero := ((hnodup.filter _).filter _).getElem_inj_iff.mp heq
    cases hzero
  refine ⟨?_, ?_⟩
  · refine ((hits_le_crowd _ _ t).trans hfew).trans_lt ?_
    decide
  · refine hfew.trans_lt ?_
    decide

private theorem tailed_fits {log : List Event} (hnodup : log.Nodup)
    (hdistinct : ∀ e ∈ log, ∀ e' ∈ log, e.time = e'.time → e = e') (q : ReceiptFilter) (t : Nat) :
    Fits (tailed log).log q t :=
  fits_of_distinct hnodup hdistinct q t

private theorem tailed_serves {log : List Event} (h : log.Pairwise (fun e e' => e'.time ≤ e.time)) :
    ServesInOrder (tailed log).log (openMeter log) := openMeter_servesInOrder h

private theorem busy_fits (t : Nat) : Fits (tailed busy).log (queryString id {} ⟨0, none⟩) t := by
  refine tailed_fits (List.Nodup.of_map receiptFrom (List.Nodup.of_map Receipt.id busy_ids)) ?_ _ t
  intro e he e' he' htime
  obtain ⟨i, hi, rfl⟩ := mem_busy.mp he
  obtain ⟨j, hj, rfl⟩ := mem_busy.mp he'
  have hsame : MAX_ROWS - i = MAX_ROWS - j := htime
  obtain rfl : i = j := by omega
  rfl

private theorem tailed_goesOn {log : List Event} {next : List Receipt}
    (htopped : Topped ⟨0, none⟩ { loaded := true } (log.map receiptFrom) next)
    (hnewest : Newest Receipt.ts next) :
    (tailed log).feed.GoesOn := by
  intro before hbefore r hr
  have hcontinue : (tailed log).feed.continueBefore = none := onReceipts_continueBefore
  rw [Feed.before, hcontinue] at hbefore
  obtain ⟨last, hlast, rfl⟩ := Option.map_eq_some_iff.mp hbefore
  have hsorted : Newest Receipt.ts (tailed log).feed.rows := by
    rw [tailed_rows htopped]
    exact hnewest.sublist (List.take_sublist _ _)
  have hle := hsorted.getLast_le hlast hr
  omega

private theorem busy_goesOn : (tailed busy).feed.GoesOn := by
  obtain ⟨next, htopped, hnewest, _, _⟩ := busy_topped
  exact tailed_goesOn htopped hnewest

/-- The oldest of one more request than the rows hold is trimmed, and paging down shows it
again. -/
theorem earliest_brought_back :
    ∃ n, earliest.id ∈ (loadOlders id plainServer (openMeter busy) {} ⟨0, none⟩ n
      ((tailed busy).feed, none)).1.rows.map
      Receipt.id :=
  trimmed_brought_back id plainServer (openMeter busy) {} ⟨0, none⟩ none
    (tailed busy) busy_reachable
    (tailed_serves busy_newest) busy_fits busy_goesOn earliest earliest_trimmed

end Example

end trafficFeed
