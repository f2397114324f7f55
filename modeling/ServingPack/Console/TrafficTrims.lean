import ServingPack.Console.TrafficRuns
import ServingPack.Console.ReceiptStream

open golang concurrency openmeter appState

namespace trafficFeed

/-- The receipts of a batch in the window, which the tail ignores. -/
def inWindow (w : TrafficWindow) (batch : List Receipt) : List Receipt :=
  batch.filter (fun r => w.since ≤ r.ts && w.before.all (fun before => (r.ts : Int) < before))

/-- The list with a batch from the tail. -/
def Feed.onReceipts (w : TrafficWindow) (feed : Feed) (batch : List Receipt) : Feed :=
  let inWindow := inWindow w batch
  if inWindow = [] then feed
  else
    let rows := applyLive feed.rows inWindow
    { feed with rows := rows, reachedEnd := feed.reachedEnd && rows.length < MAX_ROWS }

/-- The rows and receipts that a batch leaves no room for. -/
def trims (w : TrafficWindow) (feed : Feed) (batch : List Receipt) : List Receipt :=
  (feed.rows ++ inWindow w batch).filter
    (fun r => r.id ∉ (feed.onReceipts w batch).rows.map Receipt.id)

/-- A list on the screen, with what it has asked the server for, over the log the
server reads. A page that is awaited is there once the server has read it. -/
structure Listing where
  log : List Event
  feed : Feed := {}
  first : Option (Option Page) := some none
  /-- Where older rows are asked for, and their page. -/
  older : Option (Int × Option Page) := none
  /-- What the list held and has left no room for. -/
  trimmed : List Receipt := []

inductive Action where
  | grow (log : List Event)
  | onReceipts (batch : List Receipt)
  | loadOlder
  | readFirst (om : (q : Request) → Answer q) (cached : Option Pricer)
  | readOlder (om : (q : Request) → Answer q) (cached : Option Pricer)
  | showFirst
  | showOlder
  | failFirst
  | failOlder
  | reload

section Steps

variable (keyID : GoString → GoString) (s : Server) (f : Filters) (w : TrafficWindow)

def Listing.step (l : Listing) : Action → Option Listing
  | .grow log => some { l with log := log }
  | .onReceipts batch =>
    some { l with feed := l.feed.onReceipts w batch, trimmed := l.trimmed ++ trims w l.feed batch }
  | .loadOlder =>
    if l.older.isSome || l.feed.reachedEnd || !l.feed.loaded then none
    else l.feed.before.map (fun before => { l with older := some (before, none) })
  | .readFirst om cached =>
    match l.first with
    | some none =>
      (ServerM.eval om (apiReceipts s (queryString keyID f w)) cached).1.toOption.map
        (fun page => { l with first := some (some page) })
    | _ => none
  | .readOlder om cached =>
    match l.older with
    | some (before, none) =>
      (ServerM.eval om (apiReceipts s (queryString keyID f { w with before := some before }))
        cached).1.toOption.map
        (fun page => { l with older := some (before, some page) })
    | _ => none
  | .showFirst =>
    match l.first with
    | some (some page) => some { l with feed := l.feed.first page, first := none }
    | _ => none
  | .showOlder =>
    match l.older with
    | some (_, some page) => some { l with feed := l.feed.older page, older := none }
    | _ => none
  | .failFirst => l.first.map
      (fun _ => { l with feed := { l.feed with loaded := true }, first := none })
  | .failOlder => l.older.map (fun _ => { l with older := none })
  -- a page of older rows that is awaited comes all the same
  | .reload => some { l with feed := {}, first := some none, trimmed := [] }

/-- What the server and the stream are relied on for: the log only grows and has one
event of an ID, the stream sends receipts of it that match the filters, and a read
sees it as it is. -/
def Action.Genuine (l : Listing) : Action → Prop
  | .grow log => l.log.Sublist log ∧ ((matchesIn log (queryString keyID f w)).map Receipt.id).Nodup
  | .onReceipts batch =>
      ∀ r ∈ batch, ∃ e ∈ l.log, e.type = requestEvent ∧ r.request = receiptFrom e ∧
      (queryString keyID f w).matchReceipt (receiptFrom e) = true
  | .readFirst om _ => ServesInOrder l.log om
  | .readOlder om _ => ServesInOrder l.log om
  | _ => True

/-- A batch that trims comes while no page is awaited and the list goes on from its
oldest row, to rows that are newest first and no newer than what it brings. -/
structure TrimsInOrder (l : Listing) (batch : List Receipt) : Prop where
  first : l.first = none
  older : l.older = none
  continueBefore : l.feed.continueBefore = none
  rows : Newest Receipt.ts l.feed.rows
  batch : ∀ r ∈ inWindow w batch, r.id ∉ l.feed.rows.map Receipt.id →
    ∀ r' ∈ l.feed.rows, r'.ts ≤ r.ts

/-- A batch trims in order if it does, and no full page shows nothing new. -/
def Action.Steady (l : Listing) : Action → Prop
  | .onReceipts batch => trims w l.feed batch ≠ [] → TrimsInOrder w l batch
  | .showOlder => ∀ before page, l.older = some (before, some page) → page.continueBefore = none →
      PAGE ≤ page.rows.length → unseen l.feed.rows page.rows ≠ []
  | _ => True

/-- The lists of the runs whose steps are all steady. -/
inductive Reachable : Listing → Prop where
  | start {log : List Event}
    (hids : ((matchesIn log (queryString keyID f w)).map Receipt.id).Nodup) :
      Reachable { log := log }
  | step {l l' : Listing} (a : Action) (hreach : Reachable l) (hgenuine : a.Genuine keyID f w l)
    (hsteady : a.Steady w l)
      (hstep : l.step keyID s f w a = some l') : Reachable l'

end Steps

/-- What a page leaves out of the matches up to where it was asked for. -/
structure Page.Leaves (page : Page) (r : Receipt) : Prop where
  stopped : ∀ continueBefore, page.continueBefore = some continueBefore →
    (r.ts : Int) < continueBefore
  full : page.continueBefore = none → PAGE ≤ page.rows.length ∧ ∀ r' ∈ page.rows, r.ts ≤ r'.ts

/-- A page of the matches of a window. -/
structure Page.Of (page : Page) (log : List Event) (q : ReceiptFilter) : Prop where
  ids : (page.rows.map Receipt.id).Nodup
  held : ∀ r ∈ page.rows, r.request ∈ matchesIn log q
  newest : Newest Receipt.ts page.rows
  stop : ∀ continueBefore, page.continueBefore = some continueBefore →
    ∃ e ∈ window log q, continueBefore = (e.time : Int) + 1

section Pages

variable {log log' : List Event} {q : ReceiptFilter} {t : Nat} {page : Page} {r : Receipt}

/-- A receipt matches in the log when an event of the window reads as it and the filter lets it
through. -/
theorem mem_matchesIn :
    r ∈ matchesIn log q ↔ ∃ e ∈ window log q, receiptFrom e = r ∧ q.matchReceipt r = true := by
  rw [matchesIn, matching, List.mem_filter, List.mem_map]
  constructor
  · rintro ⟨⟨e, he, rfl⟩, hmatches⟩
    exact ⟨e, he, rfl, hmatches⟩
  · rintro ⟨e, he, rfl, hmatches⟩
    exact ⟨⟨e, he, rfl⟩, hmatches⟩

private theorem window_sublist (h : log.Sublist log') : (window log q).Sublist (window log' q) :=
  h.filter _

private theorem matchesIn_mono (h : log.Sublist log') (hr : r ∈ matchesIn log q) :
    r ∈ matchesIn log' q := by
  obtain ⟨e, he, hreceipt, hmatches⟩ := mem_matchesIn.mp hr
  exact mem_matchesIn.mpr ⟨e, (window_sublist h).subset he, hreceipt, hmatches⟩

private theorem Page.Of.mono (hpage : page.Of log q) (h : log.Sublist log') : page.Of log' q where
  ids := hpage.ids
  held r hr := matchesIn_mono h (hpage.held r hr)
  newest := hpage.newest
  stop continueBefore hstop := by
    obtain ⟨e, he, heq⟩ := hpage.stop continueBefore hstop
    exact ⟨e, (window_sublist h).subset he, heq⟩

/-- A page of receipts newest first, with ids of their own, leaves out only what its stop names.
-/
theorem Answers.of (hnewest : Newest Event.time (window log q))
    (hids : ((matchesIn log q).map Receipt.id).Nodup)
    (hpage : Answers log q t page) : page.Of log q := by
  have hsublist : (page.rows.map Receipt.request).Sublist (matchesIn log q) := by
    rw [hpage.rows, found_eq hnewest]
    exact (List.take_sublist _ _).trans ((List.take_sublist _ _).trans (List.drop_sublist _ _))
  refine ⟨?_, fun r hr => hsublist.subset (List.mem_map_of_mem hr), ?_,
    fun continueBefore hstop => ?_⟩
  · have hnodup := hids.sublist (hsublist.map Receipt.id)
    rwa [List.map_map] at hnodup
  · have hsorted : Newest Receipt.ts (page.rows.map Receipt.request) :=
      (matching_newest hnewest).sublist hsublist
    exact List.pairwise_map.mp hsorted
  · rw [hpage.more] at hstop
    split_ifs at hstop
    obtain ⟨last, hlast, rfl⟩ := Option.map_eq_some_iff.mp hstop
    exact ⟨last, List.mem_of_getElem? hlast, rfl⟩

/-- What the page from a time has not found is older than where the server stopped
looking, or no newer than a whole page. -/
theorem Answers.leaves (hnewest : Newest Event.time (window log q)) (hpage : Answers log q t page)
    (hr : r.request ∈ matchesIn log q) (hle : r.ts ≤ t) (hleft : r.id ∉ page.rows.map Receipt.id) :
    page.Leaves r := by
  obtain ⟨e, he, hreceipt, hmatches⟩ := mem_matchesIn.mp hr
  have htime : e.time = r.ts := congrArg Receipt.ts hreceipt
  have hupTo : e ∈ upTo log q t := List.mem_filter.mpr ⟨he, decide_eq_true (by omega)⟩
  have hsorted : Newest Event.time (upTo log q t) := hnewest.filter _
  have hnot : r.request ∉ (found log q t).take PAGE := by
    intro hmem
    rw [← hpage.rows] at hmem
    obtain ⟨row, hrow, hsame⟩ := List.mem_map.mp hmem
    have hid : row.id = r.id := (congrArg Receipt.id hsame : row.request.id = r.request.id)
    exact hleft (hid ▸ List.mem_map_of_mem hrow)
  have hmore := hpage.more
  have hlength : page.rows.length = min PAGE (found log q t).length := by
    rw [← List.length_map (f := Receipt.request), hpage.rows, List.length_take]
  by_cases hfew : (found log q t).length < PAGE
  · rw [if_pos hfew] at hmore
    rw [List.take_of_length_le hfew.le] at hnot
    have hscan : e ∉ (upTo log q t).take receiptScanCap := by
      intro hmem
      exact hnot (List.mem_filter.mpr ⟨List.mem_map.mpr ⟨e, hmem, hreceipt⟩, hmatches⟩)
    have hdrop : e ∈ (upTo log q t).drop receiptScanCap := by
      rw [← List.take_append_drop receiptScanCap (upTo log q t), List.mem_append] at hupTo
      exact hupTo.resolve_left hscan
    obtain ⟨i, hi, heq⟩ := List.mem_drop_iff_getElem.mp hdrop
    have hcap : 0 < receiptScanCap := by decide
    obtain ⟨last, hlast⟩ : ∃ last, (upTo log q t)[receiptScanCap - 1]? = some last :=
      ⟨_, List.getElem?_eq_getElem (by omega)⟩
    have holder : e.time ≤ last.time := by
      obtain ⟨_, rfl⟩ := List.getElem?_eq_some_iff.mp hlast
      rw [← heq]
      exact List.pairwise_iff_getElem.mp hsorted _ _ _ _ (by omega)
    rw [upTo_eq_drop hnewest, List.getElem?_drop] at hlast
    rw [hlast, Option.map_some] at hmore
    refine ⟨fun continueBefore hstop => ?_, fun hnone => ?_⟩
    · rw [hmore] at hstop
      have := Option.some.inj hstop
      omega
    · rw [hmore] at hnone
      cases hnone
  · rw [if_neg hfew] at hmore
    refine ⟨fun continueBefore hstop => ?_, fun _ => ⟨by omega, fun row hrow => ?_⟩⟩
    · rw [hmore] at hstop
      cases hstop
    · have hrow : row.request ∈ (found log q t).take PAGE := hpage.rows ▸ List.mem_map_of_mem hrow
      have hpre : (found log q t).take PAGE <+: matching q (upTo log q t) :=
        (List.take_prefix _ _).trans (matching_take_isPrefix q (upTo log q t) receiptScanCap)
      obtain ⟨rest, hsplit⟩ := hpre
      have hrest : r.request ∈ rest := by
        have hmem : r.request ∈ matching q (upTo log q t) :=
          List.mem_filter.mpr ⟨List.mem_map.mpr ⟨e, hupTo, hreceipt⟩, hmatches⟩
        rw [← hsplit, List.mem_append] at hmem
        exact hmem.resolve_left hnot
      have hpairs := matching_newest (f := q) hsorted
      rw [← hsplit] at hpairs
      exact (List.pairwise_append.mp hpairs).2.2 row.request hrow r.request hrest

end Pages

section Batches

variable {keyID : GoString → GoString} {f : Filters} {w : TrafficWindow} {log : List Event}
  {q : ReceiptFilter} {feed : Feed} {batch : List Receipt} {r r' : Receipt}

/-- A receipt is known by its ID. -/
theorem ts_eq_of_id (hids : ((matchesIn log q).map Receipt.id).Nodup)
    (hr : r.request ∈ matchesIn log q)
    (hr' : r'.request ∈ matchesIn log q) (hid : r.id = r'.id) : r.ts = r'.ts := by
  have hsame : r.request = r'.request := List.inj_on_of_nodup_map hids hr hr' hid
  exact (congrArg Receipt.ts hsame : r.request.ts = r'.request.ts)

private theorem inWindow_held {l : Listing}
    (hgenuine : (Action.onReceipts batch).Genuine keyID f w l) (hr : r ∈ inWindow w batch) :
    r.request ∈ matchesIn l.log (queryString keyID f w) := by
  obtain ⟨hmem, hin⟩ := List.mem_filter.mp hr
  rw [Bool.and_eq_true, decide_eq_true_eq] at hin
  obtain ⟨e, he, htype, hreceipt, hmatches⟩ := hgenuine r hmem
  have htime : r.ts = e.time := congrArg Receipt.ts hreceipt
  rw [hreceipt]
  refine mem_matchesIn.mpr
    ⟨e, mem_window.mpr ⟨he, query_matches_iff.mpr ⟨fun _ => ?_, fun hpos => ?_, htype⟩⟩, rfl,
    hmatches⟩
  · rw [← htime]
    exact hin.1
  · cases hbefore : w.before with
    | none =>
      rw [queryString, hbefore] at hpos
      exact absurd hpos (Int.lt_irrefl 0)
    | some before =>
      have hlt := hin.2
      rw [hbefore, Option.all_some, decide_eq_true_eq] at hlt
      rw [queryString, hbefore, ← htime]
      exact hlt

private theorem onReceipts_none (hnone : inWindow w batch = []) :
    feed.onReceipts w batch = feed := by
  simp only [Feed.onReceipts, hnone, if_true]

/-- Live receipts don't move the place where the next page continues. -/
theorem onReceipts_continueBefore :
    (feed.onReceipts w batch).continueBefore = feed.continueBefore := by
  simp only [Feed.onReceipts]
  split_ifs <;> rfl

private theorem onReceipts_loaded : (feed.onReceipts w batch).loaded = feed.loaded := by
  simp only [Feed.onReceipts]
  split_ifs <;> rfl

private theorem onReceipts_reachedEnd (hmore : feed.reachedEnd = false) :
    (feed.onReceipts w batch).reachedEnd = false := by
  simp only [Feed.onReceipts]
  split_ifs
  · exact hmore
  · simp only [hmore, Bool.false_and]

private theorem mem_trims : r ∈ trims w feed batch ↔
    (r ∈ feed.rows ∨ r ∈ inWindow w batch) ∧
    r.id ∉ (feed.onReceipts w batch).rows.map Receipt.id := by
  rw [trims, List.mem_filter, List.mem_append, decide_eq_true_eq]

/-- A row goes only where it is trimmed. -/
theorem id_mem_of_trims_nil (htrims : trims w feed batch = []) {id : GoString}
    (hid : id ∈ feed.rows.map Receipt.id) :
    id ∈ (feed.onReceipts w batch).rows.map Receipt.id := by
  by_contra hgone
  obtain ⟨row, hrow, rfl⟩ := List.mem_map.mp hid
  have hmem : row ∈ trims w feed batch := mem_trims.mpr ⟨.inl hrow, hgone⟩
  rw [htrims] at hmem
  cases hmem

/-- The rows with a batch, before any are trimmed. -/
structure Topped (w : TrafficWindow) (feed : Feed) (batch next : List Receipt) : Prop where
  rows : (feed.onReceipts w batch).rows = next.take MAX_ROWS
  ids : (next.map Receipt.id).Nodup
  mem : ∀ r ∈ next, r ∈ feed.rows ∨ r ∈ inWindow w batch
  there : ∀ r, r ∈ feed.rows ∨ r ∈ inWindow w batch → r.id ∈ next.map Receipt.id
  last : ∀ r, feed.rows.getLast? = some r → ∃ r', next.getLast? = some r' ∧ r'.id = r.id
  reachedEnd : (feed.onReceipts w batch).reachedEnd =
    (feed.reachedEnd && (next.take MAX_ROWS).length < MAX_ROWS)

private theorem lastVersion_mem {id : GoString} (h : lastVersion batch id = some r) : r ∈ batch :=
  List.mem_reverse.mp (List.mem_of_find?_eq_some h)

private theorem current_mem (hr : r ∈ feed.rows) :
    current batch r ∈ feed.rows ∨ current batch r ∈ batch := by
  rw [current]
  cases hlast : lastVersion batch r.id with
  | none => exact .inl hr
  | some u => exact .inr (lastVersion_mem hlast)

private theorem topped (hids : (feed.rows.map Receipt.id).Nodup) (hbatch : inWindow w batch ≠ []) :
    ∃ fresh, Topped w feed batch (fresh ++ feed.rows.map (current (inWindow w batch))) ∧
      Arrived feed.rows (inWindow w batch) fresh ∧ Newest Receipt.ts fresh := by
  obtain ⟨fresh, harrived, hnewest, heq⟩ := applyLive_eq feed.rows hids hbatch
  refine ⟨fresh, ⟨?_, harrived.nodup hids, fun r hr => ?_, fun r hr => ?_, fun r hr => ?_, ?_⟩,
    harrived, hnewest⟩
  · simp only [Feed.onReceipts, if_neg hbatch, heq]
  · rcases List.mem_append.mp hr with hfresh | hold
    · exact .inr (lastVersion_mem ((harrived.mem_iff r).mp hfresh).2)
    · obtain ⟨row, hrow, rfl⟩ := List.mem_map.mp hold
      exact current_mem hrow
  · rw [List.map_append, map_id_current, List.mem_append]
    by_cases hrow : r.id ∈ feed.rows.map Receipt.id
    · exact .inr hrow
    · have hin : r ∈ inWindow w batch := hr.resolve_left fun hmem => hrow (List.mem_map_of_mem hmem)
      obtain ⟨u, hu⟩ := Option.isSome_iff_exists.mp
        (lastVersion_isSome.mpr (List.mem_map_of_mem (f := Receipt.id) hin))
      have hid := lastVersion_id hu
      rw [← hid] at hu hrow ⊢
      exact .inl (List.mem_map_of_mem ((harrived.mem_iff u).mpr ⟨hrow, hu⟩))
  · refine ⟨current (inWindow w batch) r, ?_, current_id⟩
    rw [List.getLast?_append, List.getLast?_map, hr]
    rfl
  · simp only [Feed.onReceipts, if_neg hbatch, heq]

end Batches

/-- A receipt that is trimmed and not shown. -/
structure Listing.Missing (l : Listing) (r : Receipt) : Prop where
  trimmed : r ∈ l.trimmed
  hidden : r.id ∉ l.feed.rows.map Receipt.id

/-- A receipt that the next page of older rows can bring. -/
structure Feed.Reaches (feed : Feed) (r : Receipt) : Prop where
  more : feed.reachedEnd = false
  before : ∃ before, feed.before = some before ∧ (r.ts : Int) < before

structure Inv (keyID : GoString → GoString) (f : Filters) (w : TrafficWindow) (l : Listing) :
    Prop where
  logIds : ((matchesIn l.log (queryString keyID f w)).map Receipt.id).Nodup
  ids : (l.feed.rows.map Receipt.id).Nodup
  held : ∀ r ∈ l.feed.rows, r.request ∈ matchesIn l.log (queryString keyID f w)
  heldTrimmed : ∀ r ∈ l.trimmed, r.request ∈ matchesIn l.log (queryString keyID f w)
  stop : ∀ continueBefore, l.feed.continueBefore = some continueBefore →
    ∃ e ∈ window l.log (queryString keyID f w), continueBefore = (e.time : Int) + 1
  loaded : l.first = none → l.feed.loaded = true
  first : ∀ page, l.first = some page → l.trimmed = []
  firstPage : ∀ page, l.first = some (some page) → page.Of l.log (queryString keyID f w)
  asked : ∀ before page, l.older = some (before, page) →
    ∃ e ∈ window l.log (queryString keyID f w), before = (e.time : Int) + 1
  askedReaches : ∀ before, l.older = some (before, none) → ∀ r, l.Missing r → (r.ts : Int) < before
  olderPage : ∀ before page, l.older = some (before, some page) →
    page.Of l.log (queryString keyID f w) ∧
    ∀ r, l.Missing r → r.id ∉ page.rows.map Receipt.id → page.Leaves r
  reaches : ∀ r, l.Missing r → l.feed.Reaches r

section Steps

variable {keyID : GoString → GoString} {s : Server} {f : Filters} {w : TrafficWindow}
  {l l' : Listing} {batch : List Receipt} {page : Page} {r : Receipt}

/-- Where nothing was trimmed, nothing is missing. -/
theorem Listing.not_missing (h : l.trimmed = []) : ¬l.Missing r := by
  intro hmissing
  have htrimmed := hmissing.trimmed
  rw [h] at htrimmed
  cases htrimmed

/-- Where the list goes on from is after an event of the window. -/
theorem Inv.before (hinv : Inv keyID f w l) {before : Int} (hbefore : l.feed.before = some before) :
    ∃ e ∈ window l.log (queryString keyID f w), before = (e.time : Int) + 1 := by
  rw [Feed.before] at hbefore
  cases hstop : l.feed.continueBefore with
  | some continueBefore =>
    rw [hstop] at hbefore
    obtain rfl := Option.some.inj hbefore
    exact hinv.stop _ hstop
  | none =>
    rw [hstop] at hbefore
    obtain ⟨row, hrow, rfl⟩ := Option.map_eq_some_iff.mp hbefore
    obtain ⟨e, he, hreceipt, _⟩ := mem_matchesIn.mp (hinv.held row (List.mem_of_getLast? hrow))
    have htime : e.time = row.ts := congrArg Receipt.ts hreceipt
    exact ⟨e, he, by rw [htime]⟩

private theorem inv_start {log : List Event}
    (hids : ((matchesIn log (queryString keyID f w)).map Receipt.id).Nodup) :
    Inv keyID f w { log := log } where
  logIds := hids
  ids := List.nodup_nil
  held := by simp
  heldTrimmed := by simp
  stop := by simp
  loaded := by simp
  first := by simp
  firstPage := by simp
  asked := by simp
  askedReaches := by simp
  olderPage := by simp
  reaches r hmissing := absurd hmissing (Listing.not_missing rfl)

private theorem Inv.grow (hinv : Inv keyID f w l) {log : List Event}
    (hgenuine : (Action.grow log).Genuine keyID f w l) :
    Inv keyID f w { l with log := log } where
  logIds := hgenuine.2
  ids := hinv.ids
  held r hr := matchesIn_mono hgenuine.1 (hinv.held r hr)
  heldTrimmed r hr := matchesIn_mono hgenuine.1 (hinv.heldTrimmed r hr)
  stop continueBefore hstop := by
    obtain ⟨e, he, heq⟩ := hinv.stop continueBefore hstop
    exact ⟨e, (window_sublist hgenuine.1).subset he, heq⟩
  loaded := hinv.loaded
  first := hinv.first
  firstPage page hfirst := (hinv.firstPage page hfirst).mono hgenuine.1
  asked before page holder := by
    obtain ⟨e, he, heq⟩ := hinv.asked before page holder
    exact ⟨e, (window_sublist hgenuine.1).subset he, heq⟩
  askedReaches before holder r hmissing :=
    hinv.askedReaches before holder r ⟨hmissing.trimmed, hmissing.hidden⟩
  olderPage before page holder := by
    obtain ⟨hpage, hleaves⟩ := hinv.olderPage before page holder
    exact ⟨hpage.mono hgenuine.1, fun r hmissing => hleaves r ⟨hmissing.trimmed, hmissing.hidden⟩⟩
  reaches r hmissing := hinv.reaches r ⟨hmissing.trimmed, hmissing.hidden⟩

/-- With nothing trimmed, the list goes on from where it did. -/
theorem Topped.before {next : List Receipt} {feed : Feed} {log : List Event} {q : ReceiptFilter}
    (htopped : Topped w feed batch next) (hlogIds : ((matchesIn log q).map Receipt.id).Nodup)
    (hheld : ∀ r ∈ next, r.request ∈ matchesIn log q)
    (hrows : ∀ r ∈ feed.rows, r.request ∈ matchesIn log q)
    (htrims : trims w feed batch = []) {before : Int} (hbefore : feed.before = some before) :
    (feed.onReceipts w batch).before = some before := by
  -- whatever is cut has an ID that is trimmed
  have hall : (feed.onReceipts w batch).rows = next := by
    rw [htopped.rows]
    refine List.take_of_length_le
      (List.drop_eq_nil_iff.mp (List.eq_nil_iff_forall_not_mem.mpr fun r hr => ?_))
    have hmem : r ∈ trims w feed batch := by
      refine mem_trims.mpr ⟨htopped.mem r (List.mem_of_mem_drop hr), fun hid => ?_⟩
      have hnodup := htopped.ids
      rw [← List.take_append_drop MAX_ROWS next, List.map_append] at hnodup
      rw [htopped.rows] at hid
      exact List.disjoint_of_nodup_append hnodup hid (List.mem_map_of_mem hr)
    rw [htrims] at hmem
    cases hmem
  rw [Feed.before] at hbefore ⊢
  rw [onReceipts_continueBefore]
  cases hstop : feed.continueBefore with
  | some continueBefore => rwa [hstop] at hbefore
  | none =>
    rw [hstop] at hbefore
    obtain ⟨last, hlast, rfl⟩ := Option.map_eq_some_iff.mp hbefore
    obtain ⟨last', hlast', hid⟩ := htopped.last last hlast
    have hts : last'.ts = last.ts := ts_eq_of_id hlogIds (hheld last' (List.mem_of_getLast? hlast'))
      (hrows last (List.mem_of_getLast? hlast)) hid
    rw [hall, hlast', Option.map_some, hts]
    rfl

/-- What the list holds or is sent is a receipt of the log. -/
theorem Inv.known (hinv : Inv keyID f w l)
    (hgenuine : (Action.onReceipts batch).Genuine keyID f w l)
    (hr : r ∈ l.feed.rows ∨ r ∈ inWindow w batch) :
    r.request ∈ matchesIn l.log (queryString keyID f w) := by
  rcases hr with hrow | hin
  · exact hinv.held r hrow
  · exact inWindow_held hgenuine hin

section Trimmed

variable {next fresh : List Receipt}

private theorem Inv.ts_eq (hinv : Inv keyID f w l)
    (hgenuine : (Action.onReceipts batch).Genuine keyID f w l)
    (htopped : Topped w l.feed batch next) {r' : Receipt}
    (hr : r.request ∈ matchesIn l.log (queryString keyID f w))
    (hr' : r' ∈ next) (hid : r.id = r'.id) : r.ts = r'.ts :=
  ts_eq_of_id hinv.logIds hr (hinv.known hgenuine (htopped.mem r' hr')) hid

/-- A batch in order leaves the rows newest first. -/
theorem Inv.topped_newest (hinv : Inv keyID f w l)
    (hgenuine : (Action.onReceipts batch).Genuine keyID f w l)
    (htopped : Topped w l.feed batch (fresh ++ l.feed.rows.map (current (inWindow w batch))))
    (harrived : Arrived l.feed.rows (inWindow w batch) fresh) (hfresh : Newest Receipt.ts fresh)
    (horder : TrimsInOrder w l batch) :
    Newest Receipt.ts (fresh ++ l.feed.rows.map (current (inWindow w batch))) := by
  have hcurrent (x : Receipt) (hx : x ∈ l.feed.rows) : x.ts = (current (inWindow w batch) x).ts :=
    hinv.ts_eq hgenuine htopped (hinv.held x hx)
      (List.mem_append_right _ (List.mem_map_of_mem hx)) current_id.symm
  refine List.pairwise_append.mpr ⟨hfresh, List.pairwise_map.mpr ?_, fun u hu v hv => ?_⟩
  · refine horder.rows.imp_of_mem fun {a b} ha hb hle => ?_
    rw [← hcurrent a ha, ← hcurrent b hb]
    exact hle
  · obtain ⟨x, hx, rfl⟩ := List.mem_map.mp hv
    obtain ⟨hnew, hlast⟩ := (harrived.mem_iff u).mp hu
    rw [← hcurrent x hx]
    exact horder.batch u (lastVersion_mem hlast) hnew x hx

/-- What is not shown after a batch in order is no newer than any row that is. It is
cut with this batch, or older than the row the list went on from. -/
theorem Inv.hidden_oldest (hinv : Inv keyID f w l)
    (hgenuine : (Action.onReceipts batch).Genuine keyID f w l)
    (htopped : Topped w l.feed batch next) (horder : TrimsInOrder w l batch)
    (hsorted : Newest Receipt.ts next) (hr : r ∈ l.trimmed ++ trims w l.feed batch)
    (hhidden : r.id ∉ (l.feed.onReceipts w batch).rows.map Receipt.id)
    {row : Receipt} (hrow : row ∈ next.take MAX_ROWS) : r.ts ≤ row.ts := by
  have hheld : r.request ∈ matchesIn l.log (queryString keyID f w) := by
    rcases List.mem_append.mp hr with htrimmed | htrims
    · exact hinv.heldTrimmed r htrimmed
    · exact hinv.known hgenuine (mem_trims.mp htrims).1
  by_cases hmem : r.id ∈ next.map Receipt.id
  · obtain ⟨cut, hcut, hid⟩ := List.mem_map.mp hmem
    rw [hinv.ts_eq hgenuine htopped hheld hcut hid.symm]
    have hdrop : cut ∈ next.drop MAX_ROWS := by
      rw [← List.take_append_drop MAX_ROWS next, List.mem_append] at hcut
      refine hcut.resolve_left fun htake => hhidden ?_
      rw [htopped.rows, ← hid]
      exact List.mem_map_of_mem htake
    rw [← List.take_append_drop MAX_ROWS next] at hsorted
    exact (List.pairwise_append.mp hsorted).2.2 row hrow cut hdrop
  · have hmissing : l.Missing r := by
      rcases List.mem_append.mp hr with htrimmed | htrims
      · refine ⟨htrimmed, fun hid => hmem ?_⟩
        obtain ⟨row, hrow, hid⟩ := List.mem_map.mp hid
        rw [← hid]
        exact htopped.there row (.inl hrow)
      · exact absurd (htopped.there r (mem_trims.mp htrims).1) hmem
    obtain ⟨before, hbefore, hlt⟩ := (hinv.reaches r hmissing).before
    rw [Feed.before, horder.continueBefore] at hbefore
    obtain ⟨last, hlast, rfl⟩ := Option.map_eq_some_iff.mp hbefore
    obtain ⟨last', hlast', hid⟩ := htopped.last last hlast
    have hts : last.ts = last'.ts :=
      hinv.ts_eq hgenuine htopped (hinv.held last (List.mem_of_getLast? hlast))
      (List.mem_of_getLast? hlast') hid.symm
    have hle : r.ts ≤ last'.ts := by omega
    exact hle.trans (hsorted.getLast_le hlast' (List.mem_of_mem_take hrow))

/-- Trimmed in order, what is left of the list reaches all that is not shown. -/
theorem Inv.trimmed_reaches (hinv : Inv keyID f w l)
    (hgenuine : (Action.onReceipts batch).Genuine keyID f w l)
    (htopped : Topped w l.feed batch next) (horder : TrimsInOrder w l batch)
    (hsorted : Newest Receipt.ts next)
    (htrims : trims w l.feed batch ≠ []) (hr : r ∈ l.trimmed ++ trims w l.feed batch)
    (hhidden : r.id ∉ (l.feed.onReceipts w batch).rows.map Receipt.id) :
    (l.feed.onReceipts w batch).Reaches r := by
  have hlong : MAX_ROWS < next.length := by
    by_contra hshort
    obtain ⟨cut, hcut⟩ := List.exists_mem_of_ne_nil _ htrims
    obtain ⟨hmem, hgone⟩ := mem_trims.mp hcut
    rw [htopped.rows, List.take_of_length_le (Nat.not_lt.mp hshort)] at hgone
    exact hgone (htopped.there cut hmem)
  have hlength : (next.take MAX_ROWS).length = MAX_ROWS := by
    rw [List.length_take]
    omega
  obtain ⟨row, hrow⟩ : ∃ row, (next.take MAX_ROWS).getLast? = some row := by
    have hpos : 0 < (next.take MAX_ROWS).length := by
      rw [hlength]
      decide
    exact ⟨_, List.getLast?_eq_some_getLast (List.ne_nil_of_length_pos hpos)⟩
  refine ⟨?_, (row.ts : Int) + 1, ?_, ?_⟩
  · rw [htopped.reachedEnd, hlength, decide_eq_false (Nat.lt_irrefl _), Bool.and_false]
  · rw [Feed.before, onReceipts_continueBefore, horder.continueBefore, htopped.rows, hrow]
    rfl
  · have hle := hinv.hidden_oldest hgenuine htopped horder hsorted hr hhidden
      (List.mem_of_getLast? hrow)
    omega

end Trimmed

private theorem Inv.onReceipts (hinv : Inv keyID f w l)
    (hgenuine : (Action.onReceipts batch).Genuine keyID f w l)
    (hsteady : (Action.onReceipts batch).Steady w l) :
    Inv keyID f w { l with feed := l.feed.onReceipts w batch, trimmed := l.trimmed ++ trims w l.feed batch } := by
  by_cases hbatch : inWindow w batch = []
  · have htrims : trims w l.feed batch = [] := by
      refine List.eq_nil_iff_forall_not_mem.mpr fun r hr => ?_
      obtain ⟨hmem, hnot⟩ := mem_trims.mp hr
      rw [onReceipts_none hbatch] at hnot
      rw [hbatch] at hmem
      exact hnot (List.mem_map_of_mem (hmem.resolve_right (by simp)))
    rw [onReceipts_none hbatch, htrims, List.append_nil]
    exact hinv
  obtain ⟨fresh, htopped, harrived, hfresh⟩ := topped hinv.ids hbatch
  have hheld {r : Receipt} (hr : r ∈ (l.feed.onReceipts w batch).rows) :
      r.request ∈ matchesIn l.log (queryString keyID f w) := by
    rw [htopped.rows] at hr
    exact hinv.known hgenuine (htopped.mem r (List.mem_of_mem_take hr))
  -- nothing is trimmed while a page is awaited
  have hmissing (htrims : trims w l.feed batch = []) (r : Receipt)
      (h : Listing.Missing { l with feed := l.feed.onReceipts w batch, trimmed := l.trimmed ++ trims w l.feed batch } r) :
      l.Missing r := by
    have htrimmed := h.trimmed
    rw [htrims, List.append_nil] at htrimmed
    exact ⟨htrimmed, fun hid => h.hidden (id_mem_of_trims_nil htrims hid)⟩
  have hawaited (hawaited : l.first ≠ none ∨ l.older ≠ none) : trims w l.feed batch = [] := by
    by_contra htrims
    have horder := hsteady htrims
    exact hawaited.elim (· horder.first) (· horder.older)
  exact {
    logIds := hinv.logIds
    ids := by
      rw [htopped.rows]
      exact htopped.ids.sublist ((List.take_sublist _ _).map _)
    held := fun r hr => hheld hr
    heldTrimmed := by
      intro r hr
      rcases List.mem_append.mp hr with htrimmed | htrims
      · exact hinv.heldTrimmed r htrimmed
      · exact hinv.known hgenuine (mem_trims.mp htrims).1
    stop := by
      intro continueBefore hstop
      rw [onReceipts_continueBefore] at hstop
      exact hinv.stop continueBefore hstop
    loaded := by
      intro hfirst
      rw [onReceipts_loaded]
      exact hinv.loaded hfirst
    first := by
      intro page hfirst
      show l.trimmed ++ trims w l.feed batch = []
      rw [hawaited (.inl (by rw [hfirst]; exact Option.some_ne_none _)), List.append_nil]
      exact hinv.first page hfirst
    firstPage := hinv.firstPage
    asked := hinv.asked
    askedReaches := by
      intro before holder r h
      exact hinv.askedReaches before holder r
        (hmissing (hawaited (.inr (by rw [holder]; exact Option.some_ne_none _))) r h)
    olderPage := by
      intro before page holder
      obtain ⟨hpage, hleaves⟩ := hinv.olderPage before page holder
      have htrims := hawaited (.inr (by rw [holder]; exact Option.some_ne_none _))
      exact ⟨hpage, fun r h => hleaves r (hmissing htrims r h)⟩
    reaches := by
      intro r h
      by_cases htrims : trims w l.feed batch = []
      · have hreaches := hinv.reaches r (hmissing htrims r h)
        obtain ⟨before, hbefore, hlt⟩ := hreaches.before
        refine ⟨onReceipts_reachedEnd hreaches.more, before, ?_, hlt⟩
        exact htopped.before hinv.logIds
          (fun r hr => hinv.known hgenuine (htopped.mem r hr)) hinv.held htrims hbefore
      · have horder := hsteady htrims
        have hsorted := hinv.topped_newest hgenuine htopped harrived hfresh horder
        exact hinv.trimmed_reaches hgenuine htopped horder hsorted htrims h.trimmed h.hidden }

private theorem Inv.loadOlder (hinv : Inv keyID f w l) {before : Int}
    (hbefore : l.feed.before = some before) :
    Inv keyID f w { l with older := some (before, none) } :=
  { hinv with
    asked := by
      intro before' page holder
      obtain ⟨rfl, _⟩ := Prod.mk.inj (Option.some.inj holder)
      exact hinv.before hbefore
    askedReaches := by
      intro before' holder r hmissing
      obtain ⟨rfl, _⟩ := Prod.mk.inj (Option.some.inj holder)
      obtain ⟨before', hbefore', hlt⟩ := (hinv.reaches r ⟨hmissing.trimmed, hmissing.hidden⟩).before
      rw [hbefore] at hbefore'
      rwa [Option.some.inj hbefore']
    olderPage := by
      intro before' page holder
      cases holder
    reaches := fun r hmissing => hinv.reaches r ⟨hmissing.trimmed, hmissing.hidden⟩ }

private theorem Inv.readFirst (hinv : Inv keyID f w l) {om : (q : Request) → Answer q}
    {cached : Option Pricer} (hserves : ServesInOrder l.log om) (hfirst : l.first = some none)
    (hread : (ServerM.eval om (apiReceipts s (queryString keyID f w)) cached).1.toOption =
      some page) :
    Inv keyID f w { l with first := some (some page) } := by
  have hnewest : Newest Event.time (window l.log (queryString keyID f w)) := hserves.newest.filter _
  obtain ⟨t, hbound⟩ := hnewest.exists_newest
  have hall : window l.log (queryString keyID f w) = upTo l.log (queryString keyID f w) t :=
    (List.filter_eq_self.mpr fun e he => decide_eq_true (hbound e he)).symm
  obtain ⟨page', cached', heval, hanswers⟩ :=
    apiReceipts_answers (s := s) (q := queryString keyID f w) hserves
    (Eq.refl (queryString keyID f w).matchReceipt) hall cached
  rw [heval] at hread
  obtain rfl : page' = page := Option.some.inj hread
  exact { hinv with
    loaded := by simp
    first := fun _ _ => hinv.first none hfirst
    firstPage := by
      intro page'' hpage
      obtain rfl := Option.some.inj (Option.some.inj hpage)
      exact hanswers.of hnewest hinv.logIds
    askedReaches := fun before holder r hmissing => hinv.askedReaches before holder r
      ⟨hmissing.trimmed, hmissing.hidden⟩
    olderPage := by
      intro before page'' holder
      obtain ⟨hpage, hleaves⟩ := hinv.olderPage before page'' holder
      exact ⟨hpage, fun r hmissing => hleaves r ⟨hmissing.trimmed, hmissing.hidden⟩⟩
    reaches := fun r hmissing => hinv.reaches r ⟨hmissing.trimmed, hmissing.hidden⟩ }

private theorem Inv.readOlder (hinv : Inv keyID f w l) {om : (q : Request) → Answer q}
    {cached : Option Pricer} {before : Int}
    (hserves : ServesInOrder l.log om) (holder : l.older = some (before, none))
    (hread : (ServerM.eval om (apiReceipts s (queryString keyID f { w with before := some before }))
      cached).1.toOption =
      some page) :
    Inv keyID f w { l with older := some (before, some page) } := by
  have hnewest : Newest Event.time (window l.log (queryString keyID f w)) := hserves.newest.filter _
  obtain ⟨e, he, rfl⟩ := hinv.asked before none holder
  obtain ⟨page', cached', heval, hanswers⟩ :=
    apiReceipts_older (s := s) hserves he cached
  rw [heval] at hread
  obtain rfl : page' = page := Option.some.inj hread
  exact { hinv with
    asked := by
      intro before' page'' holder'
      obtain ⟨rfl, _⟩ := Prod.mk.inj (Option.some.inj holder')
      exact ⟨e, he, rfl⟩
    askedReaches := by
      intro before' holder'
      cases holder'
    olderPage := by
      intro before' page'' holder'
      obtain ⟨_, hpage⟩ := Prod.mk.inj (Option.some.inj holder')
      obtain rfl := Option.some.inj hpage
      refine ⟨hanswers.of hnewest hinv.logIds, fun r hmissing hnot => ?_⟩
      have hlt := hinv.askedReaches _ holder r ⟨hmissing.trimmed, hmissing.hidden⟩
      exact hanswers.leaves hnewest (hinv.heldTrimmed r hmissing.trimmed) (by omega) hnot
    reaches := fun r hmissing => hinv.reaches r ⟨hmissing.trimmed, hmissing.hidden⟩ }

/-- A page adds rows of its own only, in its order. -/
theorem unseen_sublist (rows page : List Receipt) : (unseen rows page).Sublist page :=
  List.filter_sublist

/-- A page adds no row twice. -/
theorem nodup_unseen {rows page : List Receipt} (hrows : (rows.map Receipt.id).Nodup)
    (hpage : (page.map Receipt.id).Nodup) :
    ((rows ++ unseen rows page).map Receipt.id).Nodup := by
  rw [List.map_append]
  refine List.nodup_append.mpr ⟨hrows, hpage.sublist ((unseen_sublist rows page).map _),
    fun id hid id' hid' hsame => ?_⟩
  obtain ⟨r, hr, rfl⟩ := List.mem_map.mp hid'
  have hnot := of_decide_eq_true (List.mem_filter.mp hr).2
  exact hnot (hsame ▸ hid)

/-- Rows that match in the log match in it with a page of older ones below them. -/
theorem held_older {feed : Feed} {log : List Event} {q : ReceiptFilter}
    (hheld : ∀ r ∈ feed.rows, r.request ∈ matchesIn log q) (hpage : page.Of log q) :
    ∀ r ∈ feed.rows ++ unseen feed.rows page.rows, r.request ∈ matchesIn log q := by
  intro r hr
  rcases List.mem_append.mp hr with hrow | hnew
  · exact hheld r hrow
  · exact hpage.held r ((unseen_sublist _ _).subset hnew)

private theorem mergeNewer_perm (rows page : List Receipt) :
    (mergeNewer rows page).Perm (rows ++ unseen rows page) := by
  rw [mergeNewer]
  split_ifs with hnone
  · subst hnone
    rw [List.nil_append, unseen, List.filter_eq_self.mpr (by simp)]
  · exact List.mergeSort_perm _ _

private theorem Inv.showFirst (hinv : Inv keyID f w l) (hfirst : l.first = some (some page)) :
    Inv keyID f w { l with feed := l.feed.first page, first := none } := by
  have hpage := hinv.firstPage page hfirst
  have hperm := mergeNewer_perm l.feed.rows page.rows
  have hnone := hinv.first _ hfirst
  exact {
    logIds := hinv.logIds
    ids := (hperm.map Receipt.id).nodup_iff.mpr (nodup_unseen hinv.ids hpage.ids)
    held := fun r hr => held_older hinv.held hpage r (hperm.mem_iff.mp hr)
    heldTrimmed := hinv.heldTrimmed
    stop := hpage.stop
    loaded := fun _ => rfl
    first := by simp
    firstPage := by simp
    asked := hinv.asked
    askedReaches := fun before holder r hmissing => absurd hmissing (Listing.not_missing hnone)
    olderPage := by
      intro before page' holder
      exact ⟨(hinv.olderPage before page' holder).1,
        fun r hmissing => absurd hmissing (Listing.not_missing hnone)⟩
    reaches := fun r hmissing => absurd hmissing (Listing.not_missing hnone) }

/-- A page of older rows shows what it has found, or the list goes on to it. -/
theorem older_reaches {feed : Feed} (hleaves : r.id ∉ page.rows.map Receipt.id → page.Leaves r)
    (hnew : page.continueBefore = none → PAGE ≤ page.rows.length → unseen feed.rows page.rows ≠ [])
    (hhidden : r.id ∉ (feed.older page).rows.map Receipt.id) : (feed.older page).Reaches r := by
  rw [Feed.older, List.map_append, List.mem_append, not_or] at hhidden
  have hnot : r.id ∉ page.rows.map Receipt.id := by
    intro hid
    obtain ⟨row, hrow, hid⟩ := List.mem_map.mp hid
    refine hhidden.2 (hid ▸ List.mem_map_of_mem (List.mem_filter.mpr ⟨hrow, decide_eq_true ?_⟩))
    rw [hid]
    exact hhidden.1
  have hleft := hleaves hnot
  cases hstop : page.continueBefore with
  | some continueBefore =>
    refine ⟨?_, continueBefore, ?_, hleft.stopped continueBefore hstop⟩
    · simp only [Feed.older, hstop, reduceCtorEq, decide_false, Bool.false_and]
    · simp only [Feed.before, Feed.older, hstop]
      rfl
  | none =>
    obtain ⟨hfull, hnewer⟩ := hleft.full hstop
    have hnew := hnew hstop hfull
    have hlast := List.getLast?_eq_some_getLast hnew
    refine ⟨?_, ((unseen feed.rows page.rows).getLast hnew).ts + 1, ?_, ?_⟩
    · simp only [Feed.older, hstop, decide_true, Bool.true_and, decide_eq_false hnew, Bool.or_false,
        decide_eq_false (Nat.not_lt.mpr hfull)]
    · simp only [Feed.before, Feed.older, hstop, List.getLast?_append, hlast]
      rfl
    · have hle := hnewer _ ((unseen_sublist _ _).subset (List.getLast_mem hnew))
      omega

private theorem Inv.showOlder (hinv : Inv keyID f w l) {before : Int}
    (holder : l.older = some (before, some page)) (hsteady : Action.showOlder.Steady w l) :
    Inv keyID f w { l with feed := l.feed.older page, older := none } := by
  obtain ⟨hpage, hleaves⟩ := hinv.olderPage before page holder
  exact {
    logIds := hinv.logIds
    ids := nodup_unseen hinv.ids hpage.ids
    held := held_older hinv.held hpage
    heldTrimmed := hinv.heldTrimmed
    stop := hpage.stop
    loaded := hinv.loaded
    first := hinv.first
    firstPage := hinv.firstPage
    asked := by simp
    askedReaches := by simp
    olderPage := by simp
    reaches := by
      intro r hmissing
      refine older_reaches (hleaves r ⟨hmissing.trimmed, fun hid => hmissing.hidden ?_⟩)
        (hsteady before page holder)
        hmissing.hidden
      exact List.map_append ▸ List.mem_append_left _ hid }

private theorem Inv.failFirst (hinv : Inv keyID f w l) :
    Inv keyID f w { l with feed := { l.feed with loaded := true }, first := none } :=
  { hinv with
    loaded := fun _ => rfl
    first := by simp
    firstPage := by simp
    askedReaches := fun before holder r hmissing => hinv.askedReaches before holder r
      ⟨hmissing.trimmed, hmissing.hidden⟩
    olderPage := by
      intro before page holder
      obtain ⟨hpage, hleaves⟩ := hinv.olderPage before page holder
      exact ⟨hpage, fun r hmissing => hleaves r ⟨hmissing.trimmed, hmissing.hidden⟩⟩
    reaches := by
      intro r hmissing
      have hreaches := hinv.reaches r ⟨hmissing.trimmed, hmissing.hidden⟩
      exact ⟨hreaches.more, hreaches.before⟩ }

private theorem Inv.failOlder (hinv : Inv keyID f w l) : Inv keyID f w { l with older := none } :=
  { hinv with
    asked := by simp
    askedReaches := by simp
    olderPage := by simp
    reaches := fun r hmissing => hinv.reaches r ⟨hmissing.trimmed, hmissing.hidden⟩ }

private theorem Inv.reload (hinv : Inv keyID f w l) :
    Inv keyID f w { l with feed := {}, first := some none, trimmed := [] } where
  logIds := hinv.logIds
  ids := List.nodup_nil
  held := by simp
  heldTrimmed := by simp
  stop := by simp
  loaded := by simp
  first := by simp
  firstPage := by simp
  asked := hinv.asked
  askedReaches before holder r hmissing := absurd hmissing (Listing.not_missing rfl)
  olderPage before page holder := by
    refine ⟨(hinv.olderPage before page holder).1,
      fun r hmissing => absurd hmissing (Listing.not_missing rfl)⟩
  reaches r hmissing := absurd hmissing (Listing.not_missing rfl)

private theorem Inv.step (hinv : Inv keyID f w l) {a : Action} (hgenuine : a.Genuine keyID f w l) (hsteady : a.Steady w l)
    (hstep : l.step keyID s f w a = some l') : Inv keyID f w l' := by
  cases a with
  | grow log =>
    obtain rfl := Option.some.inj hstep
    exact hinv.grow hgenuine
  | onReceipts batch =>
    obtain rfl := Option.some.inj hstep
    exact hinv.onReceipts hgenuine hsteady
  | loadOlder =>
    rw [Listing.step] at hstep
    split_ifs at hstep
    obtain ⟨before, hbefore, rfl⟩ := Option.map_eq_some_iff.mp hstep
    exact hinv.loadOlder hbefore
  | readFirst om cached =>
    rw [Listing.step] at hstep
    split at hstep
    · next hfirst =>
      obtain ⟨page, hread, rfl⟩ := Option.map_eq_some_iff.mp hstep
      exact hinv.readFirst hgenuine hfirst hread
    · cases hstep
  | readOlder om cached =>
    rw [Listing.step] at hstep
    split at hstep
    · next before holder =>
      obtain ⟨page, hread, rfl⟩ := Option.map_eq_some_iff.mp hstep
      exact hinv.readOlder hgenuine holder hread
    · cases hstep
  | showFirst =>
    rw [Listing.step] at hstep
    split at hstep
    · next page hfirst =>
      obtain rfl := Option.some.inj hstep
      exact hinv.showFirst hfirst
    · cases hstep
  | showOlder =>
    rw [Listing.step] at hstep
    split at hstep
    · next before page holder =>
      obtain rfl := Option.some.inj hstep
      exact hinv.showOlder holder hsteady
    · cases hstep
  | failFirst =>
    obtain ⟨_, _, rfl⟩ := Option.map_eq_some_iff.mp hstep
    exact hinv.failFirst
  | failOlder =>
    obtain ⟨_, _, rfl⟩ := Option.map_eq_some_iff.mp hstep
    exact hinv.failOlder
  | reload =>
    obtain rfl := Option.some.inj hstep
    exact hinv.reload

/-- The invariant holds in every listing that live receipts and pages lead to. -/
theorem Reachable.inv (h : Reachable keyID s f w l) : Inv keyID f w l := by
  induction h with
  | start hids => exact inv_start hids
  | step a _ hgenuine hsteady hstep ih => exact ih.step hgenuine hsteady hstep

/-- In every run of steady steps, whatever the list has trimmed and does not show is
older than where its next page of older rows is asked for, and the list has not come
to its end. -/
theorem trimmed_refetchable (keyID : GoString → GoString) (s : Server) (f : Filters)
    (w : TrafficWindow) (l : Listing)
    (hreach : Reachable keyID s f w l) (r : Receipt) (htrimmed : r ∈ l.trimmed)
    (hhidden : r.id ∉ l.feed.rows.map Receipt.id) :
    l.feed.reachedEnd = false ∧ ∃ before, l.feed.before = some before ∧ (r.ts : Int) < before := by
  have hreaches := hreach.inv.reaches r ⟨htrimmed, hhidden⟩
  exact ⟨hreaches.more, hreaches.before⟩

end Steps

section Example

/-- One request more than the list has rows for, one each millisecond. -/
def busy : List Event := (List.range (MAX_ROWS + 1)).map (fun i => served (itoa i) (MAX_ROWS - i))

/-- The first of them. -/
def earliest : Receipt := receiptFrom (served (itoa MAX_ROWS) 0)

/-- The list once its first page has failed and the tail has brought a log. -/
def tailed (log : List Event) : Listing where
  log := log
  feed := ({ loaded := true } : Feed).onReceipts ⟨0, none⟩ (log.map receiptFrom)
  first := none
  trimmed := trims ⟨0, none⟩ { loaded := true } (log.map receiptFrom)

private theorem tailed_reachable {log : List Event}
    (hids : ((matchesIn log (queryString id {} ⟨0, none⟩)).map Receipt.id).Nodup)
    (hlog : ∀ e ∈ log, e.type = requestEvent ∧
      (queryString id {} ⟨0, none⟩).matchReceipt (receiptFrom e) = true) :
    Reachable id plainServer {} ⟨0, none⟩ (tailed log) := by
  have hfailed := (Reachable.start (s := plainServer) hids).step .failFirst trivial trivial rfl
  refine hfailed.step (.onReceipts (log.map receiptFrom)) (fun r hr => ?_)
    (fun _ => ⟨rfl, rfl, rfl, List.Pairwise.nil, ?_⟩) rfl
  · obtain ⟨e, he, rfl⟩ := List.mem_map.mp hr
    exact ⟨e, he, (hlog e he).1, rfl, (hlog e he).2⟩
  · intro r _ _ r' hr'
    cases hr'

/-- A first batch of everything the log holds leaves its newest rows. -/
theorem tailed_rows {log : List Event} {next : List Receipt}
    (h : Topped ⟨0, none⟩ { loaded := true } (log.map receiptFrom) next) :
    (tailed log).feed.rows = next.take MAX_ROWS := h.rows

private theorem mem_tailed_trimmed {log : List Event} {r : Receipt}
    (hr : r ∈ inWindow ⟨0, none⟩ (log.map receiptFrom))
    (hhidden : r.id ∉ (tailed log).feed.rows.map Receipt.id) : r ∈ (tailed log).trimmed :=
  mem_trims.mpr ⟨.inr hr, hhidden⟩

/-- The requests of the busy log, by number: one more than the rows hold. -/
theorem mem_busy {e : Event} :
    e ∈ busy ↔ ∃ i, i ≤ MAX_ROWS ∧ served (itoa i) (MAX_ROWS - i) = e := by
  simp only [busy, List.mem_map, List.mem_range, Nat.lt_succ_iff]

/-- The busy log is newest first. -/
theorem busy_newest : busy.Pairwise (fun e e' => e'.time ≤ e.time) := by
  refine List.pairwise_map.mpr (List.pairwise_lt_range.imp fun {i j} hlt => ?_)
  show MAX_ROWS - j ≤ MAX_ROWS - i
  omega

private theorem busy_matches :
    matchesIn busy (queryString id {} ⟨0, none⟩) = busy.map receiptFrom := by
  refine served_matches fun e he => ?_
  obtain ⟨i, _, heq⟩ := mem_busy.mp he
  exact ⟨_, _, heq⟩

/-- The busy log's requests have ids of their own. -/
theorem busy_ids : ((busy.map receiptFrom).map Receipt.id).Nodup := by
  rw [busy, List.map_map, List.map_map]
  exact List.nodup_range.map itoa_injective

private theorem busy_inWindow :
    inWindow ⟨0, none⟩ (busy.map receiptFrom) = busy.map receiptFrom := by
  refine List.filter_eq_self.mpr fun r hr => ?_
  obtain ⟨e, he, rfl⟩ := List.mem_map.mp hr
  simp

private theorem earliest_mem : earliest ∈ busy.map receiptFrom :=
  List.mem_map_of_mem (mem_busy.mpr ⟨MAX_ROWS, le_rfl, by rw [Nat.sub_self]⟩)

private theorem eq_earliest {r : Receipt} (hr : r ∈ busy.map receiptFrom) (hts : r.ts = 0) :
    r = earliest := by
  obtain ⟨e, he, rfl⟩ := List.mem_map.mp hr
  obtain ⟨i, hi, rfl⟩ := mem_busy.mp he
  have htime : MAX_ROWS - i = 0 := hts
  obtain rfl : i = MAX_ROWS := by omega
  rw [earliest, Nat.sub_self]

/-- The rows the tail has brought, newest first, before any are trimmed. -/
theorem busy_topped : ∃ next, Topped ⟨0, none⟩ { loaded := true } (busy.map receiptFrom) next ∧
    Newest Receipt.ts next ∧
    (∀ r ∈ next, r ∈ busy.map receiptFrom) ∧ MAX_ROWS < next.length := by
  have hsome : inWindow ⟨0, none⟩ (busy.map receiptFrom) ≠ [] := by
    rw [busy_inWindow]
    exact List.ne_nil_of_mem earliest_mem
  have hids : ((({ loaded := true } : Feed).rows).map Receipt.id).Nodup := List.nodup_nil
  obtain ⟨fresh, htopped, _, hnewest⟩ := topped hids hsome
  rw [List.map_nil, List.append_nil] at htopped
  have hmem : ∀ r ∈ fresh, r ∈ busy.map receiptFrom := by
    intro r hr
    have hin := (htopped.mem r hr).resolve_left (by simp)
    rwa [busy_inWindow] at hin
  refine ⟨fresh, htopped, hnewest, hmem, ?_⟩
  have hsubset : (busy.map receiptFrom).map Receipt.id ⊆ fresh.map Receipt.id := by
    intro id hid
    obtain ⟨r, hr, rfl⟩ := List.mem_map.mp hid
    exact htopped.there r (.inr (by rwa [busy_inWindow]))
  have hlength := (busy_ids.subperm hsubset).length_le
  rw [List.length_map, List.length_map, List.length_map, busy, List.length_map, List.length_range]
    at hlength
  omega

private theorem earliest_hidden : earliest.id ∉ (tailed busy).feed.rows.map Receipt.id := by
  obtain ⟨next, htopped, hnewest, hmem, hlong⟩ := busy_topped
  intro hid
  obtain ⟨r, hr, hid⟩ := List.mem_map.mp hid
  rw [tailed_rows htopped] at hr
  obtain rfl : r = earliest :=
    List.inj_on_of_nodup_map busy_ids (hmem r (List.mem_of_mem_take hr)) earliest_mem hid
  -- what is cut would be no newer, and there is one receipt of that time
  obtain ⟨cut, hcut⟩ :=
    List.exists_mem_of_length_pos (l := next.drop MAX_ROWS) (by rw [List.length_drop]; omega)
  have hsplit := List.take_append_drop MAX_ROWS next
  rw [← hsplit] at hnewest
  have hle : cut.ts ≤ earliest.ts := (List.pairwise_append.mp hnewest).2.2 earliest hr cut hcut
  obtain rfl : cut = earliest :=
    eq_earliest (hmem cut (List.mem_of_mem_drop hcut)) (Nat.le_zero.mp hle)
  have hnodup := htopped.ids
  rw [← hsplit, List.map_append] at hnodup
  exact List.disjoint_of_nodup_append hnodup (List.mem_map_of_mem hr) (List.mem_map_of_mem hcut)

/-- The batch of all of them trims the oldest. -/
theorem earliest_trimmed : earliest ∈ (tailed busy).trimmed := by
  refine mem_tailed_trimmed ?_ earliest_hidden
  rw [busy_inWindow]
  exact earliest_mem

/-- One batch after an empty first page leads to the busy log's listing. -/
theorem busy_reachable : Reachable id plainServer {} ⟨0, none⟩ (tailed busy) := by
  refine tailed_reachable ?_ fun e he => ?_
  · rw [busy_matches]
    exact busy_ids
  · obtain ⟨i, _, rfl⟩ := mem_busy.mp he
    exact ⟨rfl, rfl⟩

/-- The trim clears the end of the list, and the next page's bound lies above the trimmed row.
-/
theorem earliest_refetchable : (tailed busy).feed.reachedEnd = false ∧
    ∃ before, (tailed busy).feed.before = some before ∧ (earliest.ts : Int) < before :=
  trimmed_refetchable id plainServer {} ⟨0, none⟩
    (tailed busy) busy_reachable earliest earliest_trimmed earliest_hidden

end Example

end trafficFeed
