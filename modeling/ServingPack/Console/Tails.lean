import ServingPack.Console.ReceiptStream
import ServingPack.Lib.Run

open golang concurrency openmeter

namespace appState

/-- A connection of the live stream, by the filters it was opened with. -/
structure Socket where
  query : GoString
  isOpen : Bool := true

/-- A browser tab's live stream. A tailer is known by the number of the call that set it. -/
structure Tab where
  stream : ReceiptStream := {}
  started : Bool := false
  sockets : List Socket := []
  /-- The connection in use. -/
  es : Option Nat := none
  query : GoString := []
  tailer : Option Nat := none
  /-- What each call of `tail` narrows the stream to. -/
  tails : List GoString := []
  queue : List Receipt := []
  /-- A flush is due. -/
  timer : Bool := false
  microtasks : Nat := 0

/-- What a tab sees and does, with the tailer at the time. -/
inductive Note where
  | received (query : GoString) (tailer : Option Nat) (r : Receipt)
  | dropped (query : GoString) (tailer : Option Nat) (count : Nat)
  | flushed (tailer : Option Nat) (batch : List Receipt)

/-- Applies what has queued up, and hands it to the tailer. -/
def Tab.flush (tab : Tab) : Tab × List Note :=
  if tab.queue = [] then ({ tab with timer := false }, [])
  else ({ tab with timer := false, queue := [], stream := tab.stream.upsertMany tab.queue },
    [.flushed tab.tailer tab.queue])

def Tab.close (tab : Tab) : Tab :=
  { tab with sockets := tab.sockets.mapIdx (fun i socket => if tab.es = some i then { socket with isOpen := false } else socket) }

def Tab.connect (tab : Tab) : Tab × List Note :=
  let (tab, noted) := tab.close.flush
  ({ tab with sockets := tab.sockets ++ [{ query := tab.query }], es := some tab.sockets.length },
    noted)

def Tab.start (tab : Tab) : Tab × List Note :=
  if tab.started then (tab, []) else { tab with started := true }.connect

/-- Narrows the stream to a query, and hands each batch to a new tailer in place of the one
before. -/
def Tab.tail (tab : Tab) (query : GoString) : Tab × List Note :=
  let (tab, noted) := tab.flush
  let reconnect := tab.started && query ≠ tab.query
  let tab := { tab with tailer := some tab.tails.length, tails := tab.tails ++ [query], query := query }
  let (tab, noted') := if reconnect then tab.connect else tab.start
  (tab, noted' ++ noted)

/-- What the function that `tail` has returned does. -/
def Tab.untail (tab : Tab) (t : Nat) : Tab × List Note :=
  if tab.tailer ≠ some t then (tab, [])
  else
    let (tab, noted) := tab.flush
    ({ tab with tailer := none, microtasks := tab.microtasks + 1 }, noted)

/-- Widens the stream again, unless it is tailed by now. -/
def Tab.widen (tab : Tab) : Tab × List Note :=
  let tab := { tab with microtasks := tab.microtasks - 1 }
  if tab.tailer.isSome || tab.query = [] then (tab, []) else { tab with query := [] }.connect

inductive TabAction where
  | subscribe
  | tail (query : GoString)
  | untail (t : Nat)
  | microtask
  | receipt (socket : Nat) (r : Receipt)
  | dropped (socket count : Nat)
  | timeout

/-- A message comes on a connection that is open. -/
def Tab.onMessage (tab : Tab) (i : Nat) (next : GoString → Tab × List Note) :
    Option (Tab × List Note) :=
  match tab.sockets[i]? with
  | some socket => if socket.isOpen then some (next socket.query) else none
  | none => none

def Tab.step (tab : Tab) : TabAction → Option (Tab × List Note)
  | .subscribe => some tab.start
  | .tail query => some (tab.tail query)
  | .untail t => if t < tab.tails.length then some (tab.untail t) else none
  | .microtask => if 0 < tab.microtasks then some tab.widen else none
  | .receipt i r => tab.onMessage i (fun query =>
      ({ tab with queue := tab.queue ++ [r], timer := true }, [.received query tab.tailer r]))
  | .dropped i count => tab.onMessage i (fun query => (tab, [.dropped query tab.tailer count]))
  | .timeout => if tab.timer then some tab.flush else none

section Accounts

/-- The receipts that came while a tailer was set, oldest first. -/
def cameFor (t : Nat) : List Note → List Receipt
  | [] => []
  | .received _ (some t') r :: earlier =>
      if t' = t then cameFor t earlier ++ [r] else cameFor t earlier
  | _ :: earlier => cameFor t earlier

/-- The receipts a tailer was handed, oldest first. -/
def handedTo (t : Nat) : List Note → List Receipt
  | [] => []
  | .flushed (some t') batch :: earlier =>
      if t' = t then handedTo t earlier ++ batch else handedTo t earlier
  | _ :: earlier => handedTo t earlier

/-- All receipts that came, oldest first. -/
def came : List Note → List Receipt
  | [] => []
  | .received _ _ r :: earlier => came earlier ++ [r]
  | _ :: earlier => came earlier

/-- The batches that were applied, oldest first. -/
def batches : List Note → List (List Receipt)
  | [] => []
  | .flushed _ batch :: earlier => batches earlier ++ [batch]
  | _ :: earlier => batches earlier

/-- The query of each message and the tailer it came for. -/
def Note.askedBy (tails : List GoString) : Note → Prop
  | .received query (some t) _ => tails[t]? = some query
  | .dropped query (some t) _ => tails[t]? = some query
  | _ => True

/-- Where the receipts that came have gone. -/
structure Accounts (tab : Tab) (log : List Note) : Prop where
  handed : ∀ t, handedTo t log ++ (if tab.tailer = some t then tab.queue else []) = cameFor t log
  applied : (batches log).flatten ++ tab.queue = came log
  stream : tab.stream = (batches log).foldl ReceiptStream.upsertMany {}
  timer : tab.timer = true ↔ tab.queue ≠ []
  asked : ∀ note ∈ log, note.askedBy tab.tails

/-- What the tab is connected to. -/
structure Wired (tab : Tab) : Prop where
  only : ∀ i socket, tab.sockets[i]? = some socket → socket.isOpen = true → tab.es = some i
  query : ∀ i, tab.es = some i → ∃ socket, tab.sockets[i]? = some socket ∧ socket.query = tab.query
  unstarted : tab.started = false → tab.es = none
  tailer : ∀ t, tab.tailer = some t → tab.tails[t]? = some tab.query
  tailed : tab.tailer ≠ none ∨ 0 < tab.microtasks → tab.started = true

variable {tab tab' : Tab} {log noted : List Note}

private theorem Accounts.flush (h : Accounts tab log) :
    Accounts tab.flush.1 (tab.flush.2 ++ log) := by
  rw [Tab.flush]
  split_ifs with hempty
  · exact ⟨h.handed, h.applied, h.stream, by simp [hempty], h.asked⟩
  · refine ⟨fun t => ?_, ?_, ?_, by simp, ?_⟩
    · have hhanded := h.handed t
      cases htailer : tab.tailer with
      | none =>
        rw [htailer] at hhanded
        simpa [handedTo, cameFor, htailer] using hhanded
      | some t' =>
        rw [htailer] at hhanded
        by_cases ht : t' = t
        · simpa [handedTo, cameFor, ht, htailer] using hhanded
        · simpa [handedTo, cameFor, ht, htailer] using hhanded
    · have happlied := h.applied
      simpa [batches, came] using happlied
    · show tab.stream.upsertMany tab.queue =
        (batches log ++ [tab.queue]).foldl ReceiptStream.upsertMany {}
      rw [List.foldl_append, ← h.stream]
      rfl
    · intro note hnote
      rcases List.mem_cons.mp hnote with rfl | hmem
      · trivial
      · exact h.asked note hmem

private theorem flush_queue : tab.flush.1.queue = [] := by
  rw [Tab.flush]
  split_ifs with hempty
  · exact hempty
  · rfl

/-- Flushing leaves the connections and the tailer alone. -/
theorem flush_wired : Wired tab.flush.1 ↔ Wired tab := by
  rw [Tab.flush]
  split_ifs
  · exact ⟨fun h => ⟨h.only, h.query, h.unstarted, h.tailer, h.tailed⟩,
      fun h => ⟨h.only, h.query, h.unstarted, h.tailer, h.tailed⟩⟩
  · exact ⟨fun h => ⟨h.only, h.query, h.unstarted, h.tailer, h.tailed⟩,
      fun h => ⟨h.only, h.query, h.unstarted, h.tailer, h.tailed⟩⟩

private theorem flush_fields :
    tab.flush.1.sockets = tab.sockets ∧ tab.flush.1.es = tab.es ∧ tab.flush.1.query = tab.query ∧
    tab.flush.1.tailer = tab.tailer ∧ tab.flush.1.tails = tab.tails ∧
    tab.flush.1.started = tab.started := by
  rw [Tab.flush]
  split_ifs
  · exact ⟨rfl, rfl, rfl, rfl, rfl, rfl⟩
  · exact ⟨rfl, rfl, rfl, rfl, rfl, rfl⟩

private theorem Accounts.connect (h : Accounts tab log) :
    Accounts tab.connect.1 (tab.connect.2 ++ log) := by
  have hclosed : Accounts tab.close log := ⟨h.handed, h.applied, h.stream, h.timer, h.asked⟩
  have hflushed := hclosed.flush
  exact ⟨hflushed.handed, hflushed.applied, hflushed.stream, hflushed.timer, hflushed.asked⟩

/-- Connecting leaves the new connection as the only one, with the tab's query. -/
theorem connect_wired
    (honly : ∀ i socket, tab.sockets[i]? = some socket → socket.isOpen = true → tab.es = some i)
    (hstarted : tab.started = true)
    (htailer : ∀ t, tab.tailer = some t → tab.tails[t]? = some tab.query) :
    Wired tab.connect.1 := by
  obtain ⟨hsockets, hes, hquery, htailer', htails, hstarted'⟩ := @flush_fields tab.close
  have hclosed : ∀ (i : Nat) (socket : Socket), tab.close.sockets[i]? = some socket →
      socket.isOpen = false := by
    intro i socket hsocket
    rw [Tab.close, List.getElem?_mapIdx] at hsocket
    obtain ⟨old, hold, rfl⟩ := Option.map_eq_some_iff.mp hsocket
    by_cases hthis : tab.es = some i
    · simp [hthis]
    · rw [if_neg hthis]
      by_contra hopen
      exact hthis (honly i old hold (by simpa using hopen))
  rw [Tab.connect]
  have hon : tab.close.flush.1.started = true := hstarted'.trans hstarted
  refine ⟨fun i socket hsocket hopen => ?_, fun i hi => ?_, fun hunstarted => ?_, fun t ht => ?_,
    fun _ => hon⟩
  · dsimp only at hsocket ⊢
    rw [hsockets] at hsocket ⊢
    rcases Nat.lt_trichotomy i tab.close.sockets.length with hlt | rfl | hgt
    · rw [List.getElem?_append_left hlt] at hsocket
      rw [hclosed i socket hsocket] at hopen
      cases hopen
    · rfl
    · rw [List.getElem?_eq_none (by rw [List.length_append, List.length_singleton]; omega)]
        at hsocket
      cases hsocket
  · obtain rfl := Option.some.inj hi
    exact ⟨{ query := tab.close.flush.1.query }, List.getElem?_concat_length, rfl⟩
  · dsimp only at hunstarted
    rw [hon] at hunstarted
    cases hunstarted
  · dsimp only at ht ⊢
    rw [htailer'] at ht
    rw [htails, hquery]
    exact htailer t ht

private theorem start_accounts (h : Accounts tab log) :
    Accounts tab.start.1 (tab.start.2 ++ log) := by
  rw [Tab.start]
  split_ifs
  · exact h
  · have hstarted : Accounts { tab with started := true } log :=
      ⟨h.handed, h.applied, h.stream, h.timer, h.asked⟩
    exact hstarted.connect

/-- A tab that starts is connected with its query, and one that has started is left as it was. -/
theorem start_wired (honly : ∀ i socket, tab.sockets[i]? = some socket → socket.isOpen = true →
    tab.es = some i)
    (hquery : tab.started = true → ∀ i, tab.es = some i → ∃ socket, tab.sockets[i]? = some socket ∧
      socket.query = tab.query)
    (htailer : ∀ t, tab.tailer = some t → tab.tails[t]? = some tab.query) : Wired tab.start.1 := by
  rw [Tab.start]
  split_ifs with hstarted
  · refine ⟨honly, hquery hstarted, fun hunstarted => ?_, htailer, fun _ => hstarted⟩
    rw [hstarted] at hunstarted
    cases hunstarted
  · exact connect_wired honly rfl htailer

private theorem askedBy_append {tails : List GoString} {note : Note} (h : note.askedBy tails)
    (query : GoString) :
    note.askedBy (tails ++ [query]) := by
  have hlater {t : Nat} {asked : GoString}
      (hasked : tails[t]? = some asked) : (tails ++ [query])[t]? = some asked := by
    obtain ⟨hlt, _⟩ := List.getElem?_eq_some_iff.mp hasked
    rwa [List.getElem?_append_left hlt]
  cases note with
  | received _ tailer _ =>
    cases tailer with
    | none => trivial
    | some t => exact hlater h
  | dropped _ tailer _ =>
    cases tailer with
    | none => trivial
    | some t => exact hlater h
  | flushed _ _ => trivial

/-- With nothing queued up, a new tailer has been handed all that came for it: nothing. -/
theorem Accounts.newTailer (h : Accounts tab log) (hempty : tab.queue = []) (query : GoString) :
    Accounts { tab with tailer := some tab.tails.length, tails := tab.tails ++ [query], query := query } log := by
  refine ⟨fun t => ?_, h.applied, h.stream, h.timer,
    fun note hnote => askedBy_append (h.asked note hnote) query⟩
  have hhanded := h.handed t
  simp only [hempty, ite_self] at hhanded ⊢
  exact hhanded

private theorem tail_accounts (h : Accounts tab log) (query : GoString) :
    Accounts (tab.tail query).1 ((tab.tail query).2 ++ log) := by
  have hnew := h.flush.newTailer flush_queue query
  rw [Tab.tail]
  dsimp only
  rw [List.append_assoc]
  split_ifs
  · exact hnew.connect
  · exact start_accounts hnew

private theorem tail_wired (h : Wired tab) (query : GoString) : Wired (tab.tail query).1 := by
  obtain ⟨hsockets, hes, hquery, _, htails, hstarted⟩ := @flush_fields tab
  have honly : ∀ i socket, tab.flush.1.sockets[i]? = some socket → socket.isOpen = true → tab.flush.1.es = some i := by
    rw [hsockets, hes]
    exact h.only
  have htailer : ∀ t, some tab.flush.1.tails.length = some t → (tab.flush.1.tails ++ [query])[t]? = some query := by
    intro t ht
    obtain rfl := Option.some.inj ht
    exact List.getElem?_concat_length
  rw [Tab.tail]
  dsimp only
  split_ifs with hreconnect
  · rw [Bool.and_eq_true, decide_eq_true_eq] at hreconnect
    exact connect_wired honly hreconnect.1 htailer
  · refine start_wired honly (fun hon i hi => ?_) htailer
    dsimp only at hon hi ⊢
    rw [Bool.and_eq_true, decide_eq_true_eq, not_and, not_not] at hreconnect
    rw [hreconnect hon, hquery, hsockets]
    rw [hes] at hi
    exact h.query i hi

private theorem untail_accounts (h : Accounts tab log) (t : Nat) :
    Accounts (tab.untail t).1 ((tab.untail t).2 ++ log) := by
  rw [Tab.untail]
  split_ifs
  · exact h
  · have hflushed := h.flush
    refine ⟨fun t' => ?_, hflushed.applied, hflushed.stream, hflushed.timer, hflushed.asked⟩
    have hhanded := hflushed.handed t'
    rw [flush_queue] at hhanded
    simpa using hhanded

private theorem untail_wired (h : Wired tab) (t : Nat) : Wired (tab.untail t).1 := by
  rw [Tab.untail]
  split_ifs
  · exact h
  · have hflushed := flush_wired.mpr h
    refine ⟨hflushed.only, hflushed.query, hflushed.unstarted, by simp, fun _ => ?_⟩
    obtain ⟨_, _, _, _, _, hstarted⟩ := @flush_fields tab
    exact hstarted.trans (h.tailed (.inl (by simp_all)))

private theorem widen_accounts (h : Accounts tab log) :
    Accounts tab.widen.1 (tab.widen.2 ++ log) := by
  rw [Tab.widen]
  dsimp only
  split_ifs
  · exact ⟨h.handed, h.applied, h.stream, h.timer, h.asked⟩
  · have hwider : Accounts { tab with microtasks := tab.microtasks - 1, query := [] } log :=
      ⟨h.handed, h.applied, h.stream, h.timer, h.asked⟩
    exact hwider.connect

private theorem widen_wired (h : Wired tab) (hmicrotask : 0 < tab.microtasks) :
    Wired tab.widen.1 := by
  have hstarted := h.tailed (.inr hmicrotask)
  rw [Tab.widen]
  dsimp only
  split_ifs with htailed
  · exact ⟨h.only, h.query, h.unstarted, h.tailer, fun _ => hstarted⟩
  · rw [Bool.or_eq_true, not_or, Option.not_isSome_iff_eq_none] at htailed
    refine connect_wired h.only hstarted fun t ht => ?_
    rw [htailed.1] at ht
    cases ht

/-- A message on an open connection comes on the one in use, which has the tab's query. -/
theorem onMessage_inv {i : Nat} {next : GoString → Tab × List Note} (h : Wired tab)
    (hstep : tab.onMessage i next = some (tab', noted)) : next tab.query = (tab', noted) := by
  rw [Tab.onMessage] at hstep
  cases hsocket : tab.sockets[i]? with
  | none =>
    rw [hsocket] at hstep
    cases hstep
  | some socket =>
    rw [hsocket] at hstep
    dsimp only at hstep
    split_ifs at hstep with hopen
    obtain ⟨socket', hsocket', hquery⟩ := h.query i (h.only i socket hsocket hopen)
    rw [hsocket] at hsocket'
    obtain rfl := Option.some.inj hsocket'
    rw [← hquery]
    exact Option.some.inj hstep

private theorem receipt_accounts (h : Accounts tab log) (hwired : Wired tab) (r : Receipt) :
    Accounts { tab with queue := tab.queue ++ [r], timer := true }
      (.received tab.query tab.tailer r :: log) := by
  refine ⟨fun t => ?_, ?_, h.stream, by simp, fun note hnote => ?_⟩
  · have hhanded := h.handed t
    cases htailer : tab.tailer with
    | none =>
      rw [htailer] at hhanded
      simpa [handedTo, cameFor] using hhanded
    | some t' =>
      rw [htailer] at hhanded
      by_cases ht : t' = t
      · simp only [ht, if_true] at hhanded
        simp only [handedTo, cameFor, ht, if_true, ← List.append_assoc, hhanded]
      · simpa [handedTo, cameFor, ht] using hhanded
  · show (batches log).flatten ++ (tab.queue ++ [r]) = came log ++ [r]
    rw [← List.append_assoc, h.applied]
  · rcases List.mem_cons.mp hnote with rfl | hmem
    · cases htailer : tab.tailer with
      | none => trivial
      | some t => exact hwired.tailer t htailer
    · exact h.asked note hmem

private theorem dropped_accounts (h : Accounts tab log) (hwired : Wired tab) (count : Nat) :
    Accounts tab (.dropped tab.query tab.tailer count :: log) := by
  refine ⟨h.handed, h.applied, h.stream, h.timer, fun note hnote => ?_⟩
  rcases List.mem_cons.mp hnote with rfl | hmem
  · cases htailer : tab.tailer with
    | none => trivial
    | some t => exact hwired.tailer t htailer
  · exact h.asked note hmem

private theorem step_keeps {a : TabAction} (h : Accounts tab log ∧ Wired tab)
    (hstep : tab.step a = some (tab', noted)) :
    Accounts tab' (noted ++ log) ∧ Wired tab' := by
  obtain ⟨haccounts, hwired⟩ := h
  cases a with
  | subscribe =>
    obtain ⟨rfl, rfl⟩ := Prod.mk.inj (Option.some.inj hstep)
    exact ⟨start_accounts haccounts, start_wired hwired.only (fun _ => hwired.query) hwired.tailer⟩
  | tail query =>
    obtain ⟨rfl, rfl⟩ := Prod.mk.inj (Option.some.inj hstep)
    exact ⟨tail_accounts haccounts query, tail_wired hwired query⟩
  | untail t =>
    rw [Tab.step] at hstep
    split_ifs at hstep
    obtain ⟨rfl, rfl⟩ := Prod.mk.inj (Option.some.inj hstep)
    exact ⟨untail_accounts haccounts t, untail_wired hwired t⟩
  | microtask =>
    rw [Tab.step] at hstep
    split_ifs at hstep with hmicrotask
    obtain ⟨rfl, rfl⟩ := Prod.mk.inj (Option.some.inj hstep)
    exact ⟨widen_accounts haccounts, widen_wired hwired hmicrotask⟩
  | receipt i r =>
    rw [Tab.step] at hstep
    obtain ⟨rfl, rfl⟩ := Prod.mk.inj (onMessage_inv hwired hstep)
    exact ⟨receipt_accounts haccounts hwired r, hwired.only, hwired.query, hwired.unstarted,
      hwired.tailer, hwired.tailed⟩
  | dropped i count =>
    rw [Tab.step] at hstep
    obtain ⟨rfl, rfl⟩ := Prod.mk.inj (onMessage_inv hwired hstep)
    exact ⟨dropped_accounts haccounts hwired count, hwired⟩
  | timeout =>
    rw [Tab.step] at hstep
    split_ifs at hstep
    obtain ⟨rfl, rfl⟩ := Prod.mk.inj (Option.some.inj hstep)
    exact ⟨haccounts.flush, flush_wired.mpr hwired⟩

private theorem run_keeps (h : Run Tab.step {} tab log) : Accounts tab log ∧ Wired tab := by
  refine h.invariant ?_ (fun _ _ _ _ _ hkept hstep => step_keeps hkept hstep)
  refine ⟨⟨fun t => ?_, rfl,
    rfl, by simp, by simp⟩, by simp, by simp, fun _ => rfl, by simp, by simp⟩
  simp [handedTo, cameFor]

end Accounts

/-- Whatever order pages come and go in, and messages, timers and microtasks run in, a tab has
one connection open at most; what comes while a page tails the stream comes from a connection
with the page's own query; all of it is handed to that page, once and in order, but for what
waits for the flush that is due; and all that came is applied to the live rows, once and in
order. -/
theorem tailed_exactly (tab : Tab) (log : List Note) (h : Run Tab.step {} tab log) :
    (∀ i socket, tab.sockets[i]? = some socket → socket.isOpen = true → tab.es = some i) ∧
      (∀ note ∈ log, note.askedBy tab.tails) ∧
      (∀ t, handedTo t log ++ (if tab.tailer = some t then tab.queue else []) = cameFor t log) ∧
      (tab.timer = true ↔ tab.queue ≠ []) ∧
      (batches log).flatten ++ tab.queue = came log ∧
      tab.stream = (batches log).foldl ReceiptStream.upsertMany {} := by
  obtain ⟨haccounts, hwired⟩ := run_keeps h
  exact ⟨hwired.only, haccounts.asked, haccounts.handed, haccounts.timer, haccounts.applied,
    haccounts.stream⟩

section Example

/-- A page goes and another comes, with filters of its own; then the first page's function is
called again. -/
def visits : List TabAction :=
  [.tail "team=a", .receipt 0 (inFlight 0), .untail 0, .tail "team=b", .microtask,
    .receipt 1 (inFlight 7), .untail 0]

/-- A visit to another page between two versions of a receipt: the second waits for the flush on
the new subscription. -/
theorem visits_tailed : ∃ tab log, take Tab.step visits ({}, []) = some (tab, log) ∧
    handedTo 0 log = [inFlight 0] ∧ tab.queue = [inFlight 7] ∧
    (∀ i socket, tab.sockets[i]? = some socket → socket.isOpen = true → tab.es = some i) ∧
      (∀ note ∈ log, note.askedBy tab.tails) ∧
      (∀ t, handedTo t log ++ (if tab.tailer = some t then tab.queue else []) = cameFor t log) ∧
      (tab.timer = true ↔ tab.queue ≠ []) ∧
      (batches log).flatten ++ tab.queue = came log ∧
      tab.stream = (batches log).foldl ReceiptStream.upsertMany {} := by
  obtain ⟨tab, log, htake, hhanded, hqueue⟩ : ∃ tab log, take Tab.step visits ({}, []) = some (tab, log) ∧
      handedTo 0 log = [inFlight 0] ∧ tab.queue = [inFlight 7] := ⟨_, _, rfl, rfl, rfl⟩
  exact ⟨tab, log, htake, hhanded, hqueue, tailed_exactly tab log (Run.start.take htake)⟩

end Example

end appState
