import ServingPack.Console.Counts
import ServingPack.Console.StreamReader

open golang concurrency

namespace openmeter

namespace StreamReader

/-- The window of a read. -/
def windowFilter (now : Int) : ReceiptFilter := { since := now - streamWindow }

/-- What the `llm_requests` meter answers, if it answers, are counts of the request events of a
log. -/
def MeterOf (log : List Event) (om : (q : Request) → Answer q) : Prop :=
  ∀ start stop names rows, om (.meter "llm_requests" start stop none names) = .ok rows →
    Groups (requestsIn log start stop) (fun e => names.map e.field) (fun _ => 1) rows
      (fun r => names.map r.field) MeterRow.value

/-- From where a read that stops early counts what it missed. -/
def missedFrom (sr : StreamReader) (now : Int) : Int :=
  max (max (now - streamWindow) sr.missedTo) sr.prevNewest

section Scan

variable {s : Server} {sr : StreamReader} {log found : List Event} {om : (q : Request) → Answer q}
  {cached : Option Pricer}

private theorem matching_window (now : Int) (events : List Event) :
    matching (windowFilter now) events = events.map receiptFrom := by
  refine List.filter_eq_self.mpr fun r _ => ?_
  simp [windowFilter, ReceiptFilter.matchReceipt, ReceiptFilter.match_, ReceiptFilter.admits]

private theorem missed_sum (hmeter : MeterOf log om) {start stop : Int} {rows : List MeterRow}
    (hrows : om (.meter "llm_requests" start stop none []) = .ok rows) :
    (rows.map MeterRow.value).sum = (requestsIn log start stop).length := by
  have hsum := (hmeter start stop [] rows hrows).sumOf_filter (fun _ => true)
  simp only [List.filter_true, sumOf_one] at hsum
  exact hsum

/-- The scan stops where it has looked through as many events as it may. -/
theorem stopsAt_window (now : Int) (found : List Event) :
    stopsAt (receiptScanCap + 1) (windowFilter now) found =
    (found[receiptScanCap - 1]?.map (fun e => (e.time : Int) + 1)).getD 0 := by
  refine if_pos ?_
  rw [matching_window, List.length_map, List.length_take]
  omega

private theorem oldest_eq {last : Event} (hlast : found[receiptScanCap - 1]? = some last) :
    oldest ((found.take receiptScanCap).map receiptFrom) = last.time := by
  obtain ⟨hlt, rfl⟩ := List.getElem?_eq_some_iff.mp hlast
  have hcap : 0 < receiptScanCap := by decide
  have hlength : (found.take receiptScanCap).length = receiptScanCap := by
    rw [List.length_take]
    omega
  rw [oldest, List.getLast?_map, List.getLast?_eq_getElem?, hlength,
    List.getElem?_take_of_lt (by omega), hlast]
  rfl

private theorem noteNewest_prevNewest :
    (sr.noteNewest ((found.take receiptScanCap).map receiptFrom)).prevNewest =
    (found.head?.map (fun e => (e.time : Int))).getD sr.prevNewest := by
  cases found with
  | nil => rfl
  | cons e rest => rfl

private theorem noteNewest_missedTo (rs : List Receipt) :
    (sr.noteNewest rs).missedTo = sr.missedTo := by
  cases rs <;> rfl

private theorem noteNewest_settled (rs : List Receipt) :
    (sr.noteNewest rs).settled = sr.settled := by
  cases rs <;> rfl

/-- A scan leaves the pricer and the settled receipts as they were. -/
theorem scan_settled {sr' : StreamReader} {rs : List Receipt} {missed : Nat}
    {cached' : Option Pricer} (hhonest : (om (.events (windowFilter s.now).query)).Honest found)
    (h : ServerM.eval om (scan s sr) cached = (.ok (rs, missed, sr'), cached')) :
    rs = (found.take receiptScanCap).map receiptFrom ∧ sr'.settled = sr.settled ∧
    cached' = cached := by
  obtain ⟨⟨rs₀, continueBefore⟩, cached₀, hscan, h⟩ := ServerM.eval_bind_ok h
  rw [ServerM.eval_lift] at hscan
  obtain ⟨hanswer, rfl⟩ := Prod.mk.inj hscan
  have hread : answer om (scanRequests (receiptScanCap + 1) (windowFilter s.now)) =
    .ok (rs₀, continueBefore) := hanswer
  obtain ⟨rfl, rfl⟩ := scanRequests_honest hhonest (Nat.succ_pos _) hread
  rw [matching_window, List.take_of_length_le (by
    rw [List.length_map, List.length_take]
    omega)] at h
  simp only at h
  split_ifs at h
  · obtain ⟨rows, _, hrows, hpure⟩ := ServerM.eval_bind_ok h
    rw [ServerM.eval_lift] at hrows
    obtain ⟨_, rfl⟩ := Prod.mk.inj hrows
    obtain ⟨hok, rfl⟩ := Prod.mk.inj hpure
    obtain ⟨rfl, hrest⟩ := Prod.mk.inj (Except.ok.inj hok)
    obtain ⟨_, rfl⟩ := Prod.mk.inj hrest
    exact ⟨rfl, noteNewest_settled _, rfl⟩
  · obtain ⟨hok, rfl⟩ := Prod.mk.inj h
    obtain ⟨rfl, hrest⟩ := Prod.mk.inj (Except.ok.inj hok)
    obtain ⟨_, rfl⟩ := Prod.mk.inj hrest
    exact ⟨rfl, noteNewest_settled _, rfl⟩
  · obtain ⟨hok, rfl⟩ := Prod.mk.inj h
    obtain ⟨rfl, hrest⟩ := Prod.mk.inj (Except.ok.inj hok)
    obtain ⟨_, rfl⟩ := Prod.mk.inj hrest
    exact ⟨rfl, noteNewest_settled _, rfl⟩

/-- What a scan that succeeds finds: the first events of its window, and what it missed if it
stopped early at an event newer than what was reported or read before. -/
theorem scan_ok {sr' : StreamReader} {rs : List Receipt} {missed : Nat} {cached' : Option Pricer}
    (hhonest : (om (.events (windowFilter s.now).query)).Honest found) (hmeter : MeterOf log om)
    (h : ServerM.eval om (scan s sr) cached = (.ok (rs, missed, sr'), cached')) :
    rs = (found.take receiptScanCap).map receiptFrom ∧ sr'.settled = sr.settled ∧
    sr'.prevNewest = (found.head?.map (fun e => (e.time : Int))).getD sr.prevNewest ∧
    ((missed = 0 ∧ sr'.missedTo = sr.missedTo ∧
        ∀ last, found[receiptScanCap - 1]? = some last → (last.time : Int) ≤ sr.missedFrom s.now) ∨
      ∃ last, found[receiptScanCap - 1]? = some last ∧ sr.missedFrom s.now < last.time ∧
      sr'.missedTo = last.time ∧
        missed = (requestsIn log (sr.missedFrom s.now / 1000) (last.time / 1000)).length) := by
  obtain ⟨⟨rs₀, continueBefore⟩, cached₀, hscan, h⟩ := ServerM.eval_bind_ok h
  rw [ServerM.eval_lift] at hscan
  obtain ⟨hanswer, rfl⟩ := Prod.mk.inj hscan
  have hread : answer om (scanRequests (receiptScanCap + 1) (windowFilter s.now)) =
    .ok (rs₀, continueBefore) := hanswer
  obtain ⟨rfl, rfl⟩ := scanRequests_honest hhonest (Nat.succ_pos _) hread
  rw [stopsAt_window, matching_window, List.take_of_length_le (by
    rw [List.length_map, List.length_take]
    omega)] at h
  simp only at h
  have hplain {missed' : Nat} {sr₁ : StreamReader} {cached₁ : Option Pricer}
    (hsettled : sr₁.settled = sr.settled)
      (hnewest : sr₁.prevNewest = sr.prevNewest)
      (h : ServerM.eval om (pure ((found.take receiptScanCap).map receiptFrom, missed',
        sr₁.noteNewest ((found.take receiptScanCap).map receiptFrom))) cached₁ =
          (.ok (rs, missed, sr'), cached')) :
      rs = (found.take receiptScanCap).map receiptFrom ∧ sr'.settled = sr.settled ∧
        sr'.prevNewest = (found.head?.map (fun e => (e.time : Int))).getD sr.prevNewest ∧
        missed = missed' ∧ sr'.missedTo = sr₁.missedTo := by
    obtain ⟨hok, _⟩ := Prod.mk.inj h
    obtain ⟨rfl, hrest⟩ := Prod.mk.inj (Except.ok.inj hok)
    obtain ⟨rfl, rfl⟩ := Prod.mk.inj hrest
    refine ⟨rfl, ?_, ?_, rfl, noteNewest_missedTo _⟩
    · rw [noteNewest_settled, hsettled]
    · rw [noteNewest_prevNewest, hnewest]
  cases hlast : found[receiptScanCap - 1]? with
  | none =>
    rw [hlast] at h
    rw [if_neg (by simp)] at h
    obtain ⟨hrs, hsettled, hnewest, hmissed, hto⟩ := hplain rfl rfl h
    exact ⟨hrs, hsettled, hnewest, .inl ⟨hmissed, hto, nofun⟩⟩
  | some last =>
    rw [hlast, if_pos (by simp only [Option.map_some, Option.getD_some]; omega), oldest_eq hlast]
      at h
    split_ifs at h with hmissed
    · obtain ⟨rows, cached₁, hrows, h⟩ := ServerM.eval_bind_ok h
      rw [ServerM.eval_lift] at hrows
      obtain ⟨hanswer, rfl⟩ := Prod.mk.inj hrows
      obtain ⟨hrs, hsettled, hnewest, hmissed', hto⟩ :=
        @hplain _ { sr with missedTo := last.time } _ rfl rfl h
      refine ⟨hrs, hsettled, hnewest, .inr ⟨last, rfl, hmissed, hto, ?_⟩⟩
      rw [hmissed']
      exact missed_sum hmeter hanswer
    · obtain ⟨hrs, hsettled, hnewest, hmissed', hto⟩ := hplain rfl rfl h
      refine ⟨hrs, hsettled, hnewest, .inl ⟨hmissed', hto, fun last' hlast' => ?_⟩⟩
      obtain rfl := Option.some.inj hlast'
      exact Int.not_lt.mp hmissed

/-- Where OpenMeter answers every call, the scan succeeds. -/
theorem scan_of_serves (hserves : Serves log om) (hcounts : CountsRequests log om) :
    ∃ out, ServerM.eval om (scan s sr) cached = (.ok out, cached) := by
  obtain ⟨found, _, hhonest, hwhole⟩ := hserves.events (windowFilter s.now).query
  have hread := @scanRequests_whole om (receiptScanCap + 1)
    (windowFilter s.now) found hhonest hwhole (Nat.succ_pos _)
  have hlift : ServerM.eval om
    (ServerM.lift (scanRequests (receiptScanCap + 1) (windowFilter s.now))) cached =
      (.ok _, cached) := (ServerM.eval_lift _).trans (Prod.ext hread rfl)
  have hmeter (start stop : Int) : ∃ rows,
      ServerM.eval om (ServerM.lift (meterQuery "llm_requests" start stop none [])) cached =
        (.ok rows, cached) := by
    obtain ⟨rows, hrows, _⟩ := hcounts (start / 1000) (stop / 1000) []
    exact ⟨rows, (ServerM.eval_lift _).trans (Prod.ext hrows rfl)⟩
  have hscan : ServerM.eval om (scan s sr) cached = _ := ServerM.eval_bind_of_ok hlift
  rw [hscan]
  simp only
  split_ifs with hstops hmissed
  · exact ⟨_, (ServerM.eval_bind_of_ok (hmeter _ _).choose_spec).trans rfl⟩
  · exact ⟨_, rfl⟩
  · exact ⟨_, rfl⟩

end Scan

section Settle

variable {s : Server} {sr sr' : StreamReader} {om : (q : Request) → Answer q}
  {cached cached' : Option Pricer} {rs done : List Receipt}

/-- Receipts are kept by their ID. -/
def Keyed (m : GoMap Receipt) : Prop := ∀ id r, m.lookup id = some r → r.id = id

private theorem keyed_ofList {entries : List (GoString × Receipt)}
    (h : ∀ e ∈ entries, e.2.id = e.1) : Keyed (GoMap.ofList entries) := by
  intro id r hr
  exact h _ (GoMap.mem_of_lookup_ofList hr)

/-- Receipts beside their completed forms are the pairs of each and its own. -/
theorem zip_map_self (rs : List Receipt) (g : Receipt → Receipt) :
    rs.zip (rs.map g) = rs.map (fun r => (r, g r)) := by
  simpa using List.zip_map' (f := id) (g := g) (l := rs)

/-- A read shows the receipts of its scan. -/
theorem settle_ok (hkeyed : Keyed sr.settled)
    (h : ServerM.eval om (settle s sr rs) cached = (.ok (done, sr'), cached')) :
    done.map Receipt.id = rs.map Receipt.id ∧ Keyed sr'.settled ∧ sr'.prevNewest = sr.prevNewest ∧
      sr'.missedTo = sr.missedTo := by
  obtain ⟨opened, _, _, h⟩ := ServerM.eval_bind_ok h
  obtain ⟨hok, _⟩ := Prod.mk.inj h
  obtain ⟨rfl, rfl⟩ := Prod.mk.inj (Except.ok.inj hok)
  have hcompleted : Keyed (GoMap.ofList (opened.map (fun r => (r.id, r)))) := by
    refine keyed_ofList fun e he => ?_
    obtain ⟨r, _, rfl⟩ := List.mem_map.mp he
    rfl
  have hid (r : Receipt) : (((sr.settled.lookup r.id).or
      ((GoMap.ofList (opened.map (fun r => (r.id, r)))).lookup r.id)).getD r).id = r.id := by
    cases hsettled : sr.settled.lookup r.id with
    | some d => exact hkeyed r.id d hsettled
    | none =>
      cases hdone : (GoMap.ofList (opened.map (fun r => (r.id, r)))).lookup r.id with
      | some d => exact hcompleted r.id d hdone
      | none => rfl
  refine ⟨?_, keyed_ofList fun e he => ?_, rfl, rfl⟩
  · rw [List.map_map]
    exact List.map_congr_left fun r _ => hid r
  · obtain ⟨⟨r, d⟩, hmem, rfl⟩ := List.mem_map.mp he
    rw [zip_map_self] at hmem
    obtain ⟨r', _, heq⟩ := List.mem_map.mp (List.mem_of_mem_filter hmem)
    obtain ⟨rfl, rfl⟩ := Prod.mk.inj heq
    exact hid r'

private theorem settle_of_complete {opened : List Receipt}
    (h : ServerM.eval om (complete s (rs.filter (fun r => (sr.settled.lookup r.id).isNone)))
      cached = (.ok opened, cached')) :
    ∃ done, (ServerM.eval om (settle s sr rs) cached).1 = .ok done := by
  rw [settle, ServerM.eval_bind_of_ok h]
  exact ⟨_, rfl⟩

end Settle

/-- A call of `read`: the time, what OpenMeter answers, its log of events, the request events of the
window as it lists them, and the reader before. -/
structure Reading where
  now : Int
  om : (q : Request) → Answer q
  cached : Option Pricer
  log : List Event
  found : List Event
  before : StreamReader

namespace Reading

variable (s : Server) (r : Reading)

def server : Server := { s with now := r.now }

def result : Except Failure (List Receipt × Nat) × StreamReader × Option Pricer :=
  ((r.before.read (r.server s) r.cached).eval (fun u q => (r.om q, u)) ()).1

def Succeeds : Prop := ∃ shown, (r.result s).1 = .ok shown

def after : StreamReader := (r.result s).2.1

def receipts : List Receipt :=
  match (r.result s).1 with
  | .ok (rs, _) => rs
  | .error _ => []

def missed : Nat :=
  match (r.result s).1 with
  | .ok (_, missed) => missed
  | .error _ => 0

/-- The events it reads. -/
def events : List Event := r.found.take receiptScanCap

/-- Where it stops, if it stops early. -/
def last : Option Event := r.found[receiptScanCap - 1]?

/-- OpenMeter answers for the log, and counts in a log that may have grown since. Every call
may fail. -/
structure Honest (later : List Event) : Prop where
  lists : Lists r.log (windowFilter r.now).query r.found
  pages : (r.om (.events (windowFilter r.now).query)).Honest r.found
  meter : MeterOf later r.om

/-- The receipts of the window that are not settled. -/
def opened : List Receipt :=
  (r.events.map receiptFrom).filter (fun receipt => (r.before.settled.lookup receipt.id).isNone)

/-- OpenMeter answers what completing the receipts asks. -/
def Completes : Prop :=
  ∃ done, (ServerM.eval r.om (complete (r.server s) r.opened) r.cached).1 = .ok done

/-- No request of the window is newer than the newest receipt of the reading before. -/
def NothingNew : Prop :=
  ∀ e ∈ r.log, e.type = requestEvent → r.now - streamWindow ≤ e.time →
    (e.time : Int) ≤ r.before.prevNewest

/-- A reading scans, and settles what it has found. -/
theorem result_eq : r.result s =
    match ServerM.eval r.om (scan (r.server s) r.before) r.cached with
    | (.error e, cached) => (.error e, r.before, cached)
    | (.ok (rs, missed, sr), cached) =>
      match ServerM.eval r.om (settle (r.server s) sr rs) cached with
      | (.error e, cached) => (.error e, sr, cached)
      | (.ok (rs, sr), cached) => (.ok (rs, missed), sr, cached) := by
  rw [result, read, Program.eval_bind]
  simp only [ServerM.eval]
  generalize (scan (r.server s) r.before r.cached).eval (fun u q => (r.om q, u)) () = x
  obtain ⟨⟨x | ⟨rs, missed, sr⟩, cached⟩, u⟩ := x
  · rfl
  · simp only [Program.eval_bind]
    generalize (settle (r.server s) sr rs cached).eval (fun u q => (r.om q, u)) u = y
    obtain ⟨⟨y | ⟨done, sr'⟩, cached'⟩, u'⟩ := y <;> rfl

/-- Where OpenMeter answers every call, the reading succeeds. -/
theorem succeeds_of_serves {log : List Event} (hserves : Serves log r.om)
    (hcounts : CountsRequests log r.om) :
    r.Succeeds s := by
  obtain ⟨⟨rs, missed, sr⟩, hscan⟩ :=
    @scan_of_serves (r.server s) r.before log r.om r.cached hserves hcounts
  obtain ⟨opened, cached, hcomplete⟩ := complete_ok (s := r.server s) hserves
    (rs.filter (fun receipt => (sr.settled.lookup receipt.id).isNone)) r.cached
  obtain ⟨⟨done, sr'⟩, hsettle⟩ := settle_of_complete hcomplete
  rw [Reading.Succeeds, r.result_eq, hscan]
  cases hresult : ServerM.eval r.om (settle (r.server s) sr rs) r.cached with
  | mk settled cached' =>
    rw [hresult] at hsettle
    obtain rfl : settled = .ok (done, sr') := hsettle
    refine ⟨(done, missed), ?_⟩
    simp only [hresult]

/-- What a scan that succeeds leaves of the two times: the newest receipt is the window's first,
and where it stops early at something newer than what was read or reported missed, what it left
out is counted. -/
structure Scanned (later : List Event) (sr : StreamReader) (missed : Nat) : Prop where
  prevNewest : sr.prevNewest =
    (r.found.head?.map (fun e => (e.time : Int))).getD r.before.prevNewest
  missed : (missed = 0 ∧ sr.missedTo = r.before.missedTo ∧
      ∀ last, r.last = some last → (last.time : Int) ≤ r.before.missedFrom r.now) ∨
    ∃ last, r.last = some last ∧ r.before.missedFrom r.now < last.time ∧ sr.missedTo = last.time ∧
      missed = (requestsIn later (r.before.missedFrom r.now / 1000) (last.time / 1000)).length

/-- A reading fails and leaves the reader as it was, fails to complete its receipts after it has
moved both times, or succeeds. -/
theorem result_cases {later : List Event} (hhonest : r.Honest later)
    (hkeyed : Keyed r.before.settled) :
    (¬r.Succeeds s ∧ r.missed s = 0 ∧ r.after s = r.before) ∨
    (¬r.Succeeds s ∧ r.missed s = 0 ∧ ¬r.Completes s ∧ (r.after s).settled = r.before.settled ∧
      ∃ missed, r.Scanned later (r.after s) missed) ∨
    (r.Succeeds s ∧ (r.receipts s).map Receipt.id = r.events.map Event.id ∧
      Keyed (r.after s).settled ∧
      r.Scanned later (r.after s) (r.missed s)) := by
  have hresult := r.result_eq s
  cases hscan : ServerM.eval r.om (scan (r.server s) r.before) r.cached with
  | mk scanned cached =>
    cases scanned with
    | error e =>
      rw [hscan] at hresult
      refine .inl ⟨fun ⟨shown, hshown⟩ => ?_, ?_, ?_⟩
      · rw [hresult] at hshown
        cases hshown
      · rw [missed, hresult]
      · rw [after, hresult]
    | ok found =>
      obtain ⟨rs, missed', sr⟩ := found
      obtain ⟨hrs, hsettled, hnewest, hmissed⟩ := scan_ok hhonest.pages hhonest.meter hscan
      obtain ⟨_, _, rfl⟩ := scan_settled hhonest.pages hscan
      rw [hscan] at hresult
      simp only at hresult
      cases hsettle : ServerM.eval r.om (settle (r.server s) sr rs) r.cached with
      | mk settled' cached' =>
        cases settled' with
        | error e =>
          rw [hsettle] at hresult
          have hfails : ¬r.Completes s := by
            rintro ⟨opened, hopened⟩
            rw [Reading.opened, events, ← hrs, ← hsettled] at hopened
            obtain ⟨done, hdone⟩ := settle_of_complete (Prod.ext hopened rfl)
            rw [hsettle] at hdone
            cases hdone
          refine .inr (.inl ⟨fun ⟨shown, hshown⟩ => ?_, ?_, hfails, ?_, missed', ?_, ?_⟩)
          · rw [hresult] at hshown
            cases hshown
          · rw [missed, hresult]
          · rw [after, hresult, hsettled]
          · rw [after, hresult, hnewest]
          · rw [after, hresult]
            exact hmissed
        | ok done =>
          obtain ⟨done, sr'⟩ := done
          rw [hsettle] at hresult
          obtain ⟨hids, hkeyed', hprev, hto⟩ := settle_ok (hsettled ▸ hkeyed) hsettle
          refine .inr (.inr ⟨⟨(done, missed'), by rw [hresult]⟩, ?_, ?_, ?_, ?_⟩)
          · rw [receipts, hresult, hids, hrs, List.map_map]
            rfl
          · rwa [after, hresult]
          · rw [after, hresult, hprev, hnewest]
          · rw [missed, after, hresult, hto]
            exact hmissed

end Reading

end StreamReader

end openmeter
