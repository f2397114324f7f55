import ServingPack.Console.StreamReads
import ServingPack.Lib.Newest

open golang concurrency

namespace openmeter

namespace StreamReader

/-- A request event that no reading that succeeded had read, nor one as new. -/
def Newer (s : Server) (readings : List Reading) (e : Event) : Prop :=
  e.type = requestEvent → ∀ r ∈ readings, r.Succeeds s → ∀ e' ∈ r.events, e'.time < e.time

/-- The readings so far, the latest first, over a log that only grows with newer events, also
while it is read. -/
inductive Reads (s : Server) : List Event → StreamReader → List Reading → Prop
  | start (log : List Event) : Reads s log {} []
  | grow {log new : List Event} {sr : StreamReader} {readings : List Reading}
    (h : Reads s log sr readings)
      (hnew : ∀ e ∈ new, Newer s readings e) : Reads s (log ++ new) sr readings
  | read {new : List Event} {r : Reading} {readings : List Reading}
    (h : Reads s r.log r.before readings)
      (hhonest : r.Honest (r.log ++ new)) (hnew : ∀ e ∈ new, Newer s (r :: readings) e) :
      Reads s (r.log ++ new) (r.after s) (r :: readings)

/-- A reading that succeeds has every request event in its window that is newer than the
receipts before it. -/
def InWindow (s : Server) (readings : List Reading) (r : Reading) : Prop :=
  r.Succeeds s → (∃ r' ∈ readings, r'.Succeeds s ∧ r'.events ≠ []) →
    ∀ e ∈ r.log, e.type = requestEvent → Newer s readings e → r.now - streamWindow ≤ e.time

/-- No reading has something new in its window where OpenMeter does not answer what completing its
receipts asks, and none left a gap. -/
def Careful (s : Server) : List Reading → Prop
  | [] => True
  | r :: readings => (r.Completes s ∨ r.NothingNew) ∧ InWindow s readings r ∧ Careful s readings

section Readings

variable (s : Server) (readings : List Reading) (e : Event)

/-- A reading that succeeded has read the event. -/
def Read : Prop := ∃ r ∈ readings, r.Succeeds s ∧ e ∈ r.events

/-- A reading that succeeded stopped in the second of the event. -/
def SharesStop : Prop :=
  ∃ r ∈ readings, r.Succeeds s ∧ ∃ last, r.last = some last ∧ e.time / 1000 = last.time / 1000

/-- A reading that succeeded has only receipts older than the event. -/
def AfterFirst : Prop :=
  ∃ r ∈ readings, r.Succeeds s ∧ r.events ≠ [] ∧ ∀ e' ∈ r.events, e'.time < e.time

/-- A reading that succeeded has a receipt newer than the event. -/
def BeforeLatest : Prop := ∃ r ∈ readings, r.Succeeds s ∧ ∃ e' ∈ r.events, e.time < e'.time

end Readings

/-- The number of request events in some seconds. -/
def countedIn (log : List Event) (c : Int → Bool) : Nat :=
  log.countP (fun e => e.type = requestEvent && c (e.time / 1000))

/-- What holds of the reader, its readings, and the seconds they counted. -/
structure Accounts (s : Server) (log : List Event) (sr : StreamReader) (readings : List Reading)
    (c : Int → Bool) : Prop where
  keyed : Keyed sr.settled
  unchanged : ∀ r ∈ readings, ¬ r.Succeeds s → r.after s = r.before
  shown : ∀ r ∈ readings, r.Succeeds s → (r.receipts s).map Receipt.id = r.events.map Event.id
  known : ∀ e, Read s readings e → e ∈ log ∧ e.type = requestEvent
  newest : ∀ e, Read s readings e → (e.time : Int) ≤ sr.prevNewest
  newest_read : sr.prevNewest = 0 ∨ ∃ e, Read s readings e ∧ (e.time : Int) = sr.prevNewest
  missedTo_le : sr.missedTo ≤ sr.prevNewest
  counted_lt : ∀ second, c second = true → second < sr.missedTo / 1000
  missed : (readings.map (Reading.missed s)).sum = countedIn log c
  covered : ∀ e ∈ log, e.type = requestEvent → AfterFirst s readings e →
    (e.time : Int) ≤ sr.prevNewest →
    Read s readings e ∨ c (e.time / 1000) = true ∨ SharesStop s readings e
  behind : ∀ e ∈ log, e.type = requestEvent → c (e.time / 1000) = true →
    receiptScanCap ≤ log.countP (fun e' => e'.type = requestEvent && decide (e.time < e'.time))
  overlap : ∀ e, c (e.time / 1000) = true → Read s readings e →
    ∃ r ∈ readings, r.Succeeds s ∧ (e.time : Int) / 1000 = r.before.prevNewest / 1000

section Grow

variable {s : Server} {log new : List Event} {sr : StreamReader} {readings : List Reading}
  {c : Int → Bool}

private theorem countedIn_append : countedIn (log ++ new) c = countedIn log c + countedIn new c :=
  List.countP_append

private theorem Accounts.start (s : Server) (log : List Event) :
    Accounts s log {} [] (fun _ => false) where
  keyed _ _ h := by cases h
  unchanged _ hr := absurd hr List.not_mem_nil
  shown _ hr := absurd hr List.not_mem_nil
  known _ h := by
    obtain ⟨_, hr, _⟩ := h
    cases hr
  newest _ h := by
    obtain ⟨_, hr, _⟩ := h
    cases hr
  newest_read := .inl rfl
  missedTo_le := Int.le_refl _
  counted_lt _ h := by cases h
  missed := by simp [countedIn]
  covered _ _ _ h := by
    obtain ⟨_, hr, _⟩ := h
    cases hr
  behind _ _ _ h := by cases h
  overlap _ h := by cases h

/-- An event newer than all that was read is past the newest receipt, if there is one. -/
theorem Accounts.past (h : Accounts s log sr readings c) {e : Event} (htype : e.type = requestEvent)
    (hnew : Newer s readings e) (hpos : 0 < e.time ∨ 0 < sr.prevNewest) :
    sr.prevNewest < e.time := by
  rcases h.newest_read with hzero | ⟨e', ⟨r, hr, hok, he'⟩, htime⟩
  · omega
  · have hlt := hnew htype r hr hok e' he'
    omega

private theorem Accounts.not_counted (h : Accounts s log sr readings c) {e : Event}
    (htype : e.type = requestEvent) (hnew : Newer s readings e) : c (e.time / 1000) = false := by
  by_contra hcounted
  have hlt := h.counted_lt _ (Bool.eq_true_of_not_eq_false hcounted)
  have hle := h.missedTo_le
  have hpast := h.past htype hnew (by omega)
  omega

private theorem AfterFirst.pos {e : Event} (h : AfterFirst s readings e) : 0 < e.time := by
  obtain ⟨r, _, _, hne, hall⟩ := h
  obtain ⟨e', rest, heq⟩ := List.exists_cons_of_ne_nil hne
  have hlt := hall e' (heq ▸ List.mem_cons_self)
  omega

/-- A log that grows with newer events. -/
theorem Accounts.grow (h : Accounts s log sr readings c) (hnew : ∀ e ∈ new, Newer s readings e) :
    Accounts s (log ++ new) sr readings c where
  keyed := h.keyed
  unchanged := h.unchanged
  shown := h.shown
  known e he := ⟨List.mem_append_left _ (h.known e he).1, (h.known e he).2⟩
  newest := h.newest
  newest_read := h.newest_read
  missedTo_le := h.missedTo_le
  counted_lt := h.counted_lt
  missed := by
    have hnone : countedIn new c = 0 := by
      refine List.countP_eq_zero.mpr fun e he hcounted => ?_
      rw [Bool.and_eq_true, decide_eq_true_eq] at hcounted
      rw [h.not_counted hcounted.1 (hnew e he)] at hcounted
      cases hcounted.2
    rw [countedIn_append, hnone, Nat.add_zero]
    exact h.missed
  covered e he htype hafter hle := by
    rcases List.mem_append.mp he with he | he
    · exact h.covered e he htype hafter hle
    · have hpast := h.past htype (hnew e he) (.inl hafter.pos)
      omega
  behind e he htype hcounted := by
    rcases List.mem_append.mp he with he | he
    · rw [List.countP_append]
      exact (h.behind e he htype hcounted).trans (Nat.le_add_right _ _)
    · rw [h.not_counted htype (hnew e he)] at hcounted
      cases hcounted
  overlap := h.overlap

end Grow

section Step

variable {s : Server} {r : Reading} {readings : List Reading} {c : Int → Bool}

private theorem read_cons {e : Event} :
    Read s (r :: readings) e ↔ (r.Succeeds s ∧ e ∈ r.events) ∨ Read s readings e := by
  simp only [Read, List.exists_mem_cons_iff]

private theorem Read.cons {e : Event} (h : Read s readings e) : Read s (r :: readings) e :=
  read_cons.mpr (.inr h)

private theorem SharesStop.cons {e : Event} (h : SharesStop s readings e) :
    SharesStop s (r :: readings) e := by
  obtain ⟨r', hr', hstop⟩ := h
  exact ⟨r', List.mem_cons_of_mem _ hr', hstop⟩

/-- Where the account holds of an event before a reading, it does so after it. -/
theorem covered_cons {e : Event}
    (h : Read s readings e ∨ c (e.time / 1000) = true ∨ SharesStop s readings e) :
    Read s (r :: readings) e ∨ c (e.time / 1000) = true ∨ SharesStop s (r :: readings) e := by
  rcases h with hread | hcounted | hstop
  · exact .inl hread.cons
  · exact .inr (.inl hcounted)
  · exact .inr (.inr hstop.cons)

/-- A reading that fails and leaves the reader as it was. -/
theorem Accounts.fail {log : List Event} {sr : StreamReader} (h : Accounts s log sr readings c)
    (hfails : ¬ r.Succeeds s) (hmissed : r.missed s = 0) (hsame : r.after s = r.before) :
    Accounts s log sr (r :: readings) c := by
  have hread {e : Event} (he : Read s (r :: readings) e) : Read s readings e :=
    (read_cons.mp he).resolve_left fun hnow => hfails hnow.1
  exact
    { keyed := h.keyed
      unchanged := List.forall_mem_cons.mpr ⟨fun _ => hsame, h.unchanged⟩
      shown := List.forall_mem_cons.mpr ⟨fun hok => absurd hok hfails, h.shown⟩
      known := fun e he => h.known e (hread he)
      newest := fun e he => h.newest e (hread he)
      newest_read := h.newest_read.imp_right fun ⟨e, he, htime⟩ => ⟨e, he.cons, htime⟩
      missedTo_le := h.missedTo_le
      counted_lt := h.counted_lt
      missed := by
        rw [List.map_cons, List.sum_cons, hmissed, Nat.zero_add]
        exact h.missed
      covered := by
        rintro e he htype ⟨r', hr', hok, hafter⟩ hle
        rcases List.mem_cons.mp hr' with rfl | hr'
        · exact absurd hok hfails
        exact covered_cons (h.covered e he htype ⟨r', hr', hok, hafter⟩ hle)
      behind := h.behind
      overlap := fun e hcounted he => by
        obtain ⟨r', hr', hok⟩ := h.overlap e hcounted (hread he)
        exact ⟨r', List.mem_cons_of_mem _ hr', hok⟩ }

/-- The events a reading's window has. -/
theorem mem_found (hlists : Lists r.log (windowFilter r.now).query r.found) {e : Event} :
    e ∈ r.found ↔ e ∈ r.log ∧ e.type = requestEvent ∧ r.now - streamWindow ≤ e.time := by
  rw [hlists.mem, mem_window, query_matches_iff]
  simp only [windowFilter, Int.lt_irrefl, false_imp_iff, true_and]
  constructor
  · rintro ⟨he, hsince, htype⟩
    refine ⟨he, htype, ?_⟩
    by_cases hpos : 0 < r.now - streamWindow
    · exact hsince hpos
    · omega
  · rintro ⟨he, htype, hsince⟩
    exact ⟨he, fun _ => hsince, htype⟩

variable (hlists : Lists r.log (windowFilter r.now).query r.found)
  (hnewest : (r.after s).prevNewest =
    (r.found.head?.map (fun e => (e.time : Int))).getD r.before.prevNewest)
include hlists hnewest

/-- The newest receipt of a reading is no older than those before. -/
theorem Accounts.prevNewest_le (h : Accounts s r.log r.before readings c) :
    r.before.prevNewest ≤ (r.after s).prevNewest := by
  rw [hnewest]
  cases hfound : r.found with
  | nil => exact Int.le_refl _
  | cons first rest =>
    simp only [List.head?_cons, Option.map_some, Option.getD_some]
    have hfirst : first ∈ r.found := hfound ▸ List.mem_cons_self
    rcases h.newest_read with hzero | ⟨e, he, htime⟩
    · omega
    · obtain ⟨hlog, htype⟩ := h.known e he
      by_cases hin : r.now - streamWindow ≤ e.time
      · have hmem := (mem_found hlists).mpr ⟨hlog, htype, hin⟩
        have hpairs := hlists.newest
        rw [hfound] at hmem hpairs
        rcases List.mem_cons.mp hmem with rfl | hmem
        · omega
        · have hle := (List.pairwise_cons.mp hpairs).1 e hmem
          omega
      · have hsince := ((mem_found hlists).mp hfirst).2.2
        omega

private theorem events_le {e : Event} (he : e ∈ r.found) :
    (e.time : Int) ≤ (r.after s).prevNewest := by
  rw [hnewest]
  have hpairs := hlists.newest
  cases hfound : r.found with
  | nil =>
    rw [hfound] at he
    cases he
  | cons first rest =>
    rw [hfound] at he hpairs
    simp only [List.head?_cons, Option.map_some, Option.getD_some]
    rcases List.mem_cons.mp he with rfl | he
    · exact Int.le_refl _
    · have hle := (List.pairwise_cons.mp hpairs).1 e he
      omega

omit hlists in
private theorem first_events {first : Event} {rest : List Event}
    (hfound : r.found = first :: rest) :
    first ∈ r.events ∧ (first.time : Int) = (r.after s).prevNewest := by
  refine ⟨?_, by rw [hnewest, hfound]; rfl⟩
  rw [Reading.events, hfound, show receiptScanCap = 4999 + 1 from rfl, List.take_succ_cons]
  exact List.mem_cons_self

/-- A reading that cannot complete its receipts leaves the reader as it was where it has found
nothing new. -/
theorem Accounts.unmoved {later : List Event} {missed : Nat}
    (h : Accounts s r.log r.before readings c) (hscanned : r.Scanned later (r.after s) missed)
    (hsettled : (r.after s).settled = r.before.settled)
    (hnothing : r.NothingNew) : r.after s = r.before := by
  have hold {e : Event} (he : e ∈ r.found) : (e.time : Int) ≤ r.before.prevNewest := by
    obtain ⟨hlog, htype, hin⟩ := (mem_found hlists).mp he
    exact hnothing e hlog htype hin
  have hprev : (r.after s).prevNewest ≤ r.before.prevNewest := by
    rw [hnewest]
    cases hfound : r.found with
    | nil => exact Int.le_refl _
    | cons first rest => exact hold (hfound ▸ List.mem_cons_self)
  refine StreamReader.ext hsettled ?_ (Int.le_antisymm hprev (h.prevNewest_le hlists hnewest))
  rcases hscanned.missed with ⟨_, hto, _⟩ | ⟨last, hlast, hlt, _⟩
  · exact hto
  · -- a scan that stops at something newer has found something new
    have hle := hold (List.mem_of_getElem? hlast)
    unfold missedFrom at hlt
    omega

end Step

/-- The seconds that a reading counts: from where the counts and receipts before it end to the
second it stopped in. -/
structure Counts (s : Server) (r : Reading) (d : Int → Bool) : Prop where
  bounds : ∀ second, d second = true → r.before.missedFrom r.now / 1000 ≤ second ∧
    ∃ last, r.last = some last ∧ second < (last.time : Int) / 1000 ∧
      (r.after s).missedTo = last.time
  missed : r.missed s = countedIn r.log d
  whole : ∀ last, r.last = some last → r.before.missedFrom r.now < last.time →
    ∀ second, r.before.missedFrom r.now / 1000 ≤ second → second < (last.time : Int) / 1000 →
      d second = true
  missedTo_le : r.before.missedTo ≤ (r.after s).missedTo
  moves : (r.after s).missedTo = r.before.missedTo ∨ ∃ last, r.last = some last ∧
    (r.after s).missedTo = last.time

section Counts

variable {s : Server} {r : Reading} {readings : List Reading} {c d : Int → Bool}

private theorem requestsIn_length (log : List Event) (start stop : Int) :
    (requestsIn log start stop).length =
    countedIn log (fun second => decide (start ≤ second) && decide (second < stop)) := by
  rw [requestsIn, countedIn, List.countP_eq_length_filter]
  refine congrArg List.length (List.filter_congr fun e _ => ?_)
  rw [Bool.eq_iff_iff]
  simp only [Bool.and_eq_true, decide_eq_true_eq]
  constructor
  · rintro ⟨⟨htype, hstart⟩, hstop⟩
    exact ⟨htype, by omega, by omega⟩
  · rintro ⟨htype, hstart, hstop⟩
    exact ⟨⟨htype, by omega⟩, by omega⟩

private theorem counts_of_cases
    (hcases : (r.missed s = 0 ∧ (r.after s).missedTo = r.before.missedTo ∧
        ∀ last, r.last = some last → (last.time : Int) ≤ r.before.missedFrom r.now) ∨
      ∃ last, r.last = some last ∧ r.before.missedFrom r.now < last.time ∧
      (r.after s).missedTo = last.time ∧
        r.missed s = (requestsIn r.log (r.before.missedFrom r.now / 1000)
          (last.time / 1000)).length) :
    ∃ d, Counts s r d := by
  rcases hcases with ⟨hmissed, hto, hlast⟩ | ⟨last, hlast, hlt, hto, hmissed⟩
  · refine ⟨fun _ => false, nofun, ?_, fun last hl hlt => ?_, Int.le_of_eq hto.symm, .inl hto⟩
    · simp [hmissed, countedIn]
    · have hle := hlast last hl
      omega
  · refine ⟨fun second => decide (r.before.missedFrom r.now / 1000 ≤ second) &&
      decide (second < (last.time : Int) / 1000),
      fun second hd => ?_, ?_, fun last' hl _ second hfrom hstop => ?_, ?_, .inr ⟨last, hlast, hto⟩⟩
    · rw [Bool.and_eq_true, decide_eq_true_eq, decide_eq_true_eq] at hd
      exact ⟨hd.1, last, hlast, hd.2, hto⟩
    · rw [hmissed, requestsIn_length]
    · obtain rfl := Option.some.inj (hlast.symm.trans hl)
      rw [decide_eq_true hfrom, decide_eq_true hstop]
      rfl
    · rw [hto]
      unfold missedFrom at hlt
      omega

private theorem countedIn_or (log : List Event)
    (hdisjoint : ∀ second, c second = true → d second = false) :
    countedIn log (fun second => c second || d second) = countedIn log c + countedIn log d := by
  unfold countedIn
  induction log with
  | nil => rfl
  | cons e rest ih =>
    simp only [List.countP_cons, ih]
    cases hc : c (e.time / 1000) with
    | true =>
      rw [hdisjoint _ hc, Bool.or_false, Bool.and_false, if_neg Bool.false_ne_true]
      omega
    | false =>
      rw [Bool.false_or, Bool.and_false, if_neg Bool.false_ne_true]
      omega

/-- As many request events are newer than one that a reading counts. -/
theorem newer_of_last (hlists : Lists r.log (windowFilter r.now).query r.found) {last : Event}
    (hlast : r.last = some last) {t : Nat} (hlt : t < last.time) :
    receiptScanCap ≤ r.log.countP (fun e => e.type = requestEvent && decide (t < e.time)) := by
  have hmany : receiptScanCap - 1 < notOlder Event.time r.found (t + 1) :=
    (Newest.le_time_iff hlists.newest hlast).mp hlt
  have hcount : notOlder Event.time r.found (t + 1) ≤ r.log.countP
      (fun e => e.type = requestEvent && decide (t < e.time)) := by
    rw [notOlder, hlists.perm.countP_eq, List.countP_filter]
    refine List.countP_mono_left fun e he hmatch => ?_
    rw [Bool.and_eq_true, decide_eq_true_eq] at hmatch
    rw [Bool.and_eq_true, decide_eq_true_eq, decide_eq_true_eq]
    exact ⟨(query_matches_iff.mp hmatch.2).2.2, by omega⟩
  have hcap : 0 < receiptScanCap := by decide
  omega

/-- An event with as many newer ones is not read. -/
theorem not_read_of_behind (hlists : Lists r.log (windowFilter r.now).query r.found) {e : Event}
    (hbehind : receiptScanCap ≤ r.log.countP
      (fun e' => e'.type = requestEvent && decide (e.time < e'.time))) :
    e ∉ r.events := by
  intro he
  have hfound := (mem_found hlists).mp (List.mem_of_mem_take he)
  obtain ⟨k, hk, hget⟩ := List.mem_take_iff_getElem.mp he
  have hat : r.found[k]? = some e := by
    rw [List.getElem?_eq_getElem (by omega), hget]
  have hfew : ¬ k < notOlder Event.time r.found (e.time + 1) := by
    rw [← Newest.le_time_iff hlists.newest hat]
    omega
  have hcount : r.log.countP (fun e' => e'.type = requestEvent && decide (e.time < e'.time)) ≤
      notOlder Event.time r.found (e.time + 1) := by
    rw [notOlder, hlists.perm.countP_eq, List.countP_filter]
    refine List.countP_mono_left fun e' he' hmatch => ?_
    rw [Bool.and_eq_true, decide_eq_true_eq, decide_eq_true_eq] at hmatch
    have hin : e' ∈ r.found := (mem_found hlists).mpr ⟨he', hmatch.1, by omega⟩
    rw [Bool.and_eq_true, decide_eq_true_eq]
    exact ⟨hmatch.2, (mem_window.mp (hlists.mem.mp hin)).2⟩
  omega

/-- Each second is counted once: a reading counts from where those before it ended. -/
theorem Accounts.disjoint (h : Accounts s r.log r.before readings c) (hcounts : Counts s r d)
    (second : Int) (hc : c second = true) : d second = false := by
  by_contra hd
  have hlt := h.counted_lt second hc
  have hle := (hcounts.bounds second (Bool.eq_true_of_not_eq_false hd)).1
  unfold missedFrom at hle
  omega

private theorem Counts.behind (hcounts : Counts s r d)
    (hlists : Lists r.log (windowFilter r.now).query r.found) {e : Event}
    (hd : d (e.time / 1000) = true) :
    receiptScanCap ≤
      r.log.countP (fun e' => e'.type = requestEvent && decide (e.time < e'.time)) := by
  obtain ⟨_, last, hlast, hlt, _⟩ := hcounts.bounds _ hd
  exact newer_of_last hlists hlast (by omega)

section Succeed

variable (h : Accounts s r.log r.before readings c)
  (hlists : Lists r.log (windowFilter r.now).query r.found)
  (hok : r.Succeeds s) (hcounts : Counts s r d)
  (hnewest : (r.after s).prevNewest =
    (r.found.head?.map (fun e => (e.time : Int))).getD r.before.prevNewest)

include h hok hnewest in
private theorem Accounts.newest_read_cons : (r.after s).prevNewest = 0 ∨
    ∃ e, Read s (r :: readings) e ∧ (e.time : Int) = (r.after s).prevNewest := by
  cases hfound : r.found with
  | nil =>
    have hsame : (r.after s).prevNewest = r.before.prevNewest := by simp [hnewest, hfound]
    rw [hsame]
    exact h.newest_read.imp_right fun ⟨e, he, htime⟩ => ⟨e, he.cons, htime⟩
  | cons first rest =>
    obtain ⟨hmem, htime⟩ := first_events hnewest hfound
    exact .inr ⟨first, read_cons.mpr (.inl ⟨hok, hmem⟩), htime⟩

include h hlists hok hcounts in
/-- A request of the window that is newer than the receipts before is read, counted, or of the
second the scan stopped in. -/
theorem Accounts.covered_new {e : Event} (hfound : e ∈ r.found)
    (hnew : r.before.prevNewest < e.time) :
    Read s (r :: readings) e ∨ d (e.time / 1000) = true ∨ SharesStop s (r :: readings) e := by
  have hin := ((mem_found hlists).mp hfound).2.2
  have hstart : r.before.missedFrom r.now ≤ e.time := by
    have hto := h.missedTo_le
    unfold missedFrom
    omega
  rw [← List.take_append_drop receiptScanCap r.found, List.mem_append] at hfound
  rcases hfound with hfound | hfound
  · exact .inl (read_cons.mpr (.inl ⟨hok, hfound⟩))
  · -- the scan has stopped before it came to the event
    have hcap : 0 < receiptScanCap := by decide
    have hlength := List.length_pos_of_mem hfound
    rw [List.length_drop] at hlength
    have hlast : r.last = some r.found[receiptScanCap - 1] := List.getElem?_eq_getElem (by omega)
    have hdrop : e ∈ r.found.drop (receiptScanCap - 1) :=
      (List.drop_sublist_drop_left _ (by omega)).subset hfound
    have hle := hlists.older hlast hdrop
    rcases Nat.lt_or_ge (e.time / 1000) (r.found[receiptScanCap - 1].time / 1000) with hlt | hge
    · exact .inr (.inl (hcounts.whole _ hlast (by omega) _ (by omega) (by omega)))
    · exact .inr (.inr ⟨r, List.mem_cons_self, hok, _, hlast, by omega⟩)

include h hlists hok hcounts hnewest in
private theorem Accounts.covered_succeed (hwindow : InWindow s readings r) {e : Event}
    (he : e ∈ r.log) (htype : e.type = requestEvent) (hafter : AfterFirst s (r :: readings) e)
    (hle : (e.time : Int) ≤ (r.after s).prevNewest) :
    Read s (r :: readings) e ∨ (c (e.time / 1000) || d (e.time / 1000)) = true ∨
    SharesStop s (r :: readings) e := by
  obtain ⟨r', hr', hok', hne, hall⟩ := hafter
  rcases List.mem_cons.mp hr' with rfl | hr'
  · -- what is older than the newest receipt is not newer than all of this reading's
    have hsome : r'.found ≠ [] := by
      intro hnil
      simp [Reading.events, hnil] at hne
    obtain ⟨first, rest, hfound⟩ := List.exists_cons_of_ne_nil hsome
    obtain ⟨hmem, htime⟩ := first_events hnewest hfound
    have hlt := hall first hmem
    omega
  by_cases hold : (e.time : Int) ≤ r.before.prevNewest
  · refine covered_cons (c := fun second => c second || d second)
      ((h.covered e he htype ⟨r', hr', hok', hne, hall⟩ hold).imp_right (Or.imp_left fun hc => ?_))
    simp [hc]
  · have hnewer : Newer s readings e := by
      intro _ r'' hr'' hok'' e' he'
      have hle := h.newest e' ⟨r'', hr'', hok'', he'⟩
      omega
    have hin : r.now - streamWindow ≤ e.time := hwindow hok ⟨r', hr', hok', hne⟩ e he htype hnewer
    have hfound : e ∈ r.found := (mem_found hlists).mpr ⟨he, htype, hin⟩
    refine (h.covered_new hlists hok hcounts hfound (by omega)).imp_right (Or.imp_left fun hd => ?_)
    simp [hd]

include h hlists hok hcounts in
/-- What is read and counted was read before and is counted from the second of the newest
receipt. -/
theorem Accounts.overlap_succeed {e : Event}
    (hcounted : (c (e.time / 1000) || d (e.time / 1000)) = true) (he : Read s (r :: readings) e) :
    ∃ r' ∈ r :: readings, r'.Succeeds s ∧ (e.time : Int) / 1000 = r'.before.prevNewest / 1000 := by
  rcases read_cons.mp he with ⟨_, hnow⟩ | hbefore
  · obtain ⟨hlog, htype, _⟩ := (mem_found hlists).mp (List.mem_of_mem_take hnow)
    rcases Bool.or_eq_true _ _ ▸ hcounted with hc | hd
    · exact absurd hnow (not_read_of_behind hlists (h.behind e hlog htype hc))
    · exact absurd hnow (not_read_of_behind hlists (hcounts.behind hlists hd))
  · rcases Bool.or_eq_true _ _ ▸ hcounted with hc | hd
    · obtain ⟨r', hr', hok', hsecond⟩ := h.overlap e hc hbefore
      exact ⟨r', List.mem_cons_of_mem _ hr', hok', hsecond⟩
    · have hstart := (hcounts.bounds _ hd).1
      have hle := h.newest e hbefore
      refine ⟨r, List.mem_cons_self, hok, ?_⟩
      unfold missedFrom at hstart
      omega

end Succeed

/-- A reading that succeeds. -/
theorem Accounts.succeed (h : Accounts s r.log r.before readings c)
    (hlists : Lists r.log (windowFilter r.now).query r.found) (hok : r.Succeeds s)
    (hids : (r.receipts s).map Receipt.id = r.events.map Event.id)
    (hkeyed : Keyed (r.after s).settled) (hnewest : (r.after s).prevNewest =
      (r.found.head?.map (fun e => (e.time : Int))).getD r.before.prevNewest)
    (hcounts : Counts s r d) (hwindow : InWindow s readings r) :
    Accounts s r.log (r.after s) (r :: readings) (fun second => c second || d second) where
  keyed := hkeyed
  unchanged := List.forall_mem_cons.mpr ⟨fun hfails => absurd hok hfails, h.unchanged⟩
  shown := List.forall_mem_cons.mpr ⟨fun _ => hids, h.shown⟩
  known e he := by
    rcases read_cons.mp he with ⟨_, he⟩ | he
    · obtain ⟨hlog, htype, _⟩ := (mem_found hlists).mp (List.mem_of_mem_take he)
      exact ⟨hlog, htype⟩
    · exact h.known e he
  newest e he := by
    rcases read_cons.mp he with ⟨_, he⟩ | he
    · exact events_le hlists hnewest (List.mem_of_mem_take he)
    · exact (h.newest e he).trans (h.prevNewest_le hlists hnewest)
  newest_read := h.newest_read_cons hok hnewest
  missedTo_le := by
    rcases hcounts.moves with hsame | ⟨last, hlast, hto⟩
    · rw [hsame]
      exact h.missedTo_le.trans (h.prevNewest_le hlists hnewest)
    · rw [hto]
      exact events_le hlists hnewest (List.mem_of_getElem? hlast)
  counted_lt second hcounted := by
    have hto := hcounts.missedTo_le
    rcases Bool.or_eq_true _ _ ▸ hcounted with hc | hd
    · have hlt := h.counted_lt second hc
      omega
    · obtain ⟨_, last, _, hlt, hto'⟩ := hcounts.bounds second hd
      rwa [hto']
  missed := by
    rw [List.map_cons, List.sum_cons, hcounts.missed, h.missed, countedIn_or _ (h.disjoint hcounts),
      Nat.add_comm]
  covered e he htype hafter hle :=
    h.covered_succeed hlists hok hcounts hnewest hwindow he htype hafter hle
  behind e he htype hcounted := by
    rcases Bool.or_eq_true _ _ ▸ hcounted with hc | hd
    · exact h.behind e he htype hc
    · exact hcounts.behind hlists hd
  overlap e hcounted he := h.overlap_succeed hlists hok hcounts hcounted he

end Counts

section Run

variable {s : Server} {log : List Event} {sr : StreamReader} {readings : List Reading}

/-- The events that a reading counts are no newer than those it reads. -/
theorem requestsIn_grown {r : Reading} {new : List Event} {last : Event}
    (hlast : r.last = some last) (hok : r.Succeeds s) (hnew : ∀ e ∈ new, Newer s (r :: readings) e)
    (start : Int) : requestsIn (r.log ++ new) start (last.time / 1000) =
      requestsIn r.log start (last.time / 1000) := by
  have hnone : requestsIn new start (last.time / 1000) = [] := by
    refine List.filter_eq_nil_iff.mpr fun e he hmatch => ?_
    simp only [Bool.and_eq_true, decide_eq_true_eq] at hmatch
    have hcap : 0 < receiptScanCap := by decide
    have hmem : last ∈ r.events := List.mem_take_iff_getElem.mpr (by
      obtain ⟨hlt, hget⟩ := List.getElem?_eq_some_iff.mp hlast
      exact ⟨receiptScanCap - 1, by omega, hget⟩)
    have hlt := hnew e he hmatch.1.1 r List.mem_cons_self hok last hmem
    omega
  have happend : requestsIn (r.log ++ new) start (last.time / 1000) =
      requestsIn r.log start (last.time / 1000) ++ requestsIn new start (last.time / 1000) :=
        List.filter_append ..
  rw [happend, hnone, List.append_nil]

/-- What holds of the readings so far. -/
theorem Reads.accounts (hrun : Reads s log sr readings) (hcareful : Careful s readings) :
    ∃ c, Accounts s log sr readings c := by
  induction hrun with
  | start log => exact ⟨_, .start s log⟩
  | grow _ hnew ih =>
    obtain ⟨c, h⟩ := ih hcareful
    exact ⟨c, h.grow hnew⟩
  | @read new r readings _ hhonest hnew ih =>
    obtain ⟨hnothing, hwindow, hcareful⟩ := hcareful
    obtain ⟨c, h⟩ := ih hcareful
    rcases r.result_cases s hhonest h.keyed with
      ⟨hfails, hmissed, hsame⟩ | ⟨hfails, hmissed, hincomplete, hsettled, missed, hscanned⟩ | ⟨hok,
        hids, hkeyed, hscanned⟩
    · rw [hsame]
      exact ⟨c, (h.fail hfails hmissed hsame).grow hnew⟩
    · have hsame := h.unmoved hhonest.lists hscanned.prevNewest hscanned hsettled
        (hnothing.resolve_left hincomplete)
      rw [hsame]
      exact ⟨c, (h.fail hfails hmissed hsame).grow hnew⟩
    · obtain ⟨d, hcounts⟩ :=
        counts_of_cases (s := s) (r := r)
        (hscanned.missed.imp_right fun ⟨last, hlast, hlt, hto, hcount⟩ =>
        ⟨last, hlast, hlt, hto, by rw [hcount, requestsIn_grown hlast hok hnew]⟩)
      exact ⟨_, (h.succeed hhonest.lists hok hids hkeyed hscanned.prevNewest hcounts hwindow).grow
        hnew⟩

end Run

section Witnesses

/-- OpenMeter over a log, which answers no token lookup. -/
def withoutTokens (log : List Event) : (q : Request) → Answer q
  | .events q =>
    if q.typ = tokensEvent then { pages := [], failure := some "unavailable" }
      else openMeter log (.events q)
  | q => openMeter log q

/-- A reading of what is in a log. -/
def polled (now : Int) (om : (q : Request) → Answer q) (log : List Event) (before : StreamReader) :
    Reading where
  now := now
  om := om
  cached := none
  log := log
  found := (log.filter (windowFilter now).query.matches).mergeSort (fun e e' => e'.time ≤ e.time)
  before := before

variable {now : Int} {om : (q : Request) → Answer q} {log : List Event} {before : StreamReader}

private theorem polled_lists :
    Lists (polled now om log before).log (windowFilter (polled now om log before).now).query
    (polled now om log before).found where
  perm := List.mergeSort_perm _ _
  newest := by
    refine (List.pairwise_mergeSort ?_ ?_ _).imp of_decide_eq_true
    · intro e e' e'' h h'
      simp only [decide_eq_true_eq] at h h' ⊢
      omega
    · intro e e'
      simp only [Bool.or_eq_true, decide_eq_true_eq]
      omega

private theorem polled_honest
    (hpages : om (.events (windowFilter now).query) =
      openMeter log (.events (windowFilter now).query))
    (hmeter : ∀ start stop names, om (.meter "llm_requests" start stop none names) =
      openMeter log (.meter "llm_requests" start stop none names)) :
      (polled now om log before).Honest (log ++ []) where
  lists := polled_lists
  pages := by
    have hhonest := openMeter_honest log (windowFilter now).query
    rwa [← hpages] at hhonest
  meter start stop names rows hrows := by
    obtain ⟨rows', hrows', hgroups⟩ := openMeter_counts log start stop names
    obtain rfl := Except.ok.inj (hrows'.symm.trans ((hmeter start stop names).symm.trans hrows))
    rw [List.append_nil]
    exact hgroups

private theorem withoutTokens_honest :
    (polled now (withoutTokens log) log before).Honest (log ++ []) := by
  have hother : (windowFilter now).query.typ ≠ tokensEvent := by
    show requestEvent ≠ tokensEvent
    decide
  exact polled_honest (by rw [withoutTokens, if_neg hother]) fun _ _ _ => rfl

private theorem mem_polled_events (hlength : log.length ≤ receiptScanCap) {e : Event} :
    e ∈ (polled now om log before).events ↔ e ∈ log ∧ e.type = requestEvent ∧
    now - streamWindow ≤ e.time := by
  have hfew : (polled now om log before).found.length ≤ receiptScanCap := by
    simpa [polled] using (List.length_filter_le _ _).trans hlength
  rw [Reading.events, List.take_of_length_le hfew]
  exact mem_found polled_lists

private theorem polled_fails {s : Server} {r : Reading} (h : (r.result s).1.isOk = false) :
    ¬r.Succeeds s := by
  rintro ⟨shown, hshown⟩
  simp [hshown, Except.isOk, Except.toBool] at h

/-- The first reading has one request, whose tokens have not landed. -/
def first : Reading := polled 10000 (openMeter [served "r-1" 5000]) [served "r-1" 5000] {}

/-- A second later the request's tokens cannot be looked up. -/
def failed : Reading :=
  polled 11000 (withoutTokens [served "r-1" 5000]) [served "r-1" 5000] (first.after plainServer)

/-- The requests by the next reading. -/
def grown : List Event := [served "r-1" 5000, served "r-2" 120000, served "r-3" 121000]

/-- By the next reading there are two more requests, and the first has left the window. -/
def next : Reading := polled 126000 (openMeter grown) grown (failed.after plainServer)

private theorem first_events_eq {e : Event} : e ∈ first.events ↔ e = served "r-1" 5000 := by
  rw [first, mem_polled_events (by decide), List.mem_singleton]
  refine and_iff_left_of_imp fun he => ?_
  rw [he]
  decide

private theorem first_succeeds : first.Succeeds plainServer :=
  first.succeeds_of_serves plainServer (openMeter_serves _) (openMeter_counts _)

private theorem polled_completes (now : Int) (log : List Event) (before : StreamReader) :
    (polled now (openMeter log) log before).Completes plainServer := by
  obtain ⟨done, cached, hdone⟩ :=
    complete_ok (s := (polled now (openMeter log) log before).server plainServer)
    (openMeter_serves log) (polled now (openMeter log) log before).opened none
  exact ⟨done, congrArg Prod.fst hdone⟩

/-- A run with a reading that fails between two that succeed. -/
theorem reads_next :
    Reads plainServer (grown ++ []) (next.after plainServer) [next, failed, first] := by
  have hnone (readings : List Reading) : ∀ e ∈ ([] : List Event), Newer plainServer readings e :=
    fun _ he => absurd he List.not_mem_nil
  have hfirst : Reads plainServer ([served "r-1" 5000] ++ []) (first.after plainServer) [first] :=
    .read (.start _) (polled_honest rfl fun _ _ _ => rfl) (hnone _)
  have hfailed :
      Reads plainServer ([served "r-1" 5000] ++ []) (failed.after plainServer) [failed, first] :=
    .read hfirst withoutTokens_honest (hnone _)
  have hgrown : Reads plainServer
    ([served "r-1" 5000] ++ [served "r-2" 120000, served "r-3" 121000])
      (failed.after plainServer) [failed, first] := by
    refine .grow hfailed fun e he _ r hr hok e' he' => ?_
    have hlate : 120000 ≤ e.time := by
      rcases List.mem_pair.mp he with rfl | rfl <;> decide
    have hold : e'.time = 5000 := by
      rcases List.mem_pair.mp hr with rfl | rfl
      · have hlog := ((mem_polled_events (by decide)).mp he').1
        rw [List.mem_singleton.mp hlog]
        rfl
      · rw [first_events_eq.mp he']
        rfl
    omega
  exact .read hgrown (polled_honest rfl fun _ _ _ => rfl) (hnone _)

private theorem careful_next : Careful plainServer [next, failed, first] := by
  have hearly (readings : List Reading) {r : Reading}
      (hr : r.now ≤ 120000) : InWindow plainServer readings r := by
    intro _ _ e _ _ _
    unfold streamWindow
    omega
  refine ⟨.inl (polled_completes _ _ _), fun _ _ e he htype hnewer => ?_, .inr fun e he _ _ => ?_,
    hearly _ (by decide),
    .inl (polled_completes _ _ _), hearly _ (by decide), trivial⟩
  · -- the request that has left the window has been read
    have hlt := hnewer htype first (by simp) first_succeeds _ (first_events_eq.mpr rfl)
    simp only [next, polled, grown, List.mem_cons, List.not_mem_nil, or_false] at he
    rcases he with rfl | rfl | rfl
    · exact absurd hlt (Nat.lt_irrefl _)
    · decide
    · decide
  · have hprev : (first.after plainServer).prevNewest = 5000 := by decide +kernel
    rw [List.mem_singleton.mp he]
    exact hprev.ge

end Witnesses

end StreamReader

end openmeter
