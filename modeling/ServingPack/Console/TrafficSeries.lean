import ServingPack.Console.Counts

open golang concurrency

namespace openmeter

/-- The size of a window in milliseconds. -/
def Window.size : Window → Int
  | .minute => 60 * 1000
  | .hour => 60 * 60 * 1000
  | .day => 24 * 60 * 60 * 1000

/-- Where the window with a time starts: windows are aligned to minutes, hours and days. -/
def Window.start (w : Window) (t : Int) : Int := t / w.size * w.size

/-- The largest window that fits in a bucket. -/
def queryWindow (bucket : Int) : Window :=
  if Window.day.size ≤ bucket then .day
  else if Window.hour.size ≤ bucket then .hour
  else .minute

/-- The points of a chart: how many, and how far apart in milliseconds. -/
structure TrafficBucket where
  bucket : Int
  points : Nat

/-- The Overview chart's points per range. -/
def trafficBuckets : GoMap TrafficBucket :=
  GoMap.ofList [
    ("15m", { bucket := 5 * 60 * 1000, points := 3 }),
    ("1h", { bucket := 5 * 60 * 1000, points := 12 }),
    ("6h", { bucket := 15 * 60 * 1000, points := 24 }),
    ("24h", { bucket := 30 * 60 * 1000, points := 48 }),
    ("7d", { bucket := 6 * 60 * 60 * 1000, points := 28 }),
    ("30d", { bucket := 24 * 60 * 60 * 1000, points := 30 })]

def trafficBucket (range : GoString) : TrafficBucket :=
  (trafficBuckets.lookup range).getD { bucket := 30 * 60 * 1000, points := 48 }

structure SeriesPoint where
  t : Int
  allowed : Nat := 0
  blocked : Nat := 0
  throttled : Nat := 0
  truncated : Nat := 0

/-- A point with the requests of a row, by their outcome. -/
def SeriesPoint.addRow (row : MeterRow) (p : SeriesPoint) : SeriesPoint :=
  let code := atoi ((row.field "response_code").getD [])
  if code = 429 then { p with throttled := p.throttled + row.value }
  else if 400 ≤ code then { p with blocked := p.blocked + row.value }
  else if (row.field "usage_reported").getD [] = "false"
    then { p with truncated := p.truncated + row.value }
  else { p with allowed := p.allowed + row.value }

/-- The points with a row. -/
def addSeriesRow (start bucket : Int) (out : List SeriesPoint) (row : MeterRow) :
    List SeriesPoint :=
  let i := (row.windowStart - start).tdiv bucket
  if i < 0 ∨ (out.length : Int) ≤ i then out else out.modify i.toNat (SeriesPoint.addRow row)

/-- Where the first point of a chart starts. -/
def TrafficBucket.start (tb : TrafficBucket) (now : Int) : Int :=
  now / tb.bucket * tb.bucket - (tb.points - 1) * tb.bucket

def TrafficBucket.window (tb : TrafficBucket) : Window :=
  if tb.bucket < Window.hour.size then .minute else queryWindow tb.bucket

/-- The points before any row is counted. -/
def TrafficBucket.series (tb : TrafficBucket) (now : Int) : List SeriesPoint :=
  (List.range tb.points).map (fun (i : Nat) => { t := tb.start now + i * tb.bucket })

/-- The requests per bucket by outcome. -/
def trafficSeries (s : Server) (range : GoString) : Call (List SeriesPoint) := do
  let tb := trafficBucket range
  let start := tb.start s.now
  let rows ← meterQuery "llm_requests" start s.now (some tb.window) ["usage_reported",
    "response_code"]
  pure (rows.foldl (addSeriesRow start tb.bucket) (tb.series s.now))

/-- The `llm_requests` meter counts the request events by their window and the fields that are
named. -/
def CountsWindows (log : List Event) (om : (q : Request) → Answer q) : Prop :=
  ∀ start stop w names, ∃ rows, om (.meter "llm_requests" start stop (some w) names) = .ok rows ∧
    Groups (requestsIn log start stop) (fun e => (w.start e.time, names.map e.field))
      (fun _ => 1) rows
      (fun r => (r.windowStart, names.map r.field)) MeterRow.value

/-- How many of a point's requests had an outcome. -/
def SeriesPoint.count (p : SeriesPoint) : Verdict → Nat
  | .allowed => p.allowed
  | .blocked => p.blocked
  | .throttled => p.throttled
  | .truncated => p.truncated

def SeriesPoint.total (p : SeriesPoint) : Nat := p.allowed + p.blocked + p.throttled + p.truncated

section Buckets

variable {tb : TrafficBucket} {range : GoString}

/-- Whole buckets of whole windows, in whole seconds. -/
structure TrafficBucket.Aligned (tb : TrafficBucket) : Prop where
  pos : 0 < tb.points
  windows : ∃ k : Int, 0 < k ∧ tb.bucket = k * tb.window.size

private theorem trafficBucket_mem (range : GoString) : trafficBucket range ∈
    [(⟨5 * 60 * 1000, 3⟩ : TrafficBucket), ⟨5 * 60 * 1000, 12⟩, ⟨15 * 60 * 1000, 24⟩,
      ⟨30 * 60 * 1000, 48⟩,
      ⟨6 * 60 * 60 * 1000, 28⟩, ⟨24 * 60 * 60 * 1000, 30⟩] := by
  rw [trafficBucket]
  cases hlookup : trafficBuckets.lookup range with
  | none => simp
  | some tb =>
    have hmem := GoMap.mem_of_lookup_ofList hlookup
    simp only [List.mem_cons, Prod.mk.injEq, List.not_mem_nil, or_false] at hmem
    rw [Option.getD_some]
    obtain ⟨_, rfl⟩ | ⟨_, rfl⟩ | ⟨_, rfl⟩ | ⟨_, rfl⟩ | ⟨_, rfl⟩ | ⟨_, rfl⟩ := hmem <;> simp

private theorem trafficBucket_aligned (range : GoString) : (trafficBucket range).Aligned := by
  have hmem := trafficBucket_mem range
  simp only [List.mem_cons, List.not_mem_nil, or_false] at hmem
  obtain h | h | h | h | h | h := hmem <;> rw [h]
  · exact ⟨by decide, 5, by decide, by decide⟩
  · exact ⟨by decide, 5, by decide, by decide⟩
  · exact ⟨by decide, 15, by decide, by decide⟩
  · exact ⟨by decide, 30, by decide, by decide⟩
  · exact ⟨by decide, 6, by decide, by decide⟩
  · exact ⟨by decide, 1, by decide, by decide⟩

/-- No window is empty, so each time falls in one. -/
theorem Window.size_pos (w : Window) : 0 < w.size := by cases w <;> decide

private theorem Window.size_seconds (w : Window) : w.size % 1000 = 0 := by cases w <;> decide

private theorem TrafficBucket.Aligned.bucket_pos (h : tb.Aligned) : 0 < tb.bucket := by
  obtain ⟨k, hk, hbucket⟩ := h.windows
  rw [hbucket]
  exact Int.mul_pos hk tb.window.size_pos

/-- A chart starts at the start of a bucket, in a whole second. -/
theorem TrafficBucket.start_eq (tb : TrafficBucket) (now : Int) :
    tb.start now = (now / tb.bucket - (tb.points - 1)) * tb.bucket := by
  rw [TrafficBucket.start, Int.sub_mul (now / tb.bucket)]

private theorem TrafficBucket.Aligned.start_seconds (h : tb.Aligned) (now : Int) :
    tb.start now / 1000 * 1000 = tb.start now := by
  obtain ⟨k, _, hbucket⟩ := h.windows
  have hsize := tb.window.size_seconds
  apply Int.ediv_mul_cancel
  rw [tb.start_eq, hbucket]
  exact Dvd.dvd.mul_left (Dvd.dvd.mul_left (Int.dvd_of_emod_eq_zero hsize) _) _

/-- The window of a time lies in the time's bucket. -/
theorem TrafficBucket.Aligned.index (h : tb.Aligned) {now t : Int} (hstart : tb.start now ≤ t) :
    (tb.window.start t - tb.start now).tdiv tb.bucket = t / tb.bucket -
    (now / tb.bucket - (tb.points - 1)) := by
  obtain ⟨k, hk, hbucket⟩ := h.windows
  have hsize := tb.window.size_pos
  have hpos := h.bucket_pos
  have hwindow : tb.window.start t / tb.bucket = t / tb.bucket := by
    rw [Window.start, hbucket, Int.mul_ediv_mul_of_pos_left _ _ hsize, Int.mul_comm,
      Int.ediv_ediv_of_nonneg (by omega)]
  have hdiff : (tb.window.start t - tb.start now) / tb.bucket =
      t / tb.bucket - (now / tb.bucket - (tb.points - 1)) := by
    rw [tb.start_eq, Int.sub_mul_ediv_right _ _ (by omega), hwindow]
  have hle : tb.start now ≤ tb.window.start t := by
    have hdvd : tb.window.size ∣ tb.start now := by
      rw [tb.start_eq, hbucket]
      exact Dvd.dvd.mul_left (Int.dvd_mul_left _ _) _
    obtain ⟨m, hm⟩ := hdvd
    rw [hm] at hstart ⊢
    rw [Window.start, Int.mul_comm _ tb.window.size]
    apply Int.mul_le_mul_of_nonneg_left _ (Int.le_of_lt hsize)
    exact (Int.le_ediv_iff_mul_le hsize).mpr (by rwa [Int.mul_comm])
  rw [Int.tdiv_eq_ediv_of_nonneg (Int.sub_nonneg.mpr hle), hdiff]

/-- The bucket of a time is the one it lies in. -/
theorem TrafficBucket.Aligned.index_iff (h : tb.Aligned) (now : Int) {t : Int} (i : Nat) :
    t / tb.bucket - (now / tb.bucket - (tb.points - 1)) = i ↔
      tb.start now + i * tb.bucket ≤ t ∧ t < tb.start now + i * tb.bucket + tb.bucket := by
  have hpos := h.bucket_pos
  have hlow : tb.start now + i * tb.bucket =
      (now / tb.bucket - (tb.points - 1) + i) * tb.bucket := by
    rw [tb.start_eq, Int.add_mul]
  rw [hlow]
  generalize now / tb.bucket - (tb.points - 1) = m
  have hhigh : (m + i) * tb.bucket + tb.bucket = (m + i + 1) * tb.bucket := by
    rw [Int.add_mul (m + i), Int.one_mul]
  rw [hhigh, ← Int.le_ediv_iff_mul_le hpos, ← Int.ediv_lt_iff_lt_mul hpos]
  omega

/-- Times before now have a bucket. -/
theorem TrafficBucket.Aligned.index_lt (h : tb.Aligned) {now t : Int} (hstart : tb.start now ≤ t)
    (hstop : t < now) :
    0 ≤ t / tb.bucket - (now / tb.bucket - (tb.points - 1)) ∧
      t / tb.bucket - (now / tb.bucket - (tb.points - 1)) < tb.points := by
  have hpos := h.bucket_pos
  rw [tb.start_eq, ← Int.le_ediv_iff_mul_le hpos] at hstart
  have hle := Int.ediv_le_ediv hpos (Int.le_of_lt hstop)
  omega

end Buckets

section Points

variable {start bucket : Int} {out : List SeriesPoint} {rows : List MeterRow}

/-- The outcome of a row's requests. -/
def MeterRow.verdict (row : MeterRow) : Verdict :=
  verdictOf (atoi ((row.field "response_code").getD [])) ((row.field "usage_reported").getD [])

/-- A row is counted under the outcome that its receipts have. -/
theorem SeriesPoint.count_addRow (row : MeterRow) (p : SeriesPoint) (v : Verdict) :
    (p.addRow row).count v = p.count v + if row.verdict = v then row.value else 0 := by
  unfold SeriesPoint.addRow MeterRow.verdict verdictOf
  dsimp only
  split_ifs <;> first | rfl | (subst v; rfl) | (cases v <;> first | rfl | contradiction)

private theorem SeriesPoint.t_addRow (row : MeterRow) (p : SeriesPoint) :
    (p.addRow row).t = p.t := by
  unfold SeriesPoint.addRow
  dsimp only
  split_ifs <;> rfl

/-- The bucket of a row. -/
def seriesIndex (start bucket : Int) (row : MeterRow) : Int := (row.windowStart - start).tdiv bucket

private theorem foldl_length (rows : List MeterRow) :
    (rows.foldl (addSeriesRow start bucket) out).length = out.length := by
  induction rows generalizing out with
  | nil => rfl
  | cons row rest ih =>
    rw [List.foldl_cons, ih]
    unfold addSeriesRow
    dsimp only
    split_ifs
    · rfl
    · exact List.length_modify ..

private theorem addSeriesRow_get (row : MeterRow) (i : Nat) :
    (addSeriesRow start bucket out row)[i]? =
    out[i]?.map (fun p => if seriesIndex start bucket row = i then p.addRow row else p) := by
  have hadd : addSeriesRow start bucket out row =
      if seriesIndex start bucket row < 0 ∨
        (out.length : Int) ≤ seriesIndex start bucket row then out
      else out.modify (seriesIndex start bucket row).toNat (SeriesPoint.addRow row) := rfl
  rw [hadd]
  by_cases hout : seriesIndex start bucket row < 0 ∨
    (out.length : Int) ≤ seriesIndex start bucket row
  · rw [if_pos hout]
    cases hget : out[i]? with
    | none => rfl
    | some p =>
      have hi := (List.getElem?_eq_some_iff.mp hget).1
      rw [Option.map_some, if_neg (by omega)]
  · rw [if_neg hout, List.getElem?_modify]
    have hsame : (seriesIndex start bucket row).toNat = i ↔ seriesIndex start bucket row = i := by
      omega
    simp only [hsame]
    rfl

/-- A point with the rows of its bucket. -/
def SeriesPoint.addRows (start bucket : Int) (i : Nat) (rows : List MeterRow) (p : SeriesPoint) :
    SeriesPoint :=
  rows.foldl (fun p row => if seriesIndex start bucket row = i then p.addRow row else p) p

private theorem foldl_addSeriesRow_get (rows : List MeterRow) (i : Nat) :
    (rows.foldl (addSeriesRow start bucket) out)[i]? =
    out[i]?.map (SeriesPoint.addRows start bucket i rows) := by
  induction rows generalizing out with
  | nil => exact (Option.map_id_apply).symm
  | cons row rest ih =>
    rw [List.foldl_cons, ih, addSeriesRow_get, Option.map_map]
    rfl

/-- A point sums up the rows of its bucket by outcome. -/
theorem SeriesPoint.addRows_eq (rows : List MeterRow) (i : Nat) (p : SeriesPoint) :
    (p.addRows start bucket i rows).t = p.t ∧ ∀ v, (p.addRows start bucket i rows).count v =
      p.count v + sumOf MeterRow.value (rows.filter (fun row => seriesIndex start bucket row = i ∧
        row.verdict = v)) := by
  induction rows generalizing p with
  | nil => exact ⟨rfl, fun _ => rfl⟩
  | cons row rest ih =>
    rw [SeriesPoint.addRows, List.foldl_cons, ← SeriesPoint.addRows]
    obtain ⟨ht, hcount⟩ := ih (if seriesIndex start bucket row = i then p.addRow row else p)
    by_cases hindex : seriesIndex start bucket row = i
    · rw [if_pos hindex] at ht hcount ⊢
      refine ⟨ht.trans (SeriesPoint.t_addRow row p), fun v => ?_⟩
      rw [hcount, SeriesPoint.count_addRow, List.filter_cons]
      by_cases hv : row.verdict = v
      · rw [if_pos hv, if_pos (decide_eq_true ⟨hindex, hv⟩), sumOf_cons, Nat.add_assoc]
      · rw [if_neg hv, if_neg (by simpa using fun _ => hv), Nat.add_zero]
    · rw [if_neg hindex] at ht hcount ⊢
      refine ⟨ht, fun v => ?_⟩
      rw [hcount, List.filter_cons, if_neg (by simpa using fun h => absurd h hindex)]

end Points

section Series

variable {log : List Event} {om : (q : Request) → Answer q} {s : Server} {range : GoString}

/-- The outcome from what a row is grouped by. -/
def verdictOfFields : List (Option GoString) → Verdict
  | [usageReported, responseCode] => verdictOf (atoi (responseCode.getD [])) (usageReported.getD [])
  | _ => .allowed

private theorem verdictOfFields_event (e : Event) :
    verdictOfFields ([lit "usage_reported", lit "response_code"].map e.field) =
      (receiptFrom e).verdict := by
  simp only [List.map_cons, List.map_nil, verdictOfFields, field_str]
  rfl

/-- The request events of a chart's span. -/
def seriesEvents (log : List Event) (tb : TrafficBucket) (now : Int) : List Event :=
  requestsIn log (tb.start now / 1000) (now / 1000)

/-- The events of a series lie between its first bucket's start and now. -/
theorem mem_seriesEvents {tb : TrafficBucket} (haligned : tb.Aligned) {now : Int} {e : Event}
    (he : e ∈ seriesEvents log tb now) : tb.start now ≤ e.time ∧ (e.time : Int) < now := by
  rw [seriesEvents, requestsIn, List.mem_filter] at he
  simp only [Bool.and_eq_true, decide_eq_true_eq] at he
  have hstart := haligned.start_seconds now
  omega

/-- The series, point by point: each counts the events of its bucket by outcome. -/
theorem trafficSeries_points (hcounts : CountsWindows log om) :
    ∃ out, answer om (trafficSeries s range) = .ok out ∧
    out.length = (trafficBucket range).points ∧ ∀ (i : Nat) (p : SeriesPoint), out[i]? = some p →
      p.t = (trafficBucket range).start s.now + i * (trafficBucket range).bucket ∧ ∀ v, p.count v =
        (seriesEvents log (trafficBucket range) s.now).countP (fun e =>
          p.t ≤ e.time ∧ e.time < p.t + (trafficBucket range).bucket ∧
          (receiptFrom e).verdict = v) := by
  have haligned := trafficBucket_aligned range
  generalize htb : trafficBucket range = tb at haligned
  obtain ⟨rows, hrows, hgroups⟩ :=
    hcounts (tb.start s.now / 1000) (s.now / 1000) tb.window ["usage_reported", "response_code"]
  have hquery : answer om (meterQuery "llm_requests" (tb.start s.now) s.now (some tb.window)
      ["usage_reported", "response_code"]) = .ok rows := hrows
  refine ⟨rows.foldl (addSeriesRow (tb.start s.now) tb.bucket) (tb.series s.now), ?_, ?_, ?_⟩
  · rw [trafficSeries, htb]
    exact answer_bind_of_ok hquery
  · rw [foldl_length, TrafficBucket.series, List.length_map, List.length_range]
  · intro i p hp
    rw [foldl_addSeriesRow_get, TrafficBucket.series, List.getElem?_map] at hp
    cases hi : (List.range tb.points)[i]? with
    | none => simp [hi] at hp
    | some j =>
      obtain ⟨hlt, hj⟩ := List.getElem?_eq_some_iff.mp hi
      rw [List.getElem_range] at hj
      subst hj
      rw [hi, Option.map_some, Option.map_some] at hp
      obtain rfl := Option.some.inj hp
      obtain ⟨ht, hcount⟩ := @SeriesPoint.addRows_eq (tb.start s.now) tb.bucket rows i
        { t := tb.start s.now + i * tb.bucket }
      refine ⟨ht, fun v => ?_⟩
      rw [hcount, ht]
      have hsum := hgroups.sumOf_filter
        (fun key => (key.1 - tb.start s.now).tdiv tb.bucket = i ∧ verdictOfFields key.2 = v)
      have hzero : ({ t := tb.start s.now + i * tb.bucket } : SeriesPoint).count v = 0 := by
        cases v <;> rfl
      rw [hzero, Nat.zero_add]
      refine Eq.trans ?_ (hsum.trans ?_)
      · rfl
      · rw [sumOf_one, List.countP_eq_length_filter]
        refine congrArg List.length (List.filter_congr fun e he => ?_)
        obtain ⟨hstart, _⟩ := mem_seriesEvents haligned he
        rw [verdictOfFields_event, haligned.index hstart, decide_eq_decide,
          haligned.index_iff s.now i, and_assoc]

/-- The outcomes of a point's requests make up all of them. -/
theorem total_eq {events : List Event} {p : SeriesPoint} {q : Event → Prop} [DecidablePred q]
    (h : ∀ v, p.count v = events.countP (fun e => q e ∧ (receiptFrom e).verdict = v)) :
    p.total = events.countP (fun e => q e) := by
  have hkeys := @sumOf_filter_keys _ _ _ _ (fun _ => 1) _ (fun e => (receiptFrom e).verdict)
    (events.filter (fun e => q e))
    [.allowed, .blocked, .throttled, .truncated] (by decide)
  have hcount (v : Verdict) : p.count v = sumOf (fun _ => 1)
      ((events.filter (fun e => q e)).filter (fun e => decide ((receiptFrom e).verdict = v))) := by
    rw [h, sumOf_one, List.filter_filter, List.countP_eq_length_filter]
    refine congrArg List.length (List.filter_congr fun e _ => ?_)
    rw [Bool.decide_and, Bool.and_comm]
  have hevery : (events.filter (fun e => q e)).filter
      (fun e => decide ((receiptFrom e).verdict ∈ [Verdict.allowed, .blocked, .throttled,
        .truncated])) =
      events.filter (fun e => q e) := by
    apply List.filter_eq_self.mpr
    intro e _
    cases (receiptFrom e).verdict <;> rfl
  rw [hevery, sumOf_one, ← List.countP_eq_length_filter] at hkeys
  rw [← hkeys]
  simp only [sumOf_cons, sumOf_nil, ← hcount]
  simp only [SeriesPoint.total, SeriesPoint.count]
  omega

/-- The Overview's series puts every request event of its span, from the start of the
first bucket to the current second, into the bucket of its time, under the outcome
of its receipt. -/
theorem trafficSeries_counts (s : Server) (om : (q : Request) → Answer q) (log : List Event)
    (range : GoString) (hcounts : CountsWindows log om) :
    ∃ out, answer om (trafficSeries s range) = .ok out ∧ out.length = (trafficBucket range).points ∧
      (∀ (i : Nat) (p : SeriesPoint), out[i]? = some p →
        p.t = (trafficBucket range).start s.now + i * (trafficBucket range).bucket ∧
        ∀ v, p.count v =
          (seriesEvents log (trafficBucket range) s.now).countP (fun e =>
            p.t ≤ e.time ∧ e.time < p.t + (trafficBucket range).bucket ∧
            (receiptFrom e).verdict = v)) ∧
      (out.map SeriesPoint.total).sum = (seriesEvents log (trafficBucket range) s.now).length := by
  obtain ⟨out, hout, hlength, hpoints⟩ := @trafficSeries_points log om s range hcounts
  refine ⟨out, hout, hlength, hpoints, ?_⟩
  have haligned := trafficBucket_aligned range
  generalize trafficBucket range = tb at hlength hpoints haligned ⊢
  let index (e : Event) : Nat :=
    (e.time / tb.bucket - (s.now / tb.bucket - (tb.points - 1)) : Int).toNat
  have hindex : ∀ e ∈ seriesEvents log tb s.now, ∀ i : Nat, index e = i ↔
      tb.start s.now + i * tb.bucket ≤ e.time ∧
        e.time < tb.start s.now + i * tb.bucket + tb.bucket := by
    intro e he i
    obtain ⟨hstart, hstop⟩ := mem_seriesEvents haligned he
    obtain ⟨hpos, _⟩ := haligned.index_lt hstart hstop
    rw [← haligned.index_iff s.now i]
    show Int.toNat _ = i ↔ _
    omega
  have htotal : out.map SeriesPoint.total = (List.range tb.points).map (fun i => sumOf (fun _ => 1)
      ((seriesEvents log tb s.now).filter (fun e => decide (index e = i)))) := by
    refine List.ext_getElem (by rw [List.length_map, List.length_map, List.length_range, hlength])
      fun i hi _ => ?_
    rw [List.length_map] at hi
    obtain ⟨ht, hcount⟩ := hpoints i out[i] (List.getElem?_eq_getElem hi)
    simp only [← and_assoc] at hcount
    rw [List.getElem_map, List.getElem_map, List.getElem_range, total_eq hcount, sumOf_one,
      List.countP_eq_length_filter]
    refine congrArg List.length (List.filter_congr fun e he => ?_)
    rw [ht, decide_eq_decide]
    exact (hindex e he i).symm
  rw [htotal]
  refine (sumOf_filter_keys (seriesEvents log tb s.now) List.nodup_range).trans ?_
  have hevery : (seriesEvents log tb s.now).filter
    (fun e => decide (index e ∈ List.range tb.points)) =
      seriesEvents log tb s.now := by
    apply List.filter_eq_self.mpr
    intro e he
    obtain ⟨hstart, hstop⟩ := mem_seriesEvents haligned he
    obtain ⟨hpos, hlt⟩ := haligned.index_lt hstart hstop
    rw [decide_eq_true_eq, List.mem_range]
    show Int.toNat _ < _
    omega
  rw [hevery, sumOf_one]

end Series

section Example

/-- The rows of a meter that counts events by their window and some fields. -/
def windowRows (events : List Event) (w : Window) (names : List GoString) : List MeterRow :=
  (events.map (fun e => (w.start e.time, names.map e.field))).dedup.map (fun key =>
    { groupBy := GoMap.ofList (names.zip key.2)
      value := events.countP (fun e => (w.start e.time, names.map e.field) = key)
      windowStart := key.1 })

/-- OpenMeter with a log of events, which counts requests by windows. -/
def windowed (log : List Event) : (q : Request) → Answer q
  | .meter slug start stop (some w) names =>
    if slug = "llm_requests" then .ok (windowRows (requestsIn log start stop) w names) else .ok []
  | q => openMeter log q

/-- A log counted window by window answers as the request meter does. -/
theorem windowed_counts (log : List Event) : CountsWindows log (windowed log) := by
  intro start stop w names
  have hanswer : windowed log (.meter (lit "llm_requests") start stop (some w) names) =
      .ok (windowRows (requestsIn log start stop) w names) := by
    rw [windowed, if_pos rfl]
  refine ⟨_, hanswer, groups_dedup _ _ fun key hkey => ⟨?_, rfl⟩⟩
  obtain ⟨e, _, rfl⟩ := List.mem_map.mp (List.mem_dedup.mp hkey)
  exact Prod.ext rfl (fields_zip names e.field)

/-- A server at a time, with prices in whole units. -/
def serverAt (now : Int) : Server := { plainServer with now := now }

/-- A request that was refused for its rate. -/
def throttled (id : GoString) (time : Nat) : Event :=
  { served id time with data := GoMap.ofList [("team", .text "research"),
    ("response_code", .text "429")] }

/-- A request before the chart's span, one in its last bucket but one, and two in its last. -/
def hourLog : List Event :=
  [served "r-1" 5000, served "r-2" 3599000, served "r-3" 3661000, throttled "r-4" 3661500]

/-- The chart of the last hour has the request before one o'clock in its last bucket but one and
the two after in its last, and leaves out the one from before its span. -/
theorem hour_series_counts : ∃ out,
    answer (windowed hourLog) (trafficSeries (serverAt 3723000) "1h") = .ok out ∧ out.length = 12 ∧
      (∀ p, out[10]? = some p → p.count .allowed = 1) ∧
      (∀ p, out[11]? = some p → p.count .allowed = 1 ∧ p.count .throttled = 1) ∧
      (out.map SeriesPoint.total).sum = 3 := by
  obtain ⟨out, hout, hlength, hpoints, htotal⟩ :=
    trafficSeries_counts (serverAt 3723000) (windowed hourLog) hourLog "1h" (windowed_counts _)
  refine ⟨out, hout, hlength, fun p hp => ?_, fun p hp => ?_, htotal⟩
  · obtain ⟨ht, hcount⟩ := hpoints 10 p hp
    have hstart : p.t = 3300000 := ht
    rw [hcount, hstart]
    decide +kernel
  · obtain ⟨ht, hcount⟩ := hpoints 11 p hp
    have hstart : p.t = 3600000 := ht
    rw [hcount, hcount, hstart]
    decide +kernel

end Example

end openmeter
