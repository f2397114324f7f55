import ServingPack.Console.Drill
import ServingPack.Console.TrafficSeries

open golang concurrency

namespace openmeter

/-- An API key as the Keys page shows it. -/
structure APIKey where
  id : GoString
  name : GoString
  keyPrefix : GoString
  team : GoString
  /-- The project's name, which receipts carry. -/
  project : GoString
  projectID : GoString
  lastUsedAt : Option Int := none
  requests24h : Nat := 0
  spend24hUSD : Rat := 0
  unpriced24h : Nat := 0
  /-- Requests per hour, oldest first. -/
  hourly24h : List Nat := List.replicate 24 0
  /-- The person whose requests the key carries. -/
  owner : GoString

section Keys

/-- The key of a cell, without its usage. -/
def APIKey.of (c : Cell) : APIKey where
  id := c.key
  name := c.key
  keyPrefix := c.key
  team := c.team
  project := c.resource
  projectID := openmeter.projectID c.team c.resource
  owner := c.user

def APIKey.used (ms : Int) (k : APIKey) : APIKey :=
  match k.lastUsedAt with
  | none => { k with lastUsedAt := some ms }
  | some last => if last < ms then { k with lastUsedAt := some ms } else k

/-- A key with a cell of the month. -/
def APIKey.addMonth (c : Cell) (k : APIKey) : APIKey := if 0 < c.requests then k.used c.start else k

/-- A key with the requests and the cost of a cell of the last day. -/
def APIKey.addUsage (s : Server) (dayStart : Int) (c : Cell) (k : APIKey) : APIKey :=
  let i := (c.start - dayStart).tdiv Window.hour.size
  { k with
    requests24h := k.requests24h + c.requests
    spend24hUSD := s.roundUSD (k.spend24hUSD + c.usd)
    unpriced24h := k.unpriced24h + if c.unpriced then c.requests else 0
    hourly24h := if 0 ≤ i ∧ i < 24 then k.hourly24h.modify i.toNat (· + c.requests)
      else k.hourly24h }

/-- A key with a cell of the last day. -/
def APIKey.addDay (s : Server) (dayStart : Int) (c : Cell) (k : APIKey) : APIKey :=
  if 0 < c.requests then (k.addUsage s dayStart c).used c.start else k.addUsage s dayStart c

/-- A cell of an API key: neither without one nor of a Keycloak login. -/
def Cell.ofKey (c : Cell) : Bool := decide (c.key ≠ []) && decide (c.key ≠ loginKey)

/-- The start of the first of the last 24 hours. -/
def dayStart (now : Int) : Int := now / Window.hour.size * Window.hour.size - 23 * Window.hour.size

/-- The keys of the cells of a month and of its last day, busiest first. -/
def keyRows (s : Server) (month day : List Cell) : List APIKey :=
  let rows := (month.filter Cell.ofKey).foldl
    (fun rows c => upsert APIKey.id (APIKey.of c) (APIKey.addMonth c) rows) []
  let rows := (day.filter Cell.ofKey).foldl
    (fun rows c => upsert APIKey.id (APIKey.of c) (APIKey.addDay s (dayStart s.now) c) rows) rows
  rows.mergeSort (fun a b => b.requests24h < a.requests24h ∨ a.requests24h = b.requests24h ∧
    golang.le a.id b.id)

/-- The API keys used in the last 30 days, with their last 24 hours. -/
def keys (s : Server) : Call (List APIKey) := do
  let month ← usage (s.now - catalogSpan) s.now (some .day)
  let day ← usage (dayStart s.now) s.now (some .hour)
  pure (keyRows s month day)

end Keys

section Windows

/-- No zero byte comes in the fields that usage is grouped by. -/
def NulFree (log : List Event) : Prop := ∀ e ∈ log, ∀ d ∈ dims, (0 : UInt8) ∉ str (e.data.lookup d)

private theorem append_nul_inj {a b r r' : GoString} (ha : (0 : UInt8) ∉ a) (hb : (0 : UInt8) ∉ b)
    (hr : ∀ c ∈ r.head?, c = 0) (hr' : ∀ c ∈ r'.head?, c = 0) (h : a ++ r = b ++ r') :
    a = b ∧ r = r' := by
  have hcut {s t : GoString} (hs : (0 : UInt8) ∉ s) (ht : ∀ c ∈ t.head?, c = 0) :
      (s ++ t).takeWhile (fun c => decide (c ≠ 0)) = s := by
    rw [List.takeWhile_append_of_pos fun c hc => decide_eq_true (ne_of_mem_of_not_mem hc hs)]
    cases t with
    | nil => rw [List.takeWhile_nil, List.append_nil]
    | cons c rest =>
      obtain rfl := ht c rfl
      rw [List.takeWhile_cons_of_neg (by decide), List.append_nil]
  have hab : a = b := by rw [← hcut ha hr, h, hcut hb hr']
  subst hab
  exact ⟨rfl, List.append_cancel_left h⟩

/-- As many dimensions without a zero byte are joined to one text only where they are the same. -/
theorem joined_inj {f g : GoString → GoString} {ds : List GoString}
    (hf : ∀ d ∈ ds, (0 : UInt8) ∉ f d)
    (hg : ∀ d ∈ ds, (0 : UInt8) ∉ g d) (h : joined (ds.map f) = joined (ds.map g)) :
    ds.map f = ds.map g := by
  have hhead (values : List GoString) : ∀ c ∈ (joined values).head?, c = 0 := by
    cases values with
    | nil => exact fun c hc => by cases hc
    | cons v rest => exact fun c hc => (Option.some.inj hc).symm
  induction ds with
  | nil => rfl
  | cons d rest ih =>
    simp only [List.map_cons, joined, List.flatMap_cons, List.cons_append] at h
    obtain ⟨hfd, hfrest⟩ := List.forall_mem_cons.mp hf
    obtain ⟨hgd, hgrest⟩ := List.forall_mem_cons.mp hg
    obtain ⟨heq, hrest⟩ :=
      append_nul_inj hfd hgd (hhead (rest.map f)) (hhead (rest.map g)) (List.cons.inj h).2
    rw [List.map_cons, List.map_cons, heq, ih hfrest hgrest hrest]

/-- Events without zero bytes in their fields are kept apart, whatever is asked of them. -/
theorem NulFree.keptApart {α : Type} {log : List Event} (hnul : NulFree log)
    (f : List GoString → α) : KeptApart log f :=
  fun e he e' he' hjoined => congrArg f (joined_inj (hnul e he) (hnul e' he') hjoined)

variable {start stop : Int} {w : Window} {cells : List Cell} {log : List Event}
  {om : (q : Request) → Answer q} (p : Int → List GoString → Bool)

/-- The cells count the request events by their window and their dimensions. -/
theorem usage_windows (hcounts : CountsWindows log om) (hcosts : CostsOf log om)
    (hnul : NulFree log)
    (h : answer om (usage start stop (some w)) = .ok cells) : requestsOf p cells =
      (requestsIn log (start / 1000) (stop / 1000)).countP
      (fun e => p (w.start e.time) (dims.map e.text)) := by
  obtain ⟨rows, hrows, hrequests⟩ := usage_rows (p := p) hcosts (hnul.keptApart _) h
  obtain ⟨rows', hrows', hgroups⟩ := hcounts (start / 1000) (stop / 1000) w dims
  obtain rfl : rows' = rows := Except.ok.inj (hrows'.symm.trans hrows)
  have hof : ∀ r ∈ rows', FieldsOf log r.field := by
    intro r hr
    obtain ⟨e, he, hkey⟩ := List.mem_map.mp (hgroups.used r hr)
    exact fieldsOf_event (List.mem_of_mem_filter he)
      fun d hd => (List.map_inj_left.mp (Prod.mk.inj hkey).2 d hd).symm
  have hsum := hgroups.sumOf_filter (fun key => p key.1 (key.2.map (fun v => v.getD [])))
  simp only [List.map_map, sumOf_one] at hsum
  refine (hrequests hof).trans (Eq.trans ?_ (hsum.trans ?_))
  · rfl
  · rw [List.countP_eq_length_filter]
    refine congrArg List.length
      (List.filter_congr fun e _ => congrArg (p _) (List.map_congr_left fun d _ => ?_))
    exact field_str e d

end Windows

section Rows

variable {s : Server} {seen : List (Bool × Cell)} {b : Bool × Cell} {k : APIKey} {times : List Int}

/-- The latest of some times, or none where there are none. -/
def Latest (times : List Int) : Option Int → Prop
  | none => times = []
  | some t => t ∈ times ∧ ∀ t' ∈ times, t' ≤ t

private theorem latest_used {ms : Int} (h : Latest times k.lastUsedAt) :
    Latest (times ++ [ms]) (k.used ms).lastUsedAt := by
  rw [APIKey.used]
  cases hlast : k.lastUsedAt with
  | none =>
    rw [hlast] at h
    obtain rfl : times = [] := h
    exact ⟨List.mem_singleton_self ms, fun t ht => (List.mem_singleton.mp ht).le⟩
  | some last =>
    rw [hlast] at h
    obtain ⟨hmem, hle⟩ := h
    dsimp only
    split_ifs with hlt
    · refine ⟨List.mem_append_right _ (List.mem_singleton_self ms), fun t ht => ?_⟩
      obtain ht | ht := List.mem_append.mp ht
      · exact (hle t ht).trans hlt.le
      · exact (List.mem_singleton.mp ht).le
    · rw [hlast]
      refine ⟨List.mem_append_left _ hmem, fun t ht => ?_⟩
      obtain ht | ht := List.mem_append.mp ht
      · exact hle t ht
      · rw [List.mem_singleton.mp ht]
        exact not_lt.mp hlt

/-- Its last use apart, a key is as it was. -/
theorem used_fields (ms : Int) (k : APIKey) :
    (k.used ms).id = k.id ∧ (k.used ms).requests24h = k.requests24h ∧
    (k.used ms).hourly24h = k.hourly24h := by
  rw [APIKey.used]
  split
  · exact ⟨rfl, rfl, rfl⟩
  · split_ifs
    · exact ⟨rfl, rfl, rfl⟩
    · exact ⟨rfl, rfl, rfl⟩

private theorem used_congr {k' : APIKey} (ms : Int) (h : k'.lastUsedAt = k.lastUsedAt) :
    (k'.used ms).lastUsedAt = (k.used ms).lastUsedAt := by
  rw [APIKey.used, APIKey.used, h]
  split
  · rfl
  · split_ifs
    · rfl
    · exact h

/-- What adds a cell to a key: a cell of the month, or one of the last day. -/
def addSeen (s : Server) : Bool × Cell → APIKey → APIKey
  | (false, c) => APIKey.addMonth c
  | (true, c) => APIKey.addDay s (dayStart s.now) c

/-- The hour of a cell, from the first of the last 24. -/
def hourIndex (s : Server) (c : Cell) : Int := (c.start - dayStart s.now).tdiv Window.hour.size

/-- The requests of the last day's cells of a key that pass a test. -/
def dayRequests (seen : List (Bool × Cell)) (id : GoString) (p : Cell → Bool) : Nat :=
  sumOf (fun b => b.2.requests) (seen.filter (fun b => b.1 && (decide (b.2.key = id) && p b.2)))

/-- When the cells of a key that have requests start. -/
def usedTimes (seen : List (Bool × Cell)) (id : GoString) : List Int :=
  (seen.filter (fun b => decide (b.2.key = id) && decide (0 < b.2.requests))).map
    (fun b => b.2.start)

/-- A key holds what the cells that were met say of it. -/
structure RowOf (s : Server) (seen : List (Bool × Cell)) (k : APIKey) : Prop where
  requests : k.requests24h = dayRequests seen k.id (fun _ => true)
  length : k.hourly24h.length = 24
  hourly : ∀ i : Nat, i < 24 →
    k.hourly24h[i]? = some (dayRequests seen k.id (fun c => decide (hourIndex s c = i)))
  used : Latest (usedTimes seen k.id) k.lastUsedAt

private theorem dayRequests_append (seen : List (Bool × Cell)) (b : Bool × Cell) (id : GoString)
    (p : Cell → Bool) :
    dayRequests (seen ++ [b]) id p =
      dayRequests seen id p + if (b.1 && (decide (b.2.key = id) && p b.2)) = true then b.2.requests
        else 0 := by
  rw [dayRequests, List.filter_append, sumOf_append, ← dayRequests, List.filter_cons,
    List.filter_nil]
  split_ifs
  · rw [sumOf_cons, sumOf_nil, Nat.add_zero]
  · rw [sumOf_nil]

private theorem usedTimes_append (seen : List (Bool × Cell)) (b : Bool × Cell) (id : GoString) :
    usedTimes (seen ++ [b]) id = usedTimes seen id ++
      if (decide (b.2.key = id) && decide (0 < b.2.requests)) = true then [b.2.start] else [] := by
  rw [usedTimes, List.filter_append, List.map_append, ← usedTimes, List.filter_cons,
    List.filter_nil]
  split_ifs
  · rw [List.map_singleton]
  · rw [List.map_nil]

private theorem addSeen_id (b : Bool × Cell) (k : APIKey) : (addSeen s b k).id = k.id := by
  obtain ⟨isDay, c⟩ := b
  cases isDay with
  | false =>
    rw [addSeen, APIKey.addMonth]
    split_ifs
    · exact (used_fields _ k).1
    · rfl
  | true =>
    rw [addSeen, APIKey.addDay]
    split_ifs
    · exact (used_fields _ _).1
    · rfl

/-- A key's last use is what its cells with requests make it. -/
theorem addSeen_used (b : Bool × Cell) (k : APIKey) :
    (addSeen s b k).lastUsedAt = if 0 < b.2.requests then
    (k.used b.2.start).lastUsedAt else k.lastUsedAt := by
  obtain ⟨isDay, c⟩ := b
  cases isDay with
  | false => rw [addSeen, APIKey.addMonth, apply_ite APIKey.lastUsedAt]
  | true =>
    rw [addSeen, APIKey.addDay, apply_ite APIKey.lastUsedAt]
    split_ifs
    · exact used_congr _ rfl
    · rfl

/-- A cell of the month adds no requests; one of the last day adds to its hour. -/
theorem addSeen_requests (b : Bool × Cell) (k : APIKey) :
    (addSeen s b k).requests24h = k.requests24h + (if b.1 = true then b.2.requests else 0) ∧
      (addSeen s b k).hourly24h = if b.1 = true ∧ 0 ≤ hourIndex s b.2 ∧ hourIndex s b.2 < 24 then
        k.hourly24h.modify (hourIndex s b.2).toNat (· + b.2.requests) else k.hourly24h := by
  obtain ⟨isDay, c⟩ := b
  cases isDay with
  | false =>
    have hsame : (addSeen s (false, c) k).requests24h = k.requests24h ∧
        (addSeen s (false, c) k).hourly24h = k.hourly24h := by
      rw [addSeen, APIKey.addMonth]
      split_ifs
      · exact (used_fields _ k).2
      · exact ⟨rfl, rfl⟩
    rw [hsame.1, hsame.2]
    exact ⟨rfl, by simp⟩
  | true =>
    have hsame : ∀ k' : APIKey, (if 0 < c.requests then k'.used c.start else k').requests24h =
      k'.requests24h ∧
        (if 0 < c.requests then k'.used c.start else k').hourly24h = k'.hourly24h := by
      intro k'
      split_ifs
      · exact (used_fields _ k').2
      · exact ⟨rfl, rfl⟩
    rw [addSeen, APIKey.addDay]
    refine ⟨(hsame _).1.trans ?_, (hsame _).2.trans ?_⟩
    · rw [if_pos rfl]
      rfl
    · simp only [true_and]
      rfl

private theorem RowOf.add (h : RowOf s seen k) (hid : k.id = b.2.key) :
    RowOf s (seen ++ [b]) (addSeen s b k) := by
  obtain ⟨hrequests, hhourly⟩ := @addSeen_requests s b k
  have hkey : decide (b.2.key = k.id) = true := decide_eq_true hid.symm
  refine ⟨?_, ?_, fun i hi => ?_, ?_⟩
  · rw [addSeen_id, dayRequests_append, hkey, hrequests, h.requests]
    simp only [Bool.and_true]
  · rw [hhourly]
    split_ifs
    · rw [List.length_modify, h.length]
    · exact h.length
  · rw [addSeen_id, dayRequests_append, hkey, hhourly]
    simp only [Bool.true_and, Bool.and_eq_true, decide_eq_true_eq]
    have hbefore := h.hourly i hi
    by_cases hday : b.1 = true
    · by_cases hindex : hourIndex s b.2 = i
      · have hnat : (hourIndex s b.2).toNat = i := by omega
        rw [if_pos ⟨hday, by omega, by omega⟩, if_pos ⟨hday, hindex⟩, List.getElem?_modify, hbefore,
          hnat]
        simp
      · have hother : ¬(b.1 = true ∧ hourIndex s b.2 = i) := fun h => hindex h.2
        rw [if_neg hother, Nat.add_zero]
        split_ifs with hrange
        · have hnat : ¬(hourIndex s b.2).toNat = i := by omega
          rw [List.getElem?_modify, hbefore]
          simp [hnat]
        · exact hbefore
    · rw [if_neg (fun h => hday h.1), if_neg (fun h => hday h.1), Nat.add_zero]
      exact hbefore
  · rw [addSeen_id, usedTimes_append, addSeen_used, hkey]
    simp only [Bool.true_and, decide_eq_true_eq]
    split_ifs
    · exact latest_used h.used
    · rw [List.append_nil]
      exact h.used

private theorem RowOf.other (h : RowOf s seen k) (hid : k.id ≠ b.2.key) :
    RowOf s (seen ++ [b]) k := by
  have hkey : decide (b.2.key = k.id) = false := decide_eq_false (fun heq => hid heq.symm)
  have hsame : ∀ p, dayRequests (seen ++ [b]) k.id p = dayRequests seen k.id p := by
    intro p
    rw [dayRequests_append, hkey]
    simp
  refine ⟨?_, h.length, fun i hi => ?_, ?_⟩
  · rw [hsame]
    exact h.requests
  · rw [hsame]
    exact h.hourly i hi
  · rw [usedTimes_append, hkey]
    simp only [Bool.false_and, Bool.false_eq_true, if_false, List.append_nil]
    exact h.used

/-- A key that was not met has no usage yet. -/
theorem rowOf_new {c : Cell} (hnew : ∀ b ∈ seen, b.2.key ≠ c.key) : RowOf s seen (APIKey.of c) := by
  have hnone : ∀ p, dayRequests seen (APIKey.of c).id p = 0 := by
    intro p
    have hempty : seen.filter (fun b => b.1 && (decide (b.2.key = (APIKey.of c).id) && p b.2)) =
        [] := by
      rw [List.filter_eq_nil_iff]
      intro b hb
      have hne : ¬b.2.key = (APIKey.of c).id := hnew b hb
      simp [hne]
    rw [dayRequests, hempty, sumOf_nil]
  refine ⟨(hnone _).symm, List.length_replicate, fun i hi => ?_, ?_⟩
  · rw [hnone]
    exact List.getElem?_replicate_of_lt hi
  · have hempty : usedTimes seen (APIKey.of c).id = [] := by
      rw [usedTimes, List.map_eq_nil_iff, List.filter_eq_nil_iff]
      intro b hb
      have hne : ¬b.2.key = (APIKey.of c).id := hnew b hb
      simp [hne]
    exact hempty

/-- The cells that the keys are made from. -/
def seenCells (month day : List Cell) : List (Bool × Cell) :=
  (month.filter Cell.ofKey).map (fun c => (false, c)) ++
    (day.filter Cell.ofKey).map (fun c => (true, c))

/-- The busiest keys come first. -/
theorem pairwise_busiest (rows : List APIKey) : (rows.mergeSort (fun a b =>
    b.requests24h < a.requests24h ∨ a.requests24h = b.requests24h ∧ golang.le a.id b.id)).Pairwise
      (fun a b => b.requests24h ≤ a.requests24h) := by
  refine (List.pairwise_mergeSort ?_ ?_ _).imp ?_
  · intro a b c hab hbc
    simp only [decide_eq_true_eq] at hab hbc ⊢
    obtain hab | ⟨hab, hle⟩ := hab
    · exact .inl (by omega)
    · obtain hbc | ⟨hbc, hle'⟩ := hbc
      · exact .inl (by omega)
      · exact .inr ⟨by omega, IsTrans.trans _ _ _ hle hle'⟩
  · intro a b
    simp only [Bool.or_eq_true, decide_eq_true_eq]
    obtain hlt | heq | hlt := lt_trichotomy a.requests24h b.requests24h
    · exact .inr (.inl hlt)
    · obtain hle | hle := Std.Total.total (r := golang.le) a.id b.id
      · exact .inl (.inr ⟨heq, hle⟩)
      · exact .inr (.inr ⟨heq.symm, hle⟩)
    · exact .inl (.inl hlt)
  · intro a b hab
    rw [decide_eq_true_eq] at hab
    obtain hlt | ⟨heq, -⟩ := hab
    · exact hlt.le
    · exact heq.ge

/-- There is one key for each that a cell has, and each holds what its cells say. -/
theorem keyRows_spec (s : Server) (month day : List Cell) :
    ((keyRows s month day).map APIKey.id).Nodup ∧
      (keyRows s month day).Pairwise (fun a b => b.requests24h ≤ a.requests24h) ∧
      (∀ k ∈ keyRows s month day, RowOf s (seenCells month day) k ∧
        ∃ b ∈ seenCells month day, b.2.key = k.id) ∧
      ∀ b ∈ seenCells month day, b.2.key ∈ (keyRows s month day).map APIKey.id := by
  have hfold : (day.filter Cell.ofKey).foldl
      (fun rows c => upsert APIKey.id (APIKey.of c) (APIKey.addDay s (dayStart s.now) c) rows)
      ((month.filter Cell.ofKey).foldl
        (fun rows c => upsert APIKey.id (APIKey.of c) (APIKey.addMonth c) rows) []) =
      (seenCells month day).foldl
        (fun rows b => upsert APIKey.id (APIKey.of b.2) (addSeen s b) rows) [] := by
    rw [seenCells, List.foldl_append, List.foldl_map, List.foldl_map]
    rfl
  have hadd : ∀ (seen : List (Bool × Cell)) (b : Bool × Cell) (k : APIKey), k.id = b.2.key →
    RowOf s seen k →
      RowOf s (seen ++ [b]) (addSeen s b k) ∧
        ∃ b' ∈ seen ++ [b], b'.2.key = (addSeen s b k).id := by
    intro seen b k hid hk
    refine ⟨hk.add hid, b, List.mem_append_right _ (List.mem_singleton_self b), ?_⟩
    rw [addSeen_id]
    exact hid.symm
  have hother : ∀ (seen : List (Bool × Cell)) (b : Bool × Cell) (k : APIKey), k.id ≠ b.2.key →
      (RowOf s seen k ∧ ∃ b' ∈ seen, b'.2.key = k.id) → RowOf s (seen ++ [b]) k ∧
        ∃ b' ∈ seen ++ [b], b'.2.key = k.id := by
    intro seen b k hid hk
    obtain ⟨hrow, b', hb', hkey⟩ := hk
    exact ⟨hrow.other hid, b', List.mem_append_left _ hb', hkey⟩
  have hrule := @foldl_upsert_rule _ _ _ APIKey.id [] _ (fun (b : Bool × Cell) => APIKey.of b.2)
    (addSeen s)
    (fun seen k => RowOf s seen k ∧ ∃ b ∈ seen, b.2.key = k.id) (fun b k => addSeen_id b k)
    (fun seen b hnew => hadd seen b (APIKey.of b.2) rfl (rowOf_new hnew))
      (fun seen b k hid hk => hadd seen b k hid hk.1)
    hother (seenCells month day) [] List.nodup_nil (fun _ hk => absurd hk List.not_mem_nil)
    (fun _ hb => absurd hb List.not_mem_nil)
  obtain ⟨hnodup, hrows, hcover⟩ := hrule
  rw [List.nil_append] at hrows hcover
  rw [← hfold] at hnodup hrows hcover
  rw [keyRows]
  refine ⟨?_, ?_, fun k hk => hrows k (List.mem_mergeSort.mp hk), fun b hb => ?_⟩
  · exact ((List.mergeSort_perm _ _).map APIKey.id).nodup_iff.mpr hnodup
  · exact pairwise_busiest _
  · exact ((List.mergeSort_perm _ _).map APIKey.id).mem_iff.mpr (hcover b hb)

end Rows

section Exact

variable {s : Server} {om : (q : Request) → Answer q} {log : List Event} {start stop t : Int}
  {w : Window} {cells month day : List Cell} {id : GoString} {times : List Int} {last : Option Int}

/-- The request events of the last 24 hours, of which the last is the running one. -/
def lastDay (log : List Event) (now : Int) : List Event :=
  requestsIn log (dayStart now / 1000) (now / 1000)

/-- The request events of the last 30 days. -/
def lastMonth (log : List Event) (now : Int) : List Event :=
  requestsIn log ((now - catalogSpan) / 1000) (now / 1000)

/-- The requests that were made with an API key. -/
def withKey (events : List Event) (id : GoString) : List Event :=
  events.filter (fun e => decide (e.text "api_key" = id))

/-- When a key was last used: the start of the hour of its last request, or of the day
of it where there was none in the last 24 hours. -/
structure LastUsed (today thisMonth : List Event) (last : Option Int) : Prop where
  inDay : ∀ e ∈ today, (∀ e' ∈ today, e'.time ≤ e.time) → last = some (Window.hour.start e.time)
  inMonth : today = [] → ∀ e ∈ thisMonth, (∀ e' ∈ thisMonth, e'.time ≤ e.time) →
    last = some (Window.day.start e.time)
  never : today = [] → thisMonth = [] → last = none

/-- Whether dimensions are of a key. -/
def keyIs (id : GoString) (values : List GoString) : Bool := decide (values[2]? = some id)

private theorem keyIs_cell (c : Cell) : keyIs id (dims.map c.dim) = decide (c.key = id) := by
  have hkey : (dims.map c.dim)[2]? = some c.key := rfl
  simp only [keyIs, hkey, Option.some.injEq]

private theorem keyIs_event (e : Event) :
    keyIs id (dims.map e.text) = decide (e.text "api_key" = id) := by
  have hkey : (dims.map e.text)[2]? = some (e.text "api_key") := rfl
  simp only [keyIs, hkey, Option.some.injEq]

private theorem sumOf_pos_iff {α : Type} {weight : α → Nat} {items : List α} :
    0 < sumOf weight items ↔ ∃ a ∈ items, 0 < weight a := by
  induction items with
  | nil => simp
  | cons a rest ih =>
    rw [sumOf_cons, Nat.add_pos_iff_pos_or_pos, ih]
    simp only [List.mem_cons, exists_eq_or_imp]

/-- A key's cells with requests are where its request events are. -/
theorem cell_iff_event (hcounts : CountsWindows log om) (hcosts : CostsOf log om)
    (hnul : NulFree log) (h : answer om (usage start stop (some w)) = .ok cells) :
    (∃ c ∈ cells, c.key = id ∧ 0 < c.requests ∧ c.start = t) ↔
      ∃ e ∈ withKey (requestsIn log (start / 1000) (stop / 1000)) id, w.start e.time = t := by
  have hwindows := usage_windows
    (fun st values => keyIs id values && decide (st = t)) hcounts hcosts hnul h
  have hpos := congrArg (0 < ·) hwindows
  simp only [requestsOf, sumOf_pos_iff, List.countP_pos_iff, keyIs_cell, keyIs_event,
    Bool.and_eq_true, decide_eq_true_eq, List.mem_filter, eq_iff_iff] at hpos
  constructor
  · intro hcell
    obtain ⟨c, hc, hkey, hrequests, hstart⟩ := hcell
    obtain ⟨e, he, hkey, htime⟩ := hpos.mp ⟨c, ⟨hc, hkey, hstart⟩, hrequests⟩
    exact ⟨e, List.mem_filter.mpr ⟨he, decide_eq_true hkey⟩, htime⟩
  · intro hevent
    obtain ⟨e, he, htime⟩ := hevent
    obtain ⟨he, hkey⟩ := List.mem_filter.mp he
    obtain ⟨c, ⟨hc, hkey, hstart⟩, hrequests⟩ := hpos.mpr ⟨e, he, of_decide_eq_true hkey, htime⟩
    exact ⟨c, hc, hkey, hrequests, hstart⟩

private theorem ofKey_iff {c : Cell} : c.ofKey = true ↔ c.key ≠ [] ∧ c.key ≠ loginKey := by
  rw [Cell.ofKey, Bool.and_eq_true, decide_eq_true_eq, decide_eq_true_eq]

private theorem mem_seenCells {b : Bool × Cell} :
    b ∈ seenCells month day ↔
    b.2.ofKey = true ∧ (b.1 = false ∧ b.2 ∈ month ∨ b.1 = true ∧ b.2 ∈ day) := by
  obtain ⟨isDay, c⟩ := b
  cases isDay with
  | false => simp [seenCells, and_comm]
  | true => simp [seenCells, and_comm]

/-- The requests of a key in the last day are those of its cells of that day. -/
theorem dayRequests_seen (hid : id ≠ [] ∧ id ≠ loginKey) (p : Int → Bool) :
    dayRequests (seenCells month day) id (fun c => p c.start) =
      requestsOf (fun st values => keyIs id values && p st) day := by
  have hmonth : ((month.filter Cell.ofKey).map (fun c => (false, c))).filter
      (fun b => b.1 && (decide (b.2.key = id) && p b.2.start)) = [] := by
    rw [List.filter_eq_nil_iff]
    intro b hb
    obtain ⟨c, -, rfl⟩ := List.mem_map.mp hb
    simp
  rw [dayRequests, seenCells, List.filter_append, hmonth, List.nil_append, List.filter_map,
    requestsOf, sumOf, sumOf, List.map_map, List.filter_filter]
  refine congrArg (fun l => (List.map Cell.requests l).sum) (List.filter_congr fun c _ => ?_)
  rw [keyIs_cell]
  by_cases hkey : c.key = id
  · have hof : c.ofKey = true := ofKey_iff.mpr (by rw [hkey]; exact hid)
    simp [hof, hkey]
  · simp [hkey]

private theorem mem_usedTimes (hid : id ≠ [] ∧ id ≠ loginKey) :
    t ∈ usedTimes (seenCells month day) id ↔
    (∃ c ∈ month, c.key = id ∧ 0 < c.requests ∧ c.start = t) ∨ ∃ c ∈ day, c.key = id ∧
    0 < c.requests ∧ c.start = t := by
  rw [usedTimes, List.mem_map]
  simp only [List.mem_filter, mem_seenCells, Bool.and_eq_true, decide_eq_true_eq]
  constructor
  · rintro ⟨⟨isDay, c⟩, ⟨⟨-, ⟨-, hc⟩ | ⟨-, hc⟩⟩, hkey, hrequests⟩, hstart⟩
    · exact .inl ⟨c, hc, hkey, hrequests, hstart⟩
    · exact .inr ⟨c, hc, hkey, hrequests, hstart⟩
  · have hof : ∀ c : Cell, c.key = id → c.ofKey = true :=
      fun c hkey => ofKey_iff.mpr (by rw [hkey]; exact hid)
    rintro (⟨c, hc, hkey, hrequests, hstart⟩ | ⟨c, hc, hkey, hrequests, hstart⟩)
    · exact ⟨(false, c), ⟨⟨hof c hkey, .inl ⟨rfl, hc⟩⟩, hkey, hrequests⟩, hstart⟩
    · exact ⟨(true, c), ⟨⟨hof c hkey, .inr ⟨rfl, hc⟩⟩, hkey, hrequests⟩, hstart⟩

private theorem latest_eq (h : Latest times last) (ht : t ∈ times) (hmax : ∀ t' ∈ times, t' ≤ t) :
    last = some t := by
  cases last with
  | none =>
    have hempty : times = [] := h
    rw [hempty] at ht
    cases ht
  | some t' =>
    obtain ⟨hmem, hle⟩ := h
    rw [le_antisymm (hmax t' hmem) (hle t ht)]

/-- Windows start no later than what they hold, and days no later than hours. -/
theorem window_start_le (t : Int) :
    Window.day.start t ≤ Window.hour.start t ∧ Window.hour.start t ≤ t := by
  simp only [Window.start, Window.size]
  omega

private theorem window_start_mono (w : Window) {t t' : Int} (h : t ≤ t') : w.start t ≤ w.start t' :=
  Int.mul_le_mul_of_nonneg_right (Int.ediv_le_ediv w.size_pos h) w.size_pos.le

private theorem lastUsed_of_latest {today thisMonth : List Event} (dayStart : Int)
    (h : Latest times last)
    (htimes : ∀ t, t ∈ times ↔ (∃ e ∈ thisMonth, Window.day.start e.time = t) ∨
      ∃ e ∈ today, Window.hour.start e.time = t)
    (hmonth : ∀ e ∈ thisMonth, e ∈ today ∨ e.time < dayStart)
    (hday : ∀ e ∈ today, dayStart ≤ Window.hour.start e.time) :
    LastUsed today thisMonth last where
  inDay := by
    intro e he hlast
    apply latest_eq h ((htimes _).mpr (.inr ⟨e, he, rfl⟩))
    intro t ht
    obtain ⟨e', he', rfl⟩ | ⟨e', he', rfl⟩ := (htimes t).mp ht
    · obtain hin | hbefore := hmonth e' he'
      · have hle : (e'.time : Int) ≤ e.time := by exact_mod_cast hlast e' hin
        exact (window_start_le _).1.trans (window_start_mono _ hle)
      · have hsince := hday e he
        have hle := window_start_le (e'.time : Int)
        omega
    · exact window_start_mono _ (by exact_mod_cast hlast e' he')
  inMonth := by
    intro hempty e he hlast
    apply latest_eq h ((htimes _).mpr (.inl ⟨e, he, rfl⟩))
    intro t ht
    obtain ⟨e', he', rfl⟩ | ⟨e', he', -⟩ := (htimes t).mp ht
    · exact window_start_mono _ (by exact_mod_cast hlast e' he')
    · rw [hempty] at he'
      cases he'
  never := by
    intro hempty hnone
    cases last with
    | none => rfl
    | some t =>
      obtain ⟨e, he, -⟩ | ⟨e, he, -⟩ := (htimes t).mp h.1
      · rw [hnone] at he
        cases he
      · rw [hempty] at he
        cases he

/-- The last 24 hours as a chart's buckets. -/
def hourChart : TrafficBucket := { bucket := Window.hour.size, points := 24 }

private theorem hourChart_aligned : hourChart.Aligned := ⟨by decide, 1, by decide, by decide⟩

private theorem hourChart_start (now : Int) : hourChart.start now = dayStart now := rfl

private theorem hourChart_window : hourChart.window = .hour := by decide

private theorem mem_lastDay {now : Int} {e : Event} (he : e ∈ lastDay log now) :
    dayStart now ≤ e.time ∧ (e.time : Int) < now := by
  have hchart : e ∈ seriesEvents log hourChart now := he
  exact mem_seriesEvents hourChart_aligned hchart

/-- A request of the last month is one of the last day, or was before it. -/
theorem lastMonth_split {now : Int} {e : Event} (he : e ∈ lastMonth log now) :
    e ∈ lastDay log now ∨ e.time < dayStart now := by
  by_cases hbefore : e.time < dayStart now
  · exact .inr hbefore
  · left
    rw [lastMonth, requestsIn, List.mem_filter] at he
    rw [lastDay, requestsIn, List.mem_filter]
    refine ⟨he.1, ?_⟩
    have hpasses := he.2
    simp only [Bool.and_eq_true, decide_eq_true_eq] at hpasses ⊢
    exact ⟨⟨hpasses.1.1, by omega⟩, hpasses.2⟩

private theorem lastDay_sub {now : Int} {e : Event} (he : e ∈ lastDay log now) :
    e ∈ lastMonth log now := by
  obtain ⟨hstart, -⟩ := mem_lastDay he
  rw [lastDay, requestsIn, List.mem_filter] at he
  rw [lastMonth, requestsIn, List.mem_filter]
  refine ⟨he.1, ?_⟩
  have hpasses := he.2
  simp only [Bool.and_eq_true, decide_eq_true_eq] at hpasses ⊢
  refine ⟨⟨hpasses.1.1, ?_⟩, hpasses.2⟩
  simp only [dayStart, Window.size, catalogSpan] at hstart ⊢
  omega

/-- What a row of the Keys page says of the events. -/
structure Shown (log : List Event) (now : Int) (k : APIKey) : Prop where
  named : k.id ≠ [] ∧ k.id ≠ loginKey
  requests : k.requests24h = (withKey (lastDay log now) k.id).length
  hourly : k.hourly24h =
    (List.range 24).map (fun (i : Nat) => (withKey (lastDay log now) k.id).countP (fun e =>
    dayStart now + i * Window.hour.size ≤ e.time ∧
      e.time < dayStart now + i * Window.hour.size + Window.hour.size))
  used : LastUsed (withKey (lastDay log now) k.id) (withKey (lastMonth log now) k.id) k.lastUsedAt

private theorem shown_of_row {k : APIKey} (hcounts : CountsWindows log om) (hcosts : CostsOf log om)
    (hnul : NulFree log)
    (hmonth : answer om (usage (s.now - catalogSpan) s.now (some .day)) = .ok month)
    (hday : answer om (usage (dayStart s.now) s.now (some .hour)) = .ok day)
    (hrow : RowOf s (seenCells month day) k)
    (hnamed : k.id ≠ [] ∧ k.id ≠ loginKey) : Shown log s.now k := by
  -- The requests of the last day, whatever of their windows is asked.
  have hrequests : ∀ p : Int → Bool, dayRequests (seenCells month day) k.id (fun c => p c.start) =
      (withKey (lastDay log s.now) k.id).countP (fun e => p (Window.hour.start e.time)) := by
    intro p
    rw [dayRequests_seen hnamed, usage_windows _ hcounts hcosts hnul hday, withKey,
      List.countP_filter, lastDay]
    refine List.countP_congr fun e _ => ?_
    rw [keyIs_event, Bool.and_comm]
  refine ⟨hnamed, ?_, ?_, ?_⟩
  · have hall := hrequests (fun _ => true)
    rw [hrow.requests, hall]
    exact congrFun List.countP_true _
  · apply List.ext_getElem?
    intro i
    by_cases hi : i < 24
    · have hindex := hrequests (fun st => decide ((st - dayStart s.now).tdiv Window.hour.size = i))
      rw [hrow.hourly i hi, List.getElem?_map, List.getElem?_range hi, Option.map_some]
      refine congrArg some (hindex.trans ?_)
      refine List.countP_congr fun e he => ?_
      obtain ⟨hstart, -⟩ := mem_lastDay (List.mem_of_mem_filter he)
      have hbucket := hourChart_aligned.index hstart
      rw [hourChart_window, hourChart_start] at hbucket
      have hbucket' : (Window.hour.start e.time - dayStart s.now).tdiv Window.hour.size = _ :=
        hbucket
      have hrange := hourChart_aligned.index_iff s.now (t := e.time) i
      rw [hourChart_start] at hrange
      rw [decide_eq_true_eq, decide_eq_true_eq, hbucket']
      exact hrange
    · have hlength := hrow.length
      rw [List.getElem?_eq_none (by omega), List.getElem?_eq_none (by simp; omega)]
  · refine lastUsed_of_latest (dayStart s.now) hrow.used (fun t => ?_) (fun e he => ?_)
      (fun e he => ?_)
    · rw [mem_usedTimes hnamed, cell_iff_event hcounts hcosts hnul hmonth,
        cell_iff_event hcounts hcosts hnul hday]
      rfl
    · obtain ⟨he, hkey⟩ := List.mem_filter.mp he
      obtain hin | hbefore := lastMonth_split he
      · exact .inl (List.mem_filter.mpr ⟨hin, hkey⟩)
      · exact .inr hbefore
    · obtain ⟨hstart, -⟩ := mem_lastDay (List.mem_of_mem_filter he)
      simp only [dayStart, Window.start, Window.size] at hstart ⊢
      omega

/-- The Keys page has one row for each API key of the last 30 days' requests, busiest
first. A row counts the key's requests of the last 24 hours, in all and hour by hour,
and says when the key was last used; together the rows count every request that was
made with a key. -/
theorem keys_exact (s : Server) (om : (q : Request) → Answer q) (log : List Event)
    (out : List APIKey)
    (hcounts : CountsWindows log om) (hcosts : CostsOf log om) (hnul : NulFree log)
    (h : answer om (keys s) = .ok out) :
    (out.map APIKey.id).Nodup ∧ out.Pairwise (fun a b => b.requests24h ≤ a.requests24h) ∧
      (∀ e ∈ lastMonth log s.now, e.text "api_key" ≠ [] → e.text "api_key" ≠ loginKey →
        e.text "api_key" ∈ out.map APIKey.id) ∧
      (∀ k ∈ out, Shown log s.now k) ∧
      sumOf APIKey.requests24h out = (lastDay log s.now).countP (fun e =>
        e.text "api_key" ≠ [] ∧ e.text "api_key" ≠ loginKey) := by
  obtain ⟨month, hmonth, h⟩ := answer_bind_ok h
  obtain ⟨day, hday, h⟩ := answer_bind_ok h
  obtain rfl := Except.ok.inj h
  obtain ⟨hnodup, hsorted, hrows, hcover⟩ := keyRows_spec s month day
  have hshown : ∀ k ∈ keyRows s month day, Shown log s.now k := by
    intro k hk
    obtain ⟨hrow, b, hb, hkey⟩ := hrows k hk
    have hof := ofKey_iff.mp (mem_seenCells.mp hb).1
    rw [hkey] at hof
    exact shown_of_row hcounts hcosts hnul hmonth hday hrow hof
  have hmet : ∀ e ∈ lastMonth log s.now, e.text "api_key" ≠ [] → e.text "api_key" ≠ loginKey →
      e.text "api_key" ∈ (keyRows s month day).map APIKey.id := by
    intro e he hempty hlogin
    have hevent : ∃ e' ∈ withKey (lastMonth log s.now) (e.text "api_key"),
        Window.day.start e'.time = Window.day.start e.time :=
      ⟨e, List.mem_filter.mpr ⟨he, decide_eq_true rfl⟩, rfl⟩
    obtain ⟨c, hc, hkey, -⟩ := (cell_iff_event hcounts hcosts hnul hmonth).mpr hevent
    rw [← hkey]
    apply hcover (false, c)
    rw [mem_seenCells, ofKey_iff, hkey]
    exact ⟨⟨hempty, hlogin⟩, .inl ⟨rfl, hc⟩⟩
  refine ⟨hnodup, hsorted, hmet, hshown, ?_⟩
  have hsum : sumOf APIKey.requests24h (keyRows s month day) = sumOf (fun id => sumOf (fun _ => 1)
      ((lastDay log s.now).filter (fun e => decide (e.text "api_key" = id))))
        ((keyRows s month day).map APIKey.id) := by
    rw [sumOf, sumOf, List.map_map]
    refine congrArg List.sum (List.map_congr_left fun k hk => ?_)
    rw [(hshown k hk).requests, Function.comp_apply, sumOf_one]
    rfl
  rw [hsum, sumOf_filter_keys _ hnodup, sumOf_one, List.countP_eq_length_filter]
  refine congrArg List.length (List.filter_congr fun e he => ?_)
  rw [decide_eq_decide]
  constructor
  · intro hmem
    obtain ⟨k, hk, hid⟩ := List.mem_map.mp hmem
    rw [← hid]
    exact (hshown k hk).named
  · intro hkey
    exact hmet e (lastDay_sub he) hkey.1 hkey.2

/-- A request with a key shows on the page. -/
theorem chat_key_exact : ∃ out, answer (windowed [chatRequest]) (keys (serverAt 3723000)) = .ok out ∧
    (∀ k ∈ out, Shown [chatRequest] 3723000 k) ∧ sumOf APIKey.requests24h out = 1 := by
  have hmonth : answer (windowed [chatRequest]) (usage (3723000 - catalogSpan) 3723000 (some .day)) = .ok
      [{ start := 0, team := "research", user := "alice", key := "k-1", model := "llama", resource := "chat",
         provider := [], requests := 1 }] := rfl
  have hday : answer (windowed [chatRequest]) (usage (dayStart 3723000) 3723000 (some .hour)) = .ok
      [{ start := 0, team := "research", user := "alice", key := "k-1", model := "llama", resource := "chat",
         provider := [], requests := 1 }] := rfl
  have hpage : answer (windowed [chatRequest]) (keys (serverAt 3723000)) = .ok (keyRows (serverAt 3723000) _ _) :=
    (answer_bind_of_ok hmonth).trans (answer_bind_of_ok hday)
  have hcosts : CostsOf [chatRequest] (windowed [chatRequest]) := openMeter_costs [chatRequest]
  obtain ⟨-, -, -, hshown, hsum⟩ := keys_exact (serverAt 3723000) (windowed [chatRequest]) [chatRequest] _
    (windowed_counts _) hcosts (by unfold NulFree; decide) hpage
  refine ⟨_, hpage, hshown, hsum.trans ?_⟩
  decide

end Exact

end openmeter
