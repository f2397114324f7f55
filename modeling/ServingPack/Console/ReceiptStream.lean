import ServingPack.Console.Traffic
import ServingPack.Lib.JsMap

open golang openmeter

namespace appState

/-- The rows of the live stream, newest first. -/
structure ReceiptStream where
  rows : List Receipt := []
  /-- Receipts for the drawer, oldest first. -/
  byId : JsMap GoString Receipt := .empty

/-- Keeps a receipt for the drawer, and at most 20 000 of them. -/
def remember (byId : JsMap GoString Receipt) (r : Receipt) : JsMap GoString Receipt :=
  let byId := (byId.delete r.id).set r.id r
  if 20000 < byId.size then
    match byId.oldest with
    | some id => byId.delete id
    | none => byId
  else byId

/-- A batch as far as it has been sorted. -/
structure Sorted where
  settled : JsMap GoString Receipt := .empty
  fresh : List Receipt := []
  byId : JsMap GoString Receipt

/-- Sorts one more receipt of a batch, where some ids are in the rows. -/
def Sorted.next (known : List GoString) (sorted : Sorted) (r : Receipt) : Sorted :=
  let byId := remember sorted.byId r
  if r.id ∈ known ∨ sorted.settled.has r.id = true
    then { sorted with settled := sorted.settled.set r.id r, byId := byId }
  else { sorted with fresh := sorted.fresh ++ [r], byId := byId }

def ReceiptStream.upsertMany (stream : ReceiptStream) (batch : List Receipt) : ReceiptStream :=
  let known := stream.rows.map Receipt.id
  let sorted := batch.foldl (Sorted.next known) { byId := stream.byId }
  -- A receipt that arrived and settled in the same batch is new, in its settled form.
  let newRows := (sorted.fresh.map (fun r => (sorted.settled.get r.id).getD r)).reverse
  let settled := newRows.foldl (fun settled r => settled.delete r.id) sorted.settled
  let rows := if settled.size = 0 then stream.rows
    else stream.rows.map (fun x => (settled.get x.id).getD x)
  { rows := if newRows = [] then rows else (newRows ++ rows).take 600
    byId := sorted.byId }

end appState

namespace trafficFeed

/-- How many rows are kept. -/
def MAX_ROWS : Nat := 10000

/-- Each row in its updated form, and the updates of no row. -/
def settleRows : List Receipt → JsMap GoString Receipt → List Receipt × JsMap GoString Receipt
  | [], updates => ([], updates)
  | r :: rest, updates =>
    match updates.get r.id with
    | none => (r :: (settleRows rest updates).1, (settleRows rest updates).2)
    | some u => (u :: (settleRows rest (updates.delete r.id)).1,
        (settleRows rest (updates.delete r.id)).2)

/-- Settles known rows in place and puts new ones on top, newest first. -/
def applyLive (rows batch : List Receipt) : List Receipt :=
  if batch = [] then rows
  else
    let updates := batch.foldl (fun updates r => updates.set r.id r)
      (JsMap.empty : JsMap GoString Receipt)
    let (next, left) := settleRows rows updates
    let fresh := left.values.mergeSort (fun a b => b.ts ≤ a.ts)
    let next := if fresh = [] then next else fresh ++ next
    if MAX_ROWS < next.length then next.take MAX_ROWS else next

end trafficFeed

namespace appState

/-- The version of a receipt that a batch brings last. -/
def lastVersion (batch : List Receipt) (id : GoString) : Option Receipt :=
  batch.reverse.find? (fun r => r.id = id)

/-- A row after a batch. -/
def current (batch : List Receipt) (r : Receipt) : Receipt := (lastVersion batch r.id).getD r

/-- The receipts that are new in a batch: one row for each id that no row holds. -/
structure Arrived (rows batch fresh : List Receipt) : Prop where
  distinct : (fresh.map Receipt.id).Nodup
  mem_iff : ∀ r, r ∈ fresh ↔ r.id ∉ rows.map Receipt.id ∧ lastVersion batch r.id = some r

/-- What a batch makes of some rows: the new receipts on top, and the rows as they
stood, each in its last version. No more than `limit` rows have to be kept. -/
def Upserted (limit : Nat) (rows batch shown : List Receipt) : Prop :=
  ∃ fresh, Arrived rows batch fresh ∧
    (shown = fresh ++ rows.map (current batch) ∨
      shown = (fresh ++ rows.map (current batch)).take limit)

section LastVersion

variable {rows batch : List Receipt} {r u : Receipt} {id : GoString}

private theorem lastVersion_append :
    lastVersion (batch ++ [r]) id = if r.id = id then some r else lastVersion batch id := by
  rw [lastVersion, List.reverse_append, List.reverse_singleton, List.singleton_append,
    List.find?_cons]
  by_cases h : r.id = id
  · simp [h]
  · simp [h, lastVersion]

/-- A later version of a receipt is one of the same receipt. -/
theorem lastVersion_id (h : lastVersion batch id = some u) : u.id = id := by
  have hfound := List.find?_some h
  simpa using hfound

/-- A batch has a version of exactly the receipts it names. -/
theorem lastVersion_isSome : (lastVersion batch id).isSome = true ↔ id ∈ batch.map Receipt.id := by
  rw [lastVersion, List.find?_isSome]
  simp [List.mem_map, eq_comm]

/-- A row that is brought up to date stays the row of its receipt. -/
@[simp] theorem current_id : (current batch r).id = r.id := by
  rw [current]
  cases h : lastVersion batch r.id with
  | none => rfl
  | some u => exact lastVersion_id h

/-- Bringing the rows up to date neither adds nor drops one. -/
theorem map_id_current : (rows.map (current batch)).map Receipt.id = rows.map Receipt.id := by
  rw [List.map_map]
  exact List.map_congr_left fun r _ => current_id

end LastVersion

section Upserted

variable {limit limit' : Nat} {rows batch fresh shown shown' : List Receipt} {r r' : Receipt}

/-- The rows of new receipts don't repeat any that was there. -/
theorem Arrived.nodup (h : Arrived rows batch fresh) (hrows : (rows.map Receipt.id).Nodup) :
    ((fresh ++ rows.map (current batch)).map Receipt.id).Nodup := by
  rw [List.map_append, map_id_current]
  apply List.nodup_append.mpr
  refine ⟨h.distinct, hrows, fun id hid id' hid' hsame => ?_⟩
  obtain ⟨r, hr, rfl⟩ := List.mem_map.mp hid
  apply ((h.mem_iff r).mp hr).1
  rw [hsame]
  exact hid'

private theorem Upserted.nodup (h : Upserted limit rows batch shown)
    (hrows : (rows.map Receipt.id).Nodup) :
    (shown.map Receipt.id).Nodup := by
  obtain ⟨fresh, harrived, rfl | rfl⟩ := h
  · exact harrived.nodup hrows
  · exact (harrived.nodup hrows).sublist ((List.take_sublist _ _).map _)

/-- A row that is shown is the last version of its id in the batch, or a row the batch leaves
alone. -/
theorem Upserted.mem (h : Upserted limit rows batch shown) (hr : r ∈ shown) :
    lastVersion batch r.id = some r ∨ lastVersion batch r.id = none ∧ r ∈ rows := by
  obtain ⟨fresh, harrived, hshown⟩ := h
  have hmem : r ∈ fresh ++ rows.map (current batch) := by
    rcases hshown with rfl | rfl
    · exact hr
    · exact List.mem_of_mem_take hr
  rcases List.mem_append.mp hmem with hfresh | hold
  · exact .inl ((harrived.mem_iff r).mp hfresh).2
  · obtain ⟨x, hx, rfl⟩ := List.mem_map.mp hold
    rw [current_id]
    cases hlast : lastVersion batch x.id with
    | none => exact .inr ⟨rfl, by simpa [current, hlast] using hx⟩
    | some u => exact .inl (by simp [current, hlast])

/-- However many rows are kept, the ones of one id are the same. -/
theorem Upserted.agree (h : Upserted limit rows batch shown)
    (h' : Upserted limit' rows batch shown')
    (hrows : (rows.map Receipt.id).Nodup) (hr : r ∈ shown) (hr' : r' ∈ shown')
    (hid : r.id = r'.id) : r = r' := by
  obtain hlast | ⟨hnone, hmem⟩ := h.mem hr
  · obtain hlast' | ⟨hnone', _⟩ := h'.mem hr'
    · rw [hid, hlast'] at hlast
      exact (Option.some.inj hlast).symm
    · rw [hid, hnone'] at hlast
      cases hlast
  · obtain hlast' | ⟨_, hmem'⟩ := h'.mem hr'
    · rw [← hid, hnone] at hlast'
      cases hlast'
    · exact List.inj_on_of_nodup_map hrows hmem hmem' hid

end Upserted

end appState

namespace trafficFeed

open appState

variable {rows batch : List Receipt} {updates : JsMap GoString Receipt} {id : GoString}

private theorem updates_get :
    (batch.foldl (fun updates r => updates.set r.id r) (JsMap.empty : JsMap GoString Receipt)).get
    id =
    lastVersion batch id := by
  induction batch using List.reverseRecOn with
  | nil => rfl
  | append_singleton batch r ih =>
    rw [List.foldl_append, List.foldl_cons, List.foldl_nil, JsMap.get_set, ih, lastVersion_append]
    simp only [eq_comm]

private theorem settleRows_eq (hrows : (rows.map Receipt.id).Nodup) :
    (settleRows rows updates).1 = rows.map (fun r => (updates.get r.id).getD r) ∧
      ∀ id, (settleRows rows updates).2.get id = if id ∈ rows.map Receipt.id then none
        else updates.get id := by
  induction rows generalizing updates with
  | nil => exact ⟨rfl, fun id => by simp [settleRows]⟩
  | cons r rest ih =>
    obtain ⟨hnot, hrest⟩ := List.nodup_cons.mp hrows
    rw [settleRows]
    cases hget : updates.get r.id with
    | none =>
      obtain ⟨hrows, hleft⟩ := @ih updates hrest
      refine ⟨by simp [hrows, hget], fun id => ?_⟩
      show (settleRows rest updates).2.get id = _
      rw [hleft]
      by_cases hid : id = r.id
      · simp [hid, hget]
      · simp [hid]
    | some u =>
      obtain ⟨hrows, hleft⟩ := @ih (updates.delete r.id) hrest
      constructor
      · show u :: (settleRows rest (updates.delete r.id)).1 = _
        rw [hrows, List.map_cons, hget]
        refine congrArg _ (List.map_congr_left fun x hx => ?_)
        have hne : x.id ≠ r.id := by
          intro h
          exact hnot (h ▸ List.mem_map_of_mem hx)
        rw [JsMap.get_delete, if_neg hne]
      · intro id
        show (settleRows rest (updates.delete r.id)).2.get id = _
        rw [hleft, JsMap.get_delete]
        by_cases hid : id = r.id
        · simp [hid]
        · simp [hid]

/-- What a batch makes of the list: the new receipts on top, newest first, the rows
in their last versions, and of all these as many as are kept. -/
theorem applyLive_eq (rows : List Receipt) (hrows : (rows.map Receipt.id).Nodup)
    (hbatch : batch ≠ []) :
    ∃ fresh, Arrived rows batch fresh ∧ Newest Receipt.ts fresh ∧
      applyLive rows batch = (fresh ++ rows.map (current batch)).take MAX_ROWS := by
  rw [applyLive, if_neg hbatch]
  generalize hupdates :
    batch.foldl (fun updates r => updates.set r.id r) (JsMap.empty : JsMap GoString Receipt) =
    updates
  have hget : ∀ id, updates.get id = lastVersion batch id := by
    intro id
    rw [← hupdates, updates_get]
  obtain ⟨hnext, hleft⟩ := @settleRows_eq rows updates hrows
  have hnext : (settleRows rows updates).1 = rows.map (current batch) := by
    rw [hnext]
    exact List.map_congr_left fun r _ => by rw [hget, current]
  have hkeys : ∀ id v, (settleRows rows updates).2.get id = some v → v.id = id := by
    intro id v h
    rw [hleft, hget] at h
    split_ifs at h
    exact lastVersion_id h
  generalize hfresh : (settleRows rows updates).2.values.mergeSort
    (fun a b => decide (b.ts ≤ a.ts)) = fresh
  have harrived : Arrived rows batch fresh := by
    subst hfresh
    constructor
    · exact ((List.mergeSort_perm _ _).map Receipt.id).nodup_iff.mpr (JsMap.nodup_values hkeys)
    · intro r
      rw [List.mem_mergeSort, JsMap.mem_values]
      constructor
      · intro ⟨id, h⟩
        obtain rfl := hkeys id r h
        rw [hleft, hget] at h
        split_ifs at h with hmem
        exact ⟨hmem, h⟩
      · intro ⟨hmem, hlast⟩
        exact ⟨r.id, by rw [hleft, hget, if_neg hmem, hlast]⟩
  have hsorted : Newest Receipt.ts fresh := by
    rw [← hfresh]
    refine (List.pairwise_mergeSort (fun a b c hab hbc => ?_) (fun a b => ?_) _).imp
      of_decide_eq_true
    · simp only [decide_eq_true_eq] at hab hbc ⊢
      omega
    · simp only [Bool.or_eq_true, decide_eq_true_eq]
      omega
  refine ⟨fresh, harrived, hsorted, ?_⟩
  dsimp only
  rw [hnext, hfresh]
  have hjoin :
    (if fresh = [] then rows.map (current batch) else fresh ++ rows.map (current batch)) =
      fresh ++ rows.map (current batch) := by
    split_ifs with hnone
    · rw [hnone, List.nil_append]
    · rfl
  rw [hjoin]
  split_ifs with hlong
  · rfl
  · rw [List.take_of_length_le (Nat.not_lt.mp hlong)]

/-- The list takes a batch up whole. -/
theorem applyLive_upserted (rows batch : List Receipt) (hrows : (rows.map Receipt.id).Nodup) :
    Upserted MAX_ROWS rows batch (applyLive rows batch) := by
  by_cases hbatch : batch = []
  · subst hbatch
    refine ⟨[], ⟨List.nodup_nil, fun r => by simp [lastVersion]⟩, .inl ?_⟩
    have hcurrent : current [] = id := rfl
    rw [applyLive, if_pos rfl, hcurrent, List.map_id, List.nil_append]
  · obtain ⟨fresh, harrived, _, heq⟩ := applyLive_eq rows hrows hbatch
    exact ⟨fresh, harrived, .inr heq⟩

end trafficFeed

namespace appState

/-- The receipts of a batch that no row holds, the last one first. -/
def arrivals (rows batch : List Receipt) : List Receipt :=
  (batch.filter (fun r => r.id ∉ rows.map Receipt.id)).reverse

section Upsert

variable {rows batch : List Receipt} {r : Receipt}

/-- Once a batch is sorted, the receipts of no row are fresh, each time they occur,
and the ids of the rows have their last version. -/
theorem sorted_eq (known : List GoString) (byId : JsMap GoString Receipt) (batch : List Receipt) :
    (batch.foldl (Sorted.next known) { byId := byId }).fresh = batch.filter
    (fun r => r.id ∉ known) ∧
      ∀ id, (batch.foldl (Sorted.next known) { byId := byId }).settled.get id =
        if id ∈ known then lastVersion batch id else none := by
  induction batch using List.reverseRecOn with
  | nil => exact ⟨rfl, fun id => by simp [lastVersion]⟩
  | append_singleton batch r ih =>
    obtain ⟨hfresh, hsettled⟩ := ih
    rw [List.foldl_append, List.foldl_cons, List.foldl_nil]
    generalize batch.foldl (Sorted.next known) { byId := byId } = sorted at hfresh hsettled ⊢
    have hhas : sorted.settled.has r.id = true → r.id ∈ known := by
      intro h
      rw [JsMap.has, hsettled] at h
      split_ifs at h with hmem
      · exact hmem
      · cases h
    rw [Sorted.next]
    by_cases hmem : r.id ∈ known
    · rw [if_pos (.inl hmem)]
      refine ⟨by simp [hfresh, hmem], fun id => ?_⟩
      rw [JsMap.get_set, hsettled, lastVersion_append]
      by_cases hid : id = r.id
      · simp [hid, hmem]
      · simp [hid, Ne.symm hid]
    · rw [if_neg (fun h => hmem (h.elim (fun h => h) hhas))]
      refine ⟨by simp [hfresh, hmem], fun id => ?_⟩
      rw [hsettled, lastVersion_append]
      by_cases hid : id = r.id
      · simp [hid, hmem]
      · simp [Ne.symm hid]

private theorem get_deleteAll (l : List Receipt) (m : JsMap GoString Receipt) (id : GoString) :
    (l.foldl (fun m r => m.delete r.id) m).get id = if id ∈ l.map Receipt.id then none
    else m.get id := by
  induction l generalizing m with
  | nil => simp
  | cons r rest ih =>
    rw [List.foldl_cons, ih, JsMap.get_delete]
    by_cases hid : id = r.id
    · simp [hid]
    · simp [hid]

private theorem mem_arrivals :
    r ∈ arrivals rows batch ↔ r ∈ batch ∧ r.id ∉ rows.map Receipt.id := by
  rw [arrivals, List.mem_reverse, List.mem_filter, decide_eq_true_eq]

/-- The rows after a batch: what has arrived, every time it did, over the rows in
their last versions. -/
theorem upsertMany_rows (stream : ReceiptStream) (batch : List Receipt) :
    (stream.upsertMany batch).rows =
      if arrivals stream.rows batch = [] then stream.rows.map (current batch)
      else (arrivals stream.rows batch ++ stream.rows.map (current batch)).take 600 := by
  obtain ⟨hfresh, hsettled⟩ := sorted_eq (stream.rows.map Receipt.id) stream.byId batch
  rw [ReceiptStream.upsertMany]
  generalize batch.foldl (Sorted.next (stream.rows.map Receipt.id)) { byId := stream.byId } =
    sorted at hfresh hsettled ⊢
  have hnew : (sorted.fresh.map (fun r => (sorted.settled.get r.id).getD r)).reverse =
      arrivals stream.rows batch := by
    rw [hfresh, arrivals]
    refine congrArg List.reverse (List.map_congr_left (g := id) fun r hr => ?_) |>.trans
      (by rw [List.map_id])
    rw [List.mem_filter, decide_eq_true_eq] at hr
    rw [hsettled, if_neg hr.2]
    rfl
  dsimp only
  rw [hnew]
  generalize hleft : (arrivals stream.rows batch).foldl
    (fun settled r => settled.delete r.id) sorted.settled = left
  have hget : ∀ id, left.get id = if id ∈ stream.rows.map Receipt.id then lastVersion batch id
      else none := by
    intro id
    rw [← hleft, get_deleteAll, hsettled]
    split_ifs with harrived hmem
    · obtain ⟨r, hr, rfl⟩ := List.mem_map.mp harrived
      exact absurd hmem (mem_arrivals.mp hr).2
    · rfl
    · rfl
    · rfl
  have hrows :
    (if left.size = 0 then stream.rows else stream.rows.map (fun x => (left.get x.id).getD x)) =
      stream.rows.map (current batch) := by
    have hmap : stream.rows.map (fun x => (left.get x.id).getD x) =
        stream.rows.map (current batch) := by
      refine List.map_congr_left fun x hx => ?_
      rw [hget, if_pos (List.mem_map_of_mem hx), current]
    split_ifs with hnone
    · rw [← hmap]
      refine (List.map_id _).symm.trans (List.map_congr_left fun x _ => ?_)
      rw [JsMap.size_eq_zero.mp hnone]
      rfl
    · exact hmap
  rw [hrows]

private theorem find?_arrivals (hr : r.id ∉ rows.map Receipt.id) :
    (arrivals rows batch).find? (fun u => u.id = r.id) = lastVersion batch r.id := by
  rw [arrivals, ← List.filter_reverse, List.find?_filter, lastVersion]
  congr 1
  funext u
  by_cases h : u.id = r.id
  · simp [h, hr]
  · simp [h]

/-- A list of receipts with distinct ids has a receipt first of its id. -/
theorem find?_of_nodup {l : List Receipt} (hl : (l.map Receipt.id).Nodup) (hr : r ∈ l) :
    l.find? (fun u => u.id = r.id) = some r := by
  cases hfind : l.find? (fun u => u.id = r.id) with
  | none =>
    have hnot := List.find?_eq_none.mp hfind r hr
    simp at hnot
  | some u =>
    have hid : u.id = r.id := by simpa using List.find?_some hfind
    rw [List.inj_on_of_nodup_map hl (List.mem_of_find?_eq_some hfind) hr hid]

/-- Where the first arrivals are distinct, all of them can be shown in their last versions
behind these. -/
theorem exists_arrived (n : Nat)
    (hdistinct : (((arrivals rows batch).take n).map Receipt.id).Nodup) :
    ∃ rest, Arrived rows batch ((arrivals rows batch).take n ++ rest) ∧
    ((arrivals rows batch).length ≤ n → rest = []) := by
  have hfirst : ∀ r, r.id ∉ rows.map Receipt.id →
    r.id ∈ ((arrivals rows batch).take n).map Receipt.id →
      lastVersion batch r.id = some r → r ∈ (arrivals rows batch).take n := by
    intro r hr hmem hlast
    obtain ⟨u, hu, hid⟩ := List.mem_map.mp hmem
    rw [← find?_arrivals hr, ← List.take_append_drop n (arrivals rows batch), List.find?_append,
      ← hid, find?_of_nodup hdistinct hu] at hlast
    rw [← Option.some.inj hlast]
    exact hu
  refine ⟨(((arrivals rows batch).drop n).filter (fun r =>
    r.id ∉ ((arrivals rows batch).take n).map Receipt.id ∧ lastVersion batch r.id = some r)).dedup,
      ⟨?_, fun r => ?_⟩,
    fun hlength => by simp [List.drop_eq_nil_of_le hlength]⟩
  · rw [List.map_append]
    apply List.nodup_append.mpr
    refine ⟨hdistinct, (List.nodup_map_iff_inj_on (List.nodup_dedup _)).mpr fun r hr u hu hid => ?_,
      fun id hid id' hid' hsame => ?_⟩
    · rw [List.mem_dedup, List.mem_filter, decide_eq_true_eq] at hr hu
      rw [hid, hu.2.2] at hr
      exact (Option.some.inj hr.2.2).symm
    · obtain ⟨r, hr, rfl⟩ := List.mem_map.mp hid'
      rw [List.mem_dedup, List.mem_filter, decide_eq_true_eq] at hr
      rw [hsame] at hid
      exact hr.2.1 hid
  · rw [List.mem_append, List.mem_dedup, List.mem_filter, decide_eq_true_eq]
    constructor
    · rintro (hr | ⟨hr, _, hlast⟩)
      · have hnew := (mem_arrivals.mp (List.mem_of_mem_take hr)).2
        refine ⟨hnew, ?_⟩
        rw [← find?_arrivals hnew, ← List.take_append_drop n (arrivals rows batch),
          List.find?_append, find?_of_nodup hdistinct hr]
        rfl
      · exact ⟨(mem_arrivals.mp (List.mem_of_mem_drop hr)).2, hlast⟩
    · intro ⟨hnew, hlast⟩
      by_cases hmem : r.id ∈ ((arrivals rows batch).take n).map Receipt.id
      · exact .inl (hfirst r hnew hmem hlast)
      · have harrived : r ∈ (arrivals rows batch).take n ++ (arrivals rows batch).drop n := by
          rw [List.take_append_drop]
          rw [← find?_arrivals hnew] at hlast
          exact List.mem_of_find?_eq_some hlast
        rcases List.mem_append.mp harrived with htake | hdrop
        · exact absurd (List.mem_map_of_mem htake) hmem
        · exact .inr ⟨hdrop, hmem, hlast⟩

private theorem upserted_of_distinct (stream : ReceiptStream)
    (hdistinct : (((arrivals stream.rows batch).take 600).map Receipt.id).Nodup) :
    Upserted 600 stream.rows batch (stream.upsertMany batch).rows := by
  obtain ⟨rest, harrived, hrest⟩ := exists_arrived 600 hdistinct
  refine ⟨_, harrived, ?_⟩
  rw [upsertMany_rows]
  split_ifs with hnone
  · rw [hrest (by simp [hnone]), hnone]
    exact .inl rfl
  · right
    by_cases hlength : (arrivals stream.rows batch).length ≤ 600
    · rw [hrest hlength, List.append_nil, List.take_of_length_le hlength]
    · have hfull : ((arrivals stream.rows batch).take 600).length = 600 := by
        rw [List.length_take]
        omega
      rw [List.append_assoc, List.take_append_of_le_length hfull.ge,
        List.take_append_of_le_length (by omega), List.take_take, Nat.min_self]

/-- The live rows take a batch up as the Traffic list does exactly when, among the
last 600 receipts of the batch that no row holds, no id occurs twice. -/
theorem upsertMany_upserts_iff (stream : ReceiptStream) (batch : List Receipt)
    (hrows : (stream.rows.map Receipt.id).Nodup) :
    (((stream.upsertMany batch).rows.map Receipt.id).Nodup ∧
      Upserted 600 stream.rows batch (stream.upsertMany batch).rows ∧
      ∀ r ∈ (stream.upsertMany batch).rows, ∀ r' ∈ trafficFeed.applyLive stream.rows batch,
      r.id = r'.id → r = r') ↔
      (((arrivals stream.rows batch).take 600).map Receipt.id).Nodup := by
  constructor
  · intro ⟨hnodup, _, _⟩
    rw [upsertMany_rows] at hnodup
    split_ifs at hnodup with hnone
    · rw [hnone]
      exact List.nodup_nil
    · refine hnodup.sublist (List.Sublist.map _ ?_)
      rw [List.take_append]
      exact List.sublist_append_left _ _
  · intro hdistinct
    have hupserted := upserted_of_distinct stream hdistinct
    refine ⟨hupserted.nodup hrows, hupserted, fun r hr r' hr' hid => ?_⟩
    exact hupserted.agree (trafficFeed.applyLive_upserted stream.rows batch hrows) hrows hr hr' hid

end Upsert

section Example

/-- A receipt in flight, and the same once it has settled. -/
def inFlight (outputTokens : Int) : Receipt :=
  { receiptFrom (served "r-1" 5000) with outputTokens := outputTokens }

/-- A receipt that settles while it is shown is shown settled, in its own row. -/
theorem settled_row_upserted :
    ((({ rows := [inFlight 0] } : ReceiptStream).upsertMany [inFlight 7]).rows.map
      Receipt.id).Nodup ∧
      Upserted 600 [inFlight 0] [inFlight 7]
        (({ rows := [inFlight 0] } : ReceiptStream).upsertMany [inFlight 7]).rows ∧
      ∀ r ∈ (({ rows := [inFlight 0] } : ReceiptStream).upsertMany [inFlight 7]).rows,
        ∀ r' ∈ trafficFeed.applyLive [inFlight 0] [inFlight 7], r.id = r'.id → r = r' :=
  (upsertMany_upserts_iff { rows := [inFlight 0] } [inFlight 7] (List.nodup_singleton _)).mpr
    (by decide)

/-- A receipt that arrives and settles in one batch is shown twice, first as it
settled and then as it arrived. -/
theorem settled_arrival_shown_twice :
    ((({} : ReceiptStream).upsertMany [inFlight 0, inFlight 7]).rows = [inFlight 7, inFlight 0]) ∧
      inFlight 7 ≠ inFlight 0 ∧ (inFlight 7).id = (inFlight 0).id ∧
      ¬Upserted 600 [] [inFlight 0, inFlight 7]
        (({} : ReceiptStream).upsertMany [inFlight 0, inFlight 7]).rows := by
  have hrows : (({} : ReceiptStream).upsertMany [inFlight 0, inFlight 7]).rows =
      [inFlight 7, inFlight 0] := by
    rw [upsertMany_rows]
    decide
  refine ⟨hrows, by decide, rfl, fun h => ?_⟩
  have hnodup := h.nodup List.nodup_nil
  rw [hrows] at hnodup
  revert hnodup
  decide

end Example

end appState
