import ServingPack.Console.Spend

open golang concurrency

namespace openmeter

/-- The event's text of a field. -/
def Event.text (e : Event) (name : GoString) : GoString := str (e.data.lookup name)

section MapKey

/-- Dimensions as one text, a zero byte before each. -/
def joined (values : List GoString) : GoString := values.flatMap (fun v => 0 :: v)

private theorem mapKey_eq (c : Cell) : c.mapKey = (c.start, joined (dims.map c.dim)) := by
  rw [Cell.mapKey, joined, List.flatMap_map]

/-- Events whose dimensions are joined to one text agree in what is asked of them. -/
def KeptApart {α : Type} (log : List Event) (f : List GoString → α) : Prop :=
  ∀ e ∈ log, ∀ e' ∈ log, joined (dims.map e.text) = joined (dims.map e'.text) →
    f (dims.map e.text) = f (dims.map e'.text)

private theorem KeptApart.comp {α β : Type} {log : List Event} {f : List GoString → α}
    (h : KeptApart log f) (g : α → β) :
    KeptApart log (fun values => g (f values)) :=
  fun e he e' he' hjoined => congrArg g (h e he e' he' hjoined)

end MapKey

section Cells

variable {log : List Event} {start : Int} {w : Option Window} {providers : GoMap GoString}
  {cells : List Cell}

/-- The cell has the dimensions of an event. -/
def Cell.Of (log : List Event) (c : Cell) : Prop := ∃ e ∈ log, dims.map c.dim = dims.map e.text

/-- The row has the fields of an event. -/
def FieldsOf (log : List Event) (g : GoString → Option GoString) : Prop :=
  ∃ e ∈ log, ∀ d ∈ dims, (g d).getD [] = e.text d

/-- A new cell's texts, read back through the dimensions, are the row's own fields. -/
@[simp] theorem dims_cellAt (rowStart : Int) (g : GoString → Option GoString) :
    dims.map (cellAt start w providers rowStart g).dim = dims.map (fun d => (g d).getD []) := rfl

private theorem cellAt_start (rowStart : Int) (g : GoString → Option GoString) :
    (cellAt start w providers rowStart g).start = if w = none then start else rowStart := rfl

private theorem cellAt_of {g : GoString → Option GoString} (h : FieldsOf log g) (rowStart : Int) :
    (cellAt start w providers rowStart g).Of log := by
  obtain ⟨e, he, hfields⟩ := h
  exact ⟨e, he, (dims_cellAt rowStart g).trans (List.map_congr_left hfields)⟩

/-- Adding a cost row moves only the cell's sums, so the cell keeps its group. -/
@[simp] theorem addCost_dim (r : CostRow) (c : Cell) : (c.addCost r).dim = c.dim := by
  unfold Cell.addCost
  cases r.cost <;> rfl

/-- Costs are tokens and money: the request count comes from the meter alone. -/
@[simp] theorem addCost_requests (r : CostRow) (c : Cell) :
    (c.addCost r).requests = c.requests := by
  unfold Cell.addCost
  cases r.cost <;> rfl

@[simp] theorem addCost_start (r : CostRow) (c : Cell) : (c.addCost r).start = c.start := by
  unfold Cell.addCost
  cases r.cost <;> rfl

@[simp] theorem addRequests_dim (r : MeterRow) (c : Cell) : (c.addRequests r).dim = c.dim := rfl

@[simp] theorem addRequests_start (r : MeterRow) (c : Cell) : (c.addRequests r).start = c.start :=
  rfl

/-- The cells have the dimensions of events after one more row as before. -/
theorem upsert_of {cell : Cell} {add : Cell → Cell} (hadd : ∀ c, (add c).dim = c.dim)
    (hcell : cell.Of log)
    (hcells : ∀ c ∈ cells, c.Of log) : ∀ c ∈ upsert Cell.mapKey cell add cells, c.Of log := by
  intro c hc
  rcases mem_upsert hc with hc | rfl | ⟨c', hc', rfl⟩
  · exact hcells c hc
  · rw [Cell.Of, hadd]
    exact hcell
  · rw [Cell.Of, hadd]
    exact hcells c' hc'

variable (p : Int → List GoString → Bool)

/-- The requests of the cells whose window and dimensions pass a test. -/
def requestsOf (cells : List Cell) : Nat :=
  sumOf Cell.requests (cells.filter (fun c => p c.start (dims.map c.dim)))

variable {p}

/-- Cells that are kept as one pass the same tests. -/
theorem test_of_mapKey (hp : KeptApart log (fun values t => p t values)) {c c' : Cell}
    (hc : c.Of log) (hc' : c'.Of log)
    (h : c.mapKey = c'.mapKey) : p c.start (dims.map c.dim) = p c'.start (dims.map c'.dim) := by
  rw [mapKey_eq, mapKey_eq] at h
  obtain ⟨hstart, hjoined⟩ := Prod.mk.inj h
  obtain ⟨e, he, heq⟩ := hc
  obtain ⟨e', he', heq'⟩ := hc'
  rw [heq, heq'] at hjoined ⊢
  rw [hstart]
  exact congrFun (hp e he e' he' hjoined) _

private theorem addCostRow_requests (hp : KeptApart log (fun values t => p t values)) {r : CostRow}
    (hr : FieldsOf log r.field) (hcells : ∀ c ∈ cells, c.Of log) :
    requestsOf p (addCostRow start w providers cells r) = requestsOf p cells := by
  have h := @sumOf_upsert _ _ _ _ _ Cell.mapKey (cellAt start w providers r.start r.field)
    (Cell.addCost r) cells
    Cell.requests (fun c => p c.start (dims.map c.dim)) 0 (by rw [addCost_requests]; rfl)
    (fun c hc hkey => test_of_mapKey hp (hcells c hc) (cellAt_of hr r.start) hkey)
    (fun c => by rw [addCost_dim, addCost_start])
      (fun c _ => by rw [addCost_requests, Nat.add_zero])
  rw [ite_self, Nat.add_zero] at h
  exact h

private theorem addMeterRow_requests (hp : KeptApart log (fun values t => p t values))
    {r : MeterRow} (hr : FieldsOf log r.field) (hcells : ∀ c ∈ cells, c.Of log) :
    requestsOf p (addMeterRow start w providers cells r) = requestsOf p cells +
      if p (if w = none then start else r.windowStart) (dims.map (fun d => (r.field d).getD []))
        then r.value else 0 := by
  have h := @sumOf_upsert _ _ _ _ _ Cell.mapKey (cellAt start w providers r.windowStart r.field)
    (Cell.addRequests r) cells
    Cell.requests (fun c => p c.start (dims.map c.dim)) r.value (Nat.zero_add _)
    (fun c hc hkey => test_of_mapKey hp (hcells c hc) (cellAt_of hr r.windowStart) hkey)
    (fun c => by rw [addRequests_dim, addRequests_start]) (fun c _ => rfl)
  rwa [dims_cellAt, cellAt_start] at h

private theorem foldl_addCostRow (hp : KeptApart log (fun values t => p t values))
    {rows : List CostRow}
    (hrows : ∀ r ∈ rows, FieldsOf log r.field) (hcells : ∀ c ∈ cells, c.Of log) :
    (∀ c ∈ rows.foldl (addCostRow start w providers) cells, c.Of log) ∧
      requestsOf p (rows.foldl (addCostRow start w providers) cells) = requestsOf p cells := by
  induction rows generalizing cells with
  | nil => exact ⟨hcells, rfl⟩
  | cons r rest ih =>
    obtain ⟨hr, hrest⟩ := List.forall_mem_cons.mp hrows
    have hcells' : ∀ c ∈ addCostRow start w providers cells r, c.Of log :=
      upsert_of (addCost_dim r) (cellAt_of hr r.start) hcells
    obtain ⟨hof, hrequests⟩ := ih hrest hcells'
    exact ⟨hof, hrequests.trans (addCostRow_requests hp hr hcells)⟩

private theorem foldl_addMeterRow (hp : KeptApart log (fun values t => p t values))
    {rows : List MeterRow}
    (hrows : ∀ r ∈ rows, FieldsOf log r.field) (hcells : ∀ c ∈ cells, c.Of log) :
    requestsOf p (rows.foldl (addMeterRow start w providers) cells) = requestsOf p cells +
      sumOf MeterRow.value (rows.filter (fun r =>
        p (if w = none then start else r.windowStart)
          (dims.map (fun d => (r.field d).getD [])))) := by
  induction rows generalizing cells with
  | nil => rfl
  | cons r rest ih =>
    obtain ⟨hr, hrest⟩ := List.forall_mem_cons.mp hrows
    have hcells' : ∀ c ∈ addMeterRow start w providers cells r, c.Of log :=
      upsert_of (addRequests_dim r) (cellAt_of hr r.windowStart) hcells
    rw [List.foldl_cons, ih hrest hcells', addMeterRow_requests hp hr hcells, List.filter_cons]
    generalize p (if w = none then start else r.windowStart)
      (dims.map (fun d => (r.field d).getD [])) = passes
    cases passes with
    | true => rw [if_pos rfl, if_pos rfl, sumOf_cons, Nat.add_assoc]
    | false => rfl

end Cells

/-- The rows of the cost queries show dimensions of events. -/
def CostsOf (log : List Event) (om : (q : Request) → Answer q) : Prop :=
  ∀ id start stop w rows, om (.cost id start stop w) = .ok rows → ∀ r ∈ rows, ∃ e ∈ log, ∀ d ∈ dims,
    r.field d = e.field d

section Usage

variable {log : List Event} {om : (q : Request) → Answer q} {start stop : Int} {w : Option Window}
  {providers : GoMap GoString} {cells done : List Cell} {p : Int → List GoString → Bool}

/-- A row that carries the dimensions of an event of the log has fields that the log knows. -/
theorem fieldsOf_event {e : Event} (he : e ∈ log) {g : GoString → Option GoString}
    (hg : ∀ d ∈ dims, g d = e.field d) :
    FieldsOf log g :=
  ⟨e, he, fun d hd => by rw [hg d hd, field_str, Event.text]⟩

/-- The cost queries count no requests. -/
theorem addCosts_requests (hcosts : CostsOf log om)
    (hp : KeptApart log (fun values t => p t values)) {fs : List Feature}
    (hcells : ∀ c ∈ cells, c.Of log)
    (h : answer om (addCosts start stop w providers cells fs) = .ok done) :
    (∀ c ∈ done, c.Of log) ∧ requestsOf p done = requestsOf p cells := by
  induction fs generalizing cells with
  | nil =>
    obtain rfl := Except.ok.inj h
    exact ⟨hcells, rfl⟩
  | cons f rest ih =>
    unfold addCosts at h
    split_ifs at h with hllm
    · obtain ⟨rows, hrows, h⟩ := answer_bind_ok h
      have hof : ∀ r ∈ rows, FieldsOf log r.field := by
        intro r hr
        obtain ⟨e, he, hfields⟩ := hcosts _ _ _ _ rows hrows r hr
        exact fieldsOf_event he hfields
      obtain ⟨hcells', hrequests⟩ := @foldl_addCostRow log start w providers _ p hp _ hof hcells
      obtain ⟨hdone, hsame⟩ := ih hcells' h
      exact ⟨hdone, hsame.trans hrequests⟩
    · exact ih hcells h

/-- The cells count what the rows of the `llm_requests` meter do. -/
theorem usage_rows (hcosts : CostsOf log om) (hp : KeptApart log (fun values t => p t values))
    (h : answer om (usage start stop w) = .ok cells) :
    ∃ rows, om (.meter "llm_requests" (start / 1000) (stop / 1000) w dims) = .ok rows ∧
      ((∀ r ∈ rows, FieldsOf log r.field) →
        requestsOf p cells = sumOf MeterRow.value (rows.filter (fun r =>
        p (if w = none then start else r.windowStart)
          (dims.map (fun d => (r.field d).getD []))))) := by
  obtain ⟨fs, _, h⟩ := answer_bind_ok h
  obtain ⟨priced, hpriced, h⟩ := answer_bind_ok h
  obtain ⟨rows, hrows, h⟩ := answer_bind_ok h
  obtain rfl := Except.ok.inj h
  refine ⟨rows, hrows, fun hof => ?_⟩
  obtain ⟨hcells, hnone⟩ :=
    addCosts_requests hcosts hp (fun c hc => absurd hc List.not_mem_nil) hpriced
  rw [foldl_addMeterRow hp hof hcells, hnone]
  exact Nat.zero_add _

/-- The cells count the request events of the window, by their dimensions. -/
theorem usage_requests {q : List GoString → Bool} (hcounts : CountsRequests log om)
    (hcosts : CostsOf log om)
    (hq : KeptApart log q) (h : answer om (usage start stop none) = .ok cells) :
    requestsOf (fun _ => q) cells =
      (requestsIn log (start / 1000) (stop / 1000)).countP (fun e => q (dims.map e.text)) := by
  obtain ⟨rows, hrows, hrequests⟩ :=
    usage_rows (p := fun _ => q) hcosts (hq.comp fun value _ => value) h
  obtain ⟨rows', hrows', hgroups⟩ := hcounts (start / 1000) (stop / 1000) dims
  obtain rfl : rows' = rows := Except.ok.inj (hrows'.symm.trans hrows)
  have hof : ∀ r ∈ rows', FieldsOf log r.field := by
    intro r hr
    obtain ⟨e, he, hkey⟩ := List.mem_map.mp (hgroups.used r hr)
    exact fieldsOf_event (List.mem_of_mem_filter he) fun d hd =>
      (List.map_inj_left.mp hkey d hd).symm
  have hsum := hgroups.sumOf_filter (fun key => q (key.map (fun v => v.getD [])))
  simp only [List.map_map, sumOf_one] at hsum
  refine (hrequests hof).trans (Eq.trans ?_ (hsum.trans ?_))
  · rfl
  · rw [List.countP_eq_length_filter]
    refine congrArg List.length
      (List.filter_congr fun e _ => congrArg q (List.map_congr_left fun d _ => ?_))
    exact field_str e d

end Usage

section SpendRows

variable {s : Server} {field : GoString} {rows : List SpendRow} {cells : List Cell}
  {add : Cell → SpendRow → SpendRow} {amount : Cell → Nat}

/-- Cells are added to the row of their group. -/
theorem foldl_addRow (hid : ∀ c x, (add c x).id = x.id)
    (hadd : ∀ c x, (add c x).requests = x.requests + amount c)
    (hnodup : (rows.map SpendRow.id).Nodup) :
    ((cells.foldl (addRow field add) rows).map SpendRow.id).Nodup ∧
    (∀ row ∈ cells.foldl (addRow field add) rows, row.id ∈ rows.map SpendRow.id ∨
      ∃ c ∈ cells, row.id = group c field) ∧
    ∀ id, sumOf SpendRow.requests ((cells.foldl (addRow field add) rows).filter (·.id = id)) =
      sumOf SpendRow.requests (rows.filter (·.id = id)) + sumOf amount
        (cells.filter (group · field = id)) := by
  induction cells generalizing rows with
  | nil => exact ⟨hnodup, fun row hrow => Or.inl (List.mem_map_of_mem hrow), fun _ => rfl⟩
  | cons c rest ih =>
    have hone : ((addRow field add rows c).map SpendRow.id).Nodup := nodup_upsert (hid c) hnodup
    obtain ⟨hnodup', hids, hrequests⟩ := ih hone
    refine ⟨hnodup', fun row hrow => ?_, fun id => ?_⟩
    · rcases hids row hrow with hrow | ⟨c', hc', hrow⟩
      · obtain ⟨x, hx, hxid⟩ := List.mem_map.mp hrow
        rw [← hxid]
        rcases mem_upsert hx with hx | rfl | ⟨y, hy, rfl⟩
        · exact Or.inl (List.mem_map_of_mem hx)
        · exact Or.inr ⟨c, List.mem_cons_self, hid c _⟩
        · exact Or.inl (hid c y ▸ List.mem_map_of_mem hy)
      · exact Or.inr ⟨c', List.mem_cons_of_mem c hc', hrow⟩
    · have hupsert : sumOf SpendRow.requests ((addRow field add rows c).filter (·.id = id)) =
          sumOf SpendRow.requests (rows.filter (·.id = id)) + if group c field = id then amount c
            else 0 := by
        have h := @sumOf_upsert _ _ _ _ _ SpendRow.id
          { id := group c field, label := group c field } (add c) rows
          SpendRow.requests (fun x => decide (x.id = id)) (amount c)
          ((hadd c _).trans (Nat.zero_add _)) (fun x _ hkey => by rw [hkey]) (fun x => by rw [hid])
            (fun x _ => hadd c x)
        simp only [decide_eq_true_eq] at h
        exact h
      rw [List.foldl_cons, hrequests, hupsert, List.filter_cons]
      simp only [decide_eq_true_eq]
      split_ifs
      · rw [sumOf_cons, Nat.add_assoc]
      · rw [Nat.add_zero]

/-- A finished row keeps its id; only its name and its team are filled in. -/
theorem finish_id (x : SpendRow) : (x.finish s).id = x.id := by
  unfold SpendRow.finish
  simp only
  split_ifs <;> rfl

private theorem finish_requests (x : SpendRow) : (x.finish s).requests = x.requests := by
  unfold SpendRow.finish
  simp only
  split_ifs <;> rfl

private theorem finish_noDrill (x : SpendRow) :
    (x.finish s).noDrill = (x.noDrill || hasPrefix x.id (loginKey ++ (":" : GoString))) := by
  unfold SpendRow.finish
  simp only
  split_ifs with hlogin
  · rw [hlogin, Bool.or_true]
  · rw [Bool.eq_false_of_not_eq_true hlogin, Bool.or_false]

/-- A row counts the requests of the cells of its group, and a cell of the window or the one
before is in it. -/
theorem spendRows_row {by_ : GoString} {cur prev : List Cell} {row : SpendRow}
    (h : row ∈ spendRows s by_ cur prev) (hfield : (spendDims.lookup by_).getD [] = field) :
    row.requests = sumOf Cell.requests (cur.filter (group · field = row.id)) ∧
      (∃ c, row.id = group c field) ∧
      (row.noDrill = false → hasPrefix row.id (loginKey ++ (":" : GoString)) = false) := by
  subst hfield
  obtain ⟨hnodup, hids, hrequests⟩ :=
    @foldl_addRow ((spendDims.lookup by_).getD []) [] cur SpendRow.addCell Cell.requests
    (fun _ _ => rfl) (fun _ _ => rfl) List.nodup_nil
  obtain ⟨hnodup', hids', hrequests'⟩ := @foldl_addRow _ _ prev SpendRow.addPrev (fun _ => 0)
    (fun _ _ => rfl) (fun _ _ => rfl) hnodup
  obtain ⟨x, hx, rfl⟩ := List.mem_map.mp ((List.mergeSort_perm _ _).mem_iff.mp h)
  refine ⟨?_, ?_, fun hdrill => ?_⟩
  · have hsum := (hrequests' x.id).trans (congrArg (· + _) (hrequests x.id))
    rw [filter_key_eq hnodup' hx, sumOf_cons, sumOf_nil, sumOf_zero, List.filter_nil, sumOf_nil,
      Nat.zero_add, Nat.add_zero, Nat.add_zero] at hsum
    rw [finish_requests, finish_id, hsum]
  · rw [finish_id]
    rcases hids' x hx with hold | ⟨c, _, hc⟩
    · obtain ⟨y, hy, hid⟩ := List.mem_map.mp hold
      obtain hnone | ⟨c, _, hc⟩ := hids y hy
      · cases hnone
      · exact ⟨c, hid ▸ hc⟩
    · exact ⟨c, hc⟩
  · rw [finish_noDrill, Bool.or_eq_false_iff] at hdrill
    rw [finish_id]
    exact hdrill.2

end SpendRows

/-- A dimension's group, from a cell's dimensions. -/
def groupOf (dim : SpendDim) : List GoString → GoString
  | [team, user, key, model, resource] =>
    match dim with
    | .team => team
    | .person => user
    | .project => resource
    | .key => if key = loginKey then loginKey ++ (":" : GoString) ++ user else key
    | .model => model
    | .provider => []
  | _ => []

/-- What a row and its link compare is the same for the window's requests: for a person only
where all of them are theirs, for a project only where none has the row's id for its model
resource, which the row counts, nor for its project's id, which the link opens. -/
def LinkAgrees (requests : List Event) (id : GoString) : SpendDim → Prop
  | .person => ∀ e ∈ requests, e.text "user" = id
  | .project => ∀ e ∈ requests, e.text "model_resource" ≠ id ∧
      projectID (e.text "team") (e.text "model_resource") ≠ id
  | _ => True

/-- The receipts that a filter opens are those of the requests that a row counts. -/
def OpensCounted (requests : List Event) (dim : SpendDim) (id : GoString) (f : ReceiptFilter) :
    Prop :=
  ∀ e ∈ requests, groupOf dim (dims.map e.text) = id ↔ f.matchReceipt (receiptFrom e) = true

section Links

variable {log : List Event} {om : (q : Request) → Answer q} {s : Server} {dim : SpendDim}

private theorem group_eq_groupOf (hdim : dim ≠ .provider) (c : Cell) :
    group c ((spendDims.lookup dim.value).getD []) = groupOf dim (dims.map c.dim) := by
  cases dim with
  | provider => exact absurd rfl hdim
  | key =>
    have hfield : (spendDims.lookup SpendDim.key.value).getD [] = lit "api_key" := rfl
    rw [hfield, group]
    simp only [true_and]
    rfl
  | _ => rfl

private theorem matchesBetween_seconds (f : ReceiptFilter) (start stop : Int) :
    matchesBetween log f (start * 1000) (stop * 1000) =
    (requestsIn log start stop).countP (fun e => f.matchReceipt (receiptFrom e)) := by
  rw [requestsIn, List.countP_filter, matchesBetween]
  exact List.countP_congr fun e _ => by rw [Bool.and_comm]

/-- A row counts the request events of its group. -/
theorem breakdown_requests {prevStart start stop : Int} {rows : List SpendRow} {row : SpendRow}
    (hcounts : CountsRequests log om) (hcosts : CostsOf log om)
    (hapart : KeptApart log (groupOf dim)) (hdim : dim ≠ .provider)
    (h : answer om (breakdown s dim.value prevStart start stop) = .ok rows) (hrow : row ∈ rows) :
    row.requests = (requestsIn log (start / 1000) (stop / 1000)).countP
        (fun e => groupOf dim (dims.map e.text) = row.id) ∧
      (∃ c : Cell, row.id = groupOf dim (dims.map c.dim)) ∧
      (row.noDrill = false → hasPrefix row.id (loginKey ++ (":" : GoString)) = false) := by
  obtain ⟨cur, hcur, h⟩ := answer_bind_ok h
  obtain ⟨prev, _, h⟩ := answer_bind_ok h
  obtain rfl := Except.ok.inj h
  obtain ⟨hrequests, ⟨c, hc⟩, hdrill⟩ := spendRows_row hrow rfl
  refine ⟨?_, ⟨c, hc.trans (group_eq_groupOf hdim c)⟩, hdrill⟩
  simp only [group_eq_groupOf hdim] at hrequests
  rw [hrequests]
  exact usage_requests hcounts hcosts (hapart.comp fun value => decide (value = row.id)) hcur

/-- The receipts that a link's filter matches. -/
theorem link_match (dim : SpendDim) (id : GoString) (since before : Int) (e : Event) :
    (filterOf (fun name => if name = dim.value then [id] else []) since before).matchReceipt
    (receiptFrom e) =
      match dim with
      | .team => decide (e.text "team" = id)
      | .project => decide (projectID (e.text "team") (e.text "model_resource") = id)
      | .key => decide (e.text "api_key" = id)
      | .model => decide (e.text "model" = id)
      | .person => true
      | .provider => true := by
  have hone (v : GoString) : ReceiptFilter.admits [id] v = decide (v = id) := by
    simp only [ReceiptFilter.admits, List.cons_ne_nil, decide_false, Bool.false_or,
      List.mem_singleton]
  have hnone (v : GoString) : ReceiptFilter.admits [] v = true := rfl
  cases dim with
  | team =>
    have hfilter : filterOf (fun name => if name = SpendDim.team.value then [id] else []) since
      before =
        { team := [id], since := since, before := before } := rfl
    rw [hfilter]
    simp only [ReceiptFilter.matchReceipt, ReceiptFilter.match_, hone, hnone, Bool.and_true,
      Bool.true_and]
    rfl
  | project =>
    have hfilter : filterOf (fun name => if name = SpendDim.project.value then [id] else []) since
      before =
        { project := [id], since := since, before := before } := rfl
    rw [hfilter]
    simp only [ReceiptFilter.matchReceipt, ReceiptFilter.match_, hone, hnone, Bool.and_true,
      Bool.true_and]
    rfl
  | key =>
    have hfilter : filterOf (fun name => if name = SpendDim.key.value then [id] else []) since
      before =
        { key := [id], since := since, before := before } := rfl
    rw [hfilter]
    simp only [ReceiptFilter.matchReceipt, ReceiptFilter.match_, hone, hnone, Bool.and_true]
    rfl
  | model =>
    have hfilter : filterOf (fun name => if name = SpendDim.model.value then [id] else []) since
      before =
        { model := [id], since := since, before := before } := rfl
    rw [hfilter]
    simp only [ReceiptFilter.matchReceipt, ReceiptFilter.match_, hone, hnone, Bool.and_true,
      Bool.true_and]
    rfl
  | person => rfl
  | provider => rfl

/-- No project has its model resource's name for its id. -/
theorem projectID_ne (team resource : GoString) : projectID team resource ≠ resource := by
  intro h
  have hlength := congrArg List.length h
  have hslash : (lit "/").length = 1 := rfl
  rw [projectID, List.length_append, List.length_append, hslash] at hlength
  omega

/-- A project's id has a slash. -/
theorem slash_mem_projectID (team resource : GoString) :
    (47 : UInt8) ∈ projectID team resource := by
  rw [projectID, List.mem_append, List.mem_append]
  exact .inl (.inr (by decide))

section Opened

variable {requests : List Event} {row : SpendRow} {href : Values} {since before : Int}

/-- A row that can be opened groups by its dimension, and its link names the row. -/
theorem trafficHref_some (hopen : trafficHref dim row = some href) :
    row.noDrill = false ∧ dim ≠ .provider ∧
    href = fun name => if name = dim.value then [row.id] else [] := by
  rw [trafficHref] at hopen
  split_ifs at hopen with hclosed
  rw [Bool.or_eq_true, decide_eq_true_eq, not_or, Bool.not_eq_true] at hclosed
  exact ⟨hclosed.1, hclosed.2, (Option.some.inj hopen).symm⟩

/-- A login's row is not opened, so that no request of an opened key's row is a login's. -/
theorem key_iff (hid : ∃ c : Cell, row.id = groupOf .key (dims.map c.dim))
    (hlogin : hasPrefix row.id (loginKey ++ (":" : GoString)) = false) (e : Event) :
    groupOf .key (dims.map e.text) = row.id ↔ e.text "api_key" = row.id := by
  have hgroup {key user : GoString}
    (h : (if key = loginKey then loginKey ++ (":" : GoString) ++ user else key) = row.id) :
      key ≠ loginKey := by
    rintro rfl
    rw [if_pos rfl] at h
    have hprefix : hasPrefix row.id (loginKey ++ (":" : GoString)) = true :=
      h ▸ List.isPrefixOf_iff_prefix.mpr (List.prefix_append _ _)
    simp [hlogin] at hprefix
  obtain ⟨c, hc⟩ := hid
  have hne : row.id ≠ loginKey := by
    intro hid
    have hkey : c.key ≠ loginKey := hgroup hc.symm
    rw [hc] at hid
    exact hkey ((if_neg hkey).symm.trans hid)
  constructor
  · exact fun h => (if_neg (hgroup h)).symm.trans h
  · exact fun h => (if_neg (h ▸ hne)).trans h

/-- A row's link opens the receipts of the requests it counts where the link agrees with the row. -/
theorem opens_iff (hopen : trafficHref dim row = some href)
    (hid : ∃ c : Cell, row.id = groupOf dim (dims.map c.dim))
    (hlogin : row.noDrill = false → hasPrefix row.id (loginKey ++ (":" : GoString)) = false) :
    OpensCounted requests dim row.id (filterOf href since before) ↔
    LinkAgrees requests row.id dim := by
  obtain ⟨hdrill, hdim, rfl⟩ := trafficHref_some hopen
  have hmatch (e : Event) := link_match dim row.id since before e
  cases dim with
  | provider => exact absurd rfl hdim
  | team => exact iff_of_true (fun e _ => by rw [hmatch, decide_eq_true_eq]; rfl) trivial
  | model => exact iff_of_true (fun e _ => by rw [hmatch, decide_eq_true_eq]; rfl) trivial
  | key => exact iff_of_true (fun e _ => by rw [hmatch, decide_eq_true_eq]; exact key_iff hid (hlogin hdrill) e) trivial
  | person => exact forall₂_congr fun e _ => by rw [hmatch]; exact iff_true_right rfl
  | project =>
    refine forall₂_congr fun e _ => ?_
    rw [hmatch, decide_eq_true_eq]
    have hresource : groupOf .project (dims.map e.text) = e.text "model_resource" := rfl
    rw [hresource]
    constructor
    · intro hsame
      have hnot : e.text "model_resource" ≠ row.id := by
        intro hid
        exact projectID_ne _ _ ((hsame.mp hid).trans hid.symm)
      exact ⟨hnot, fun hid => hnot (hsame.mpr hid)⟩
    · rintro ⟨hnot, hnot'⟩
      exact iff_of_false hnot hnot'

/-- Where the receipts differ, so do their numbers, unless a project's row has a project's id. -/
theorem opens_of_count (hopen : trafficHref dim row = some href)
    (hslash : dim = .project → (47 : UInt8) ∉ row.id)
    (hid : ∃ c : Cell, row.id = groupOf dim (dims.map c.dim))
    (hlogin : row.noDrill = false → hasPrefix row.id (loginKey ++ (":" : GoString)) = false)
    (hcount : requests.countP (fun e => groupOf dim (dims.map e.text) = row.id) =
      requests.countP (fun e => (filterOf href since before).matchReceipt (receiptFrom e))) :
    LinkAgrees requests row.id dim := by
  obtain ⟨_, hdim, rfl⟩ := trafficHref_some hopen
  have hmatch (e : Event) := link_match dim row.id since before e
  cases dim with
  | provider => exact absurd rfl hdim
  | team => trivial
  | model => trivial
  | key => trivial
  | person =>
    have hall : requests.countP
      (fun e => (filterOf (fun name => if name = SpendDim.person.value then [row.id] else [])
        since before).matchReceipt (receiptFrom e)) = requests.length :=
          List.countP_eq_length.mpr fun e _ => hmatch e
    rw [hall, List.countP_eq_length] at hcount
    exact fun e he => of_decide_eq_true (hcount e he)
  | project =>
    have hother (e : Event) : projectID (e.text "team") (e.text "model_resource") ≠ row.id := by
      intro hid
      exact hslash rfl (hid ▸ slash_mem_projectID _ _)
    have hnone : requests.countP
      (fun e => (filterOf (fun name => if name = SpendDim.project.value then [row.id] else [])
        since before).matchReceipt (receiptFrom e)) = 0 := by
      refine List.countP_eq_zero.mpr fun e _ => ?_
      rw [hmatch, decide_eq_true_eq]
      exact hother e
    rw [hnone, List.countP_eq_zero] at hcount
    exact fun e he => ⟨fun hid => hcount e he (decide_eq_true hid), hother e⟩

private theorem count_of_opens {f : ReceiptFilter} (h : OpensCounted requests dim row.id f) :
    requests.countP (fun e => groupOf dim (dims.map e.text) = row.id) =
      requests.countP (fun e => f.matchReceipt (receiptFrom e)) :=
  List.countP_congr fun e he => by rw [decide_eq_true_eq]; exact h e he

end Opened

/-- A row that the page lets the user open counts the receipts its link opens, if and only if
what the link compares is what the row is grouped by, for the window's requests. The number
alone tells, unless the id of a project's row has a slash. -/
theorem drill_iff (s : Server) (om : (q : Request) → Answer q) (log : List Event) (dim : SpendDim)
    (prevStart start stop : Int)
    (rows : List SpendRow) (row : SpendRow) (href : Values) (hcounts : CountsRequests log om)
    (hcosts : CostsOf log om)
    (hapart : KeptApart log (groupOf dim)) (hstart : 0 < start) (hstop : 0 < stop)
    (hrows : answer om (breakdown s dim.value prevStart start stop) = .ok rows) (hrow : row ∈ rows)
    (hopen : trafficHref dim row = some href) :
    ∃ count, answer om (receiptCount s (filterOf href start stop)) = .ok (count, start) ∧
      (row.requests = count ∧
        OpensCounted (requestsIn log (start / 1000) (stop / 1000)) dim row.id
        (filterOf href start stop) ↔
        LinkAgrees (requestsIn log (start / 1000) (stop / 1000)) row.id dim) ∧
      ((dim = .project → (47 : UInt8) ∉ row.id) →
        (row.requests = count ↔
          LinkAgrees (requestsIn log (start / 1000) (stop / 1000)) row.id dim)) := by
  obtain ⟨_, hdim, _⟩ := trafficHref_some hopen
  obtain ⟨hrequests, hid, hlogin⟩ := breakdown_requests hcounts hcosts hapart hdim hrows hrow
  refine ⟨_, receiptCount_ok s hcounts hstart hstop, ?_⟩
  have hbounds : matchesBetween log (filterOf href start stop)
    ((filterOf href start stop).since / 1000 * 1000)
      ((filterOf href start stop).before / 1000 * 1000) = _ := matchesBetween_seconds _ _ _
  rw [hrequests, hbounds]
  have hopens := @opens_iff dim
    (requestsIn log (start / 1000) (stop / 1000)) row href start stop hopen hid hlogin
  refine ⟨⟨fun h => hopens.mp h.2, fun h => ⟨count_of_opens (hopens.mpr h), hopens.mpr h⟩⟩,
    fun hslash => ?_⟩
  exact ⟨opens_of_count hopen hslash hid hlogin, fun h => count_of_opens (hopens.mpr h)⟩

end Links

/-- A request of the research team to the chat model. -/
def chatRequest : Event :=
  { served "r-1" 5000 with
    data := GoMap.ofList [("team", .text "research"), ("user", .text "alice"),
      ("api_key", .text "k-1"),
      ("model", .text "llama"), ("model_resource", .text "chat"), ("response_code", .text "200")] }

private theorem chat_breakdown (dim : SpendDim) (hdim : dim = .project ∨ dim = .team) :
    answer (openMeter [chatRequest]) (breakdown plainServer dim.value 1000 4000 9000) =
      .ok [{ id := groupOf dim (dims.map chatRequest.text), label := groupOf dim (dims.map chatRequest.text), requests := 1 }] := by
  have hcur : answer (openMeter [chatRequest]) (usage 4000 9000 none) = .ok
      [{ start := 4000, team := "research", user := "alice", key := "k-1", model := "llama", resource := "chat",
         provider := [], requests := 1 }] := rfl
  have hprev : answer (openMeter [chatRequest]) (usage 1000 4000 none) = .ok [] := rfl
  rw [breakdown, answer_bind_of_ok hcur, answer_bind_of_ok hprev]
  refine congrArg Except.ok ?_
  have hzero : (0 : Rat) + 0 = 0 := add_zero 0
  rcases hdim with rfl | rfl <;>
  · refine (List.mergeSort_singleton _).trans (congrArg (fun x => [x]) ?_)
    change SpendRow.mk _ _ ((0 : Rat) + 0) _ _ _ _ _ = _
    rw [hzero]
    rfl

/-- What is priced in a log has the dimensions of one of its events. -/
theorem openMeter_costs (log : List Event) : CostsOf log (openMeter log) := by
  intro id start stop w rows h r hr
  rw [← Except.ok.inj h] at hr
  cases hr

private theorem chat_kept (dim : SpendDim) : KeptApart [chatRequest] (groupOf dim) := by
  intro e he e' he' _
  rw [List.mem_singleton.mp he, List.mem_singleton.mp he']

/-- The row of a team and the list its link opens count the same request. -/
theorem chat_team_agrees : ∃ count,
    answer (openMeter [chatRequest]) (receiptCount plainServer
      (filterOf (fun name => if name = SpendDim.team.value then [lit "research"] else []) 4000
        9000)) = .ok (count, 4000) ∧
    1 = count ∧ OpensCounted (requestsIn [chatRequest] (4000 / 1000) (9000 / 1000)) .team "research"
      (filterOf (fun name => if name = SpendDim.team.value then [lit "research"] else []) 4000
        9000) := by
  obtain ⟨count, hcount, hagrees, _⟩ :=
    drill_iff plainServer (openMeter [chatRequest]) [chatRequest] .team 1000 4000 9000 _
    { id := "research", label := "research", requests := 1 } _ (openMeter_counts _)
      (openMeter_costs _)
    (chat_kept .team) (by decide) (by decide)
      (chat_breakdown .team (Or.inr rfl)) List.mem_cons_self rfl
  exact ⟨count, hcount, hagrees.mpr trivial⟩

/-- The row of a project counts its request; the link asks for a project of another id. -/
theorem chat_project_differs : ∃ row,
    CountsRequests [chatRequest] (openMeter [chatRequest]) ∧
    answer (openMeter [chatRequest]) (breakdown plainServer SpendDim.project.value 1000 4000 9000) =
      .ok [row] ∧
    trafficHref .project row =
      some (fun name => if name = SpendDim.project.value then [row.id] else []) ∧ row.requests = 1 ∧
    answer (openMeter [chatRequest]) (receiptCount plainServer
      (filterOf (fun name => if name = SpendDim.project.value then [row.id] else []) 4000 9000)) = .ok (0, 4000) := by
  refine ⟨_, openMeter_counts _, chat_breakdown .project (Or.inl rfl), rfl, rfl, ?_⟩
  rw [receiptCount_ok plainServer (openMeter_counts _) (by decide) (by decide)]
  rfl

end openmeter
