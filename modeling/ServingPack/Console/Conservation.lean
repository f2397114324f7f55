import ServingPack.Console.Drill

open golang concurrency

namespace openmeter

/-- The Overview's totals of a window. -/
structure WindowTotals where
  requests : Nat := 0
  spendUSD : Rat := 0
  /-- The requests with no price: in `requests`, not in `spendUSD`. -/
  unpriced : Nat := 0

def totals (s : Server) (cells : List Cell) : WindowTotals :=
  let w := cells.foldl (fun (w : WindowTotals) c =>
    { requests := w.requests + c.requests
      spendUSD := w.spendUSD + c.usd
      unpriced := if c.unpriced then w.unpriced + c.requests else w.unpriced }) {}
  { w with spendUSD := s.roundUSD w.spendUSD }

/-- The totals of `[start, stop)`. -/
def windowTotals (s : Server) (start stop : Int) : Call WindowTotals := do
  let cells ← usage start stop none
  pure (totals s cells)

/-- A feature whose tokens have OpenMeter's prices. -/
def Feature.llmPriced (f : Feature) : Bool := f.unitCost.any (fun u => decide (u.type = lit "llm"))

/-- What OpenMeter answers about a window: the cost rows of each priced feature, and the rows
of the requests. -/
structure AnswersWindow (om : (q : Request) → Answer q) (start stop : Int) (fs : List Feature)
    (costs : Feature → List CostRow) (requests : List MeterRow) : Prop where
  features : om .features = .ok fs
  costs : ∀ f ∈ fs, f.llmPriced = true →
    om (.cost f.id (start / 1000) (stop / 1000) none) = .ok (costs f)
  requests : om (.meter "llm_requests" (start / 1000) (stop / 1000) none dims) = .ok requests

/-- The cost rows of the priced features. -/
def llmRows (fs : List Feature) (costs : Feature → List CostRow) : List CostRow :=
  (fs.filter Feature.llmPriced).flatMap costs

section Usage

variable {om : (q : Request) → Answer q} {start stop : Int} {fs : List Feature}
  {costs : Feature → List CostRow}
  {requests : List MeterRow} {providers : GoMap GoString} {cells : List Cell}

/-- The tokens of a row, as a whole number. -/
def CostRow.tokens (r : CostRow) : Int := r.usage.num.tdiv r.usage.den

private theorem CostRow.tokens_eq {r : CostRow} (h : r.usage.den = 1) :
    (r.tokens : Rat) = r.usage := by
  rw [CostRow.tokens, h, Nat.cast_one, Int.tdiv_one]
  exact Rat.coe_int_num_of_den_eq_one h

private theorem addCosts_answered
    (hcosts : ∀ f ∈ fs, f.llmPriced = true →
      om (.cost f.id (start / 1000) (stop / 1000) none) = .ok (costs f))
    (cells : List Cell) : answer om (addCosts start stop none providers cells fs) =
      .ok ((llmRows fs costs).foldl (addCostRow start none providers) cells) := by
  induction fs generalizing cells with
  | nil => rfl
  | cons f rest ih =>
    obtain ⟨hf, hrest⟩ := List.forall_mem_cons.mp hcosts
    rw [addCosts, llmRows, List.filter_cons]
    have hany : f.unitCost.any (fun u => decide (u.type = lit "llm")) = f.llmPriced := rfl
    rw [hany]
    by_cases hllm : f.llmPriced = true
    · have hrows : answer om (costQuery f.id start stop none) = .ok (costs f) := hf hllm
      rw [if_pos hllm, if_pos hllm, answer_bind_of_ok hrows, ih hrest, List.flatMap_cons,
        List.foldl_append, llmRows]
    · rw [if_neg hllm, if_neg hllm]
      exact ih hrest cells

/-- The cells of a window that is answered. -/
theorem usage_answered (h : AnswersWindow om start stop fs costs requests) :
    answer om (usage start stop none) =
    .ok (requests.foldl (addMeterRow start none (providersOf fs))
      ((llmRows fs costs).foldl (addCostRow start none (providersOf fs)) [])) := by
  have hfeatures : answer om features = .ok fs := h.features
  have hrequests : answer om (meterQuery "llm_requests" start stop none dims) = .ok requests :=
    h.requests
  rw [usage, answer_bind_of_ok hfeatures, answer_bind_of_ok (addCosts_answered h.costs []),
    answer_bind_of_ok hrequests]
  rfl

/-- Whatever cells the rows meet, their costs, tokens and requests are added up. -/
theorem cells_sums (costRows : List CostRow) (requests : List MeterRow) :
    let cells := requests.foldl (addMeterRow start none providers)
      (costRows.foldl (addCostRow start none providers) [])
    sumOf Cell.usd cells = sumOf (fun r => r.cost.getD 0) costRows ∧
      sumOf Cell.tokens cells = sumOf CostRow.tokens costRows ∧
      sumOf Cell.requests cells = sumOf MeterRow.value requests := by
  have hcost {M : Type} [AddCommMonoid M] {weight : Cell → M} {amount : CostRow → M}
      (hadd : ∀ r c, weight (Cell.addCost r c) = weight c + amount r)
      (hzero : ∀ rowStart g, weight (cellAt start none providers rowStart g) = 0) :
      sumOf weight (costRows.foldl (addCostRow start none providers) []) =
        sumOf amount costRows := by
    have hnew : ∀ r : CostRow,
        weight (Cell.addCost r (cellAt start none providers r.start r.field)) = amount r := by
      intro r
      rw [hadd, hzero, zero_add]
    exact (sumOf_foldl_upsert hnew hadd costRows []).trans (zero_add _)
  have hmeter {M : Type} [AddCommMonoid M] {weight : Cell → M} {amount : MeterRow → M}
    (cells : List Cell)
      (hadd : ∀ r c, weight (Cell.addRequests r c) = weight c + amount r)
      (hzero : ∀ rowStart g, weight (cellAt start none providers rowStart g) = 0) :
      sumOf weight (requests.foldl (addMeterRow start none providers) cells) =
        sumOf weight cells + sumOf amount requests := by
    have hnew : ∀ r : MeterRow,
        weight (Cell.addRequests r (cellAt start none providers r.windowStart r.field)) =
        amount r := by
      intro r
      rw [hadd, hzero, zero_add]
    exact sumOf_foldl_upsert hnew hadd requests cells
  have husd : ∀ r c, (Cell.addCost r c).usd = c.usd + r.cost.getD 0 := by
    intro r c
    unfold Cell.addCost
    cases r.cost with
    | none => exact (add_zero c.usd).symm
    | some usd => rfl
  have htokens : ∀ r c, (Cell.addCost r c).tokens = c.tokens + r.tokens := by
    intro r c
    unfold Cell.addCost
    cases r.cost <;> rfl
  have hrequests : ∀ r c, (Cell.addCost r c).requests = c.requests + 0 := by
    intro r c
    unfold Cell.addCost
    cases r.cost <;> rfl
  refine ⟨?_, ?_, ?_⟩
  · rw [@hmeter Rat _ Cell.usd (fun _ => 0) _ (fun r c => (add_zero c.usd).symm) (fun _ _ => rfl),
      sumOf_zero, add_zero, hcost husd (fun _ _ => rfl)]
  · rw [@hmeter Int _ Cell.tokens (fun _ => 0) _ (fun r c => (add_zero c.tokens).symm)
      (fun _ _ => rfl), sumOf_zero, add_zero, hcost htokens (fun _ _ => rfl)]
  · rw [hmeter _ (fun r c => rfl) (fun _ _ => rfl), hcost hrequests (fun _ _ => rfl), sumOf_zero,
      zero_add]

end Usage

section Rows

variable {s : Server} {cur prev : List Cell}

private theorem totals_eq (hround : ∀ usd, s.roundUSD usd = usd) (cells : List Cell) :
    (totals s cells).requests = sumOf Cell.requests cells ∧
    (totals s cells).spendUSD = sumOf Cell.usd cells ∧
      (totals s cells).unpriced = sumOf (fun c => if c.unpriced then c.requests else 0) cells := by
  have hfold : ∀ (cells : List Cell) (w : WindowTotals),
      cells.foldl (fun (w : WindowTotals) c =>
        { requests := w.requests + c.requests
          spendUSD := w.spendUSD + c.usd
          unpriced := if c.unpriced then w.unpriced + c.requests else w.unpriced }) w =
        { requests := w.requests + sumOf Cell.requests cells
          spendUSD := w.spendUSD + sumOf Cell.usd cells
          unpriced := w.unpriced + sumOf
            (fun c => if c.unpriced then c.requests else 0) cells } := by
    intro cells
    induction cells with
    | nil => exact fun w => by simp
    | cons c rest ih =>
      intro w
      rw [List.foldl_cons, ih, sumOf_cons, sumOf_cons, sumOf_cons]
      cases c.unpriced <;> simp [add_assoc]
  simp only [totals, hfold, hround]
  simp

/-- The rows before they are shown: each sum over them is the sum over the cells. -/
theorem rows_sums (field : GoString) (cur prev : List Cell) :
    let rows := prev.foldl (addRow field SpendRow.addPrev)
      (cur.foldl (addRow field SpendRow.addCell) [])
    (rows.map SpendRow.id).Nodup ∧ sumOf SpendRow.spendUSD rows = sumOf Cell.usd cur ∧
      sumOf SpendRow.tokens rows = sumOf Cell.tokens cur ∧
        sumOf SpendRow.requests rows = sumOf Cell.requests cur ∧
      sumOf SpendRow.unpriced rows = sumOf (fun c => if c.unpriced then c.requests else 0) cur := by
  have hsum {M : Type} [AddCommMonoid M] {weight : SpendRow → M} {amount : Cell → M}
      (hcell : ∀ c x, weight (SpendRow.addCell c x) = weight x + amount c)
      (hprev : ∀ c x, weight (SpendRow.addPrev c x) = weight x + 0)
      (hzero : ∀ id, weight { id := id, label := id } = 0) :
      sumOf weight (prev.foldl (addRow field SpendRow.addPrev)
        (cur.foldl (addRow field SpendRow.addCell) [])) =
        sumOf amount cur := by
    have hnewCell : ∀ c, weight
        (SpendRow.addCell c { id := group c field, label := group c field }) = amount c := by
      intro c
      rw [hcell, hzero, zero_add]
    have hnewPrev : ∀ c, weight
        (SpendRow.addPrev c { id := group c field, label := group c field }) = 0 := by
      intro c
      rw [hprev, hzero, zero_add]
    have hcur := @sumOf_foldl_upsert _ _ _ _ _ SpendRow.id _ _ _ weight amount hnewCell hcell cur []
    refine (sumOf_foldl_upsert hnewPrev hprev prev _).trans ?_
    rw [sumOf_zero, add_zero]
    exact hcur.trans (zero_add _)
  refine ⟨?_, hsum (fun _ _ => rfl) (fun _ x => (add_zero x.spendUSD).symm) (fun _ => rfl),
    hsum (fun _ _ => rfl) (fun _ x => (add_zero x.tokens).symm) (fun _ => rfl),
    hsum (fun _ _ => rfl) (fun _ _ => rfl) (fun _ => rfl),
      hsum (fun _ _ => rfl) (fun _ _ => rfl) (fun _ => rfl)⟩
  have hcur : ((cur.foldl (addRow field SpendRow.addCell) []).map SpendRow.id).Nodup :=
    @nodup_foldl_upsert _ _ _ SpendRow.id [] _ _ SpendRow.addCell
      (fun _ _ => rfl) cur List.nodup_nil
  exact @nodup_foldl_upsert _ _ _ SpendRow.id _ _ _ SpendRow.addPrev (fun _ _ => rfl) prev hcur

private theorem finish_sums (hround : ∀ usd, s.roundUSD usd = usd) (x : SpendRow) :
    (x.finish s).spendUSD = x.spendUSD ∧
    (x.finish s).tokens = x.tokens ∧ (x.finish s).requests = x.requests ∧
    (x.finish s).unpriced = x.unpriced := by
  unfold SpendRow.finish
  dsimp only
  split_ifs <;> exact ⟨hround _, rfl, rfl, rfl⟩

/-- The rows as they are shown have the sums of the cells, one row for each id, biggest spend
first. -/
theorem spendRows_sums (hround : ∀ usd, s.roundUSD usd = usd) (by_ : GoString)
    (cur prev : List Cell) :
    sumOf SpendRow.spendUSD (spendRows s by_ cur prev) = sumOf Cell.usd cur ∧
      sumOf SpendRow.tokens (spendRows s by_ cur prev) = sumOf Cell.tokens cur ∧
      sumOf SpendRow.requests (spendRows s by_ cur prev) = sumOf Cell.requests cur ∧
      sumOf SpendRow.unpriced (spendRows s by_ cur prev) =
        sumOf (fun c => if c.unpriced then c.requests else 0) cur ∧
      ((spendRows s by_ cur prev).map SpendRow.id).Nodup ∧
      (spendRows s by_ cur prev).Pairwise (fun a b => b.spendUSD ≤ a.spendUSD) := by
  obtain ⟨hnodup, husd, htokens, hrequests, hunpriced⟩ :=
    rows_sums ((spendDims.lookup by_).getD []) cur prev
  rw [spendRows]
  generalize prev.foldl (addRow ((spendDims.lookup by_).getD []) SpendRow.addPrev)
    (cur.foldl (addRow ((spendDims.lookup by_).getD []) SpendRow.addCell) []) =
      rows at hnodup husd htokens hrequests hunpriced
  have hperm := List.mergeSort_perm (rows.map (SpendRow.finish s)) (fun a b =>
    decide (b.spendUSD < a.spendUSD ∨ a.spendUSD = b.spendUSD ∧ golang.le a.id b.id))
  have hshown {M : Type} [AddCommMonoid M] {weight : SpendRow → M}
    (h : ∀ x, weight (x.finish s) = weight x) :
      sumOf weight ((rows.map (SpendRow.finish s)).mergeSort (fun a b =>
        decide (b.spendUSD < a.spendUSD ∨ a.spendUSD = b.spendUSD ∧ golang.le a.id b.id))) =
          sumOf weight rows := by
    rw [sumOf_perm hperm, sumOf, List.map_map]
    exact congrArg List.sum (List.map_congr_left fun x _ => h x)
  refine ⟨(hshown fun x => (finish_sums hround x).1).trans husd,
    (hshown fun x => (finish_sums hround x).2.1).trans htokens,
    (hshown fun x => (finish_sums hround x).2.2.1).trans hrequests,
    (hshown fun x => (finish_sums hround x).2.2.2).trans hunpriced, ?_, ?_⟩
  · apply (hperm.map SpendRow.id).nodup_iff.mpr
    rw [List.map_map]
    have hids : rows.map (SpendRow.id ∘ SpendRow.finish s) = rows.map SpendRow.id :=
      List.map_congr_left fun x _ => finish_id x
    rw [hids]
    exact hnodup
  · refine (List.pairwise_mergeSort ?_ ?_ _).imp fun {a b} h => ?_
    · intro a b c hab hbc
      simp only [decide_eq_true_eq] at hab hbc ⊢
      obtain hab | ⟨hab, hidab⟩ := hab
      · obtain hbc | ⟨hbc, _⟩ := hbc
        · exact .inl (hbc.trans hab)
        · exact .inl (hbc ▸ hab)
      · obtain hbc | ⟨hbc, hidbc⟩ := hbc
        · exact .inl (hab ▸ hbc)
        · exact .inr ⟨hab.trans hbc, IsTrans.trans _ _ _ hidab hidbc⟩
    · intro a b
      simp only [Bool.or_eq_true, decide_eq_true_eq]
      obtain h | h | h := lt_trichotomy a.spendUSD b.spendUSD
      · exact .inr (.inl h)
      · obtain hid | hid := Std.Total.total (r := golang.le) a.id b.id
        · exact .inl (.inr ⟨h, hid⟩)
        · exact .inr (.inr ⟨h.symm, hid⟩)
      · exact .inl (.inl h)
    · obtain h | ⟨h, _⟩ := of_decide_eq_true h
      · exact le_of_lt h
      · exact le_of_eq h.symm

end Rows

/-- Along every dimension, the breakdown conserves what OpenMeter answers: the costs and
the tokens of the priced features, and the requests. It agrees with the totals. -/
theorem breakdown_conserves (s : Server) (om : (q : Request) → Answer q) (by_ : GoString)
    (prevStart start stop : Int) (fs : List Feature) (costs prevCosts : Feature → List CostRow)
    (requests prevRequests : List MeterRow)
    (hround : ∀ usd, s.roundUSD usd = usd) (hcounts : ∀ r ∈ llmRows fs costs, r.usage.den = 1)
    (hcur : AnswersWindow om start stop fs costs requests)
    (hprev : AnswersWindow om prevStart start fs prevCosts prevRequests) :
    ∃ rows t, answer om (breakdown s by_ prevStart start stop) = .ok rows ∧
    answer om (windowTotals s start stop) = .ok t ∧
      sumOf SpendRow.spendUSD rows = sumOf (fun r => r.cost.getD 0) (llmRows fs costs) ∧
      ((sumOf SpendRow.tokens rows : Int) : Rat) = sumOf CostRow.usage (llmRows fs costs) ∧
      sumOf SpendRow.requests rows = sumOf MeterRow.value requests ∧
      sumOf SpendRow.requests rows = t.requests ∧ sumOf SpendRow.spendUSD rows = t.spendUSD ∧
      sumOf SpendRow.unpriced rows = t.unpriced ∧
      (rows.map SpendRow.id).Nodup ∧ rows.Pairwise (fun a b => b.spendUSD ≤ a.spendUSD) := by
  have hcells := usage_answered hcur
  have hbreakdown : answer om (breakdown s by_ prevStart start stop) = _ :=
    (answer_bind_of_ok hcells).trans (answer_bind_of_ok (usage_answered hprev))
  have htotals : answer om (windowTotals s start stop) = _ := answer_bind_of_ok hcells
  obtain ⟨husd, htokens, hrequests⟩ :=
    @cells_sums start (providersOf fs) (llmRows fs costs) requests
  generalize requests.foldl (addMeterRow start none (providersOf fs))
    ((llmRows fs costs).foldl (addCostRow start none (providersOf fs)) []) =
      cells at hbreakdown htotals husd htokens hrequests
  obtain ⟨hrowUSD, hrowTokens, hrowRequests, hrowUnpriced, hnodup, hsorted⟩ :=
    spendRows_sums hround by_ cells _
  obtain ⟨htotalRequests, htotalUSD, htotalUnpriced⟩ := totals_eq hround cells
  refine ⟨_, _, hbreakdown, htotals, hrowUSD.trans husd, ?_, hrowRequests.trans hrequests, ?_, ?_,
    ?_, hnodup, hsorted⟩
  · rw [hrowTokens, htokens, sumOf, sumOf]
    refine (map_list_sum (Int.castAddHom Rat) _).trans ?_
    rw [List.map_map]
    exact congrArg List.sum (List.map_congr_left fun r hr => CostRow.tokens_eq (hcounts r hr))
  · exact hrowRequests.trans htotalRequests.symm
  · exact hrowUSD.trans htotalUSD.symm
  · exact hrowUnpriced.trans htotalUnpriced.symm

/-- Tokens with a price and tokens without one. -/
def chatCosts : List CostRow :=
  [{ usage := 120, cost := some 3, dimensions := GoMap.ofList [("team", some "research")], start := 0 },
    { usage := 30, cost := none, dimensions := GoMap.ofList [("team", some "sales")], start := 0 }]

def chatFeature : Feature :=
  { id := "f-1", filters := ∅, unitCost := some { type := "llm", provider := "openai" } }

def chatRequests : List MeterRow :=
  [{ groupBy := GoMap.ofList [("team", some "sales")], value := 2, windowStart := 0 }]

/-- An OpenMeter with one priced feature. -/
def pricedMeter : (q : Request) → Answer q
  | .features => .ok [chatFeature]
  | .cost _ _ _ _ => .ok chatCosts
  | .meter _ _ _ _ _ => .ok chatRequests
  | q => openMeter [] q

private theorem pricedMeter_answers (start stop : Int) :
    AnswersWindow pricedMeter start stop [chatFeature] (fun _ => chatCosts) chatRequests :=
  ⟨rfl, fun _ _ _ => rfl, rfl⟩

/-- A priced cost row of one team and an unpriced one of another: the breakdown's sums are the
rows' own and the totals'. -/
theorem chat_breakdown_conserves : ∃ rows t,
    answer pricedMeter (breakdown plainServer "team" 0 5000 9000) = .ok rows ∧
      answer pricedMeter (windowTotals plainServer 5000 9000) = .ok t ∧
      sumOf SpendRow.spendUSD rows =
        sumOf (fun r => r.cost.getD 0) (llmRows [chatFeature] (fun _ => chatCosts)) ∧
      ((sumOf SpendRow.tokens rows : Int) : Rat) = sumOf CostRow.usage
      (llmRows [chatFeature] (fun _ => chatCosts)) ∧
      sumOf SpendRow.requests rows = sumOf MeterRow.value chatRequests ∧
      sumOf SpendRow.requests rows = t.requests ∧ sumOf SpendRow.spendUSD rows = t.spendUSD ∧
      sumOf SpendRow.unpriced rows = t.unpriced ∧
      (rows.map SpendRow.id).Nodup ∧ rows.Pairwise (fun a b => b.spendUSD ≤ a.spendUSD) :=
  breakdown_conserves plainServer pricedMeter "team" 0 5000 9000 [chatFeature] (fun _ => chatCosts) (fun _ => chatCosts)
    chatRequests chatRequests (fun _ => rfl) (by decide) (pricedMeter_answers _ _) (pricedMeter_answers _ _)

end openmeter
