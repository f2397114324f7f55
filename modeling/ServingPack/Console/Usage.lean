import ServingPack.Console.Counts

open golang concurrency

namespace openmeter

/-- The usage of one combination of the dimensions in one window. -/
structure Cell where
  start : Int
  team : GoString
  user : GoString
  key : GoString
  model : GoString
  resource : GoString
  /-- The price feature's provider for the resource. -/
  provider : GoString
  usd : Rat := 0
  /-- The cell's tokens have no price, so `usd` leaves them out. -/
  unpriced : Bool := false
  requests : Nat := 0
  tokens : Int := 0

def CostRow.field (r : CostRow) (name : GoString) : Option GoString :=
  (r.dimensions.lookup name).join

namespace Cell

def dim (c : Cell) (name : GoString) : GoString :=
  if name = "team" then c.team
  else if name = "user" then c.user
  else if name = "api_key" then c.key
  else if name = "model" then c.model
  else if name = "model_resource" then c.resource
  else if name = "provider" then c.provider
  else []

/-- Under what a cell is kept: its start, and its dimensions with a zero byte before each. -/
def mapKey (c : Cell) : Int × GoString := (c.start, dims.flatMap (fun d => 0 :: c.dim d))

end Cell

section Usage

variable (start stop : Int) (w : Option Window) (providers : GoMap GoString)

/-- An empty cell for a row's fields. -/
def cellAt (rowStart : Int) (g : GoString → Option GoString) : Cell :=
  let v (k : GoString) := (g k).getD []
  { start := if w = none then start else rowStart
    team := v "team"
    user := v "user"
    key := v "api_key"
    model := v "model"
    resource := v "model_resource"
    provider := (providers.lookup (v "model_resource")).getD [] }

/-- A cell with a row's tokens and cost. -/
def Cell.addCost (r : CostRow) (c : Cell) : Cell :=
  let c := { c with tokens := c.tokens + r.usage.num.tdiv r.usage.den }
  match r.cost with
  | none => { c with unpriced := true }
  | some usd => { c with usd := c.usd + usd }

def Cell.addRequests (r : MeterRow) (c : Cell) : Cell := { c with requests := c.requests + r.value }

def addCostRow (cells : List Cell) (r : CostRow) : List Cell :=
  upsert Cell.mapKey (cellAt start w providers r.start r.field) (Cell.addCost r) cells

def addMeterRow (cells : List Cell) (r : MeterRow) : List Cell :=
  upsert Cell.mapKey (cellAt start w providers r.windowStart r.field) (Cell.addRequests r) cells

/-- The cells with what each priced feature costs. -/
def addCosts : List Cell → List Feature → Call (List Cell)
  | cells, [] => pure cells
  | cells, f :: rest => do
    if f.unitCost.any (fun u => decide (u.type = lit "llm")) then do
      let rows ← costQuery f.id start stop w
      addCosts (rows.foldl (addCostRow start w providers) cells) rest
    else addCosts cells rest

/-- `[start, stop)` as cells, in windows of `w`. Cost and tokens come from each priced feature's
cost query, requests from the `llm_requests` meter. -/
def usage : Call (List Cell) := do
  let fs ← features
  let cells ← addCosts start stop w (providersOf fs) [] fs
  let reqs ← meterQuery "llm_requests" start stop w dims
  pure (reqs.foldl (addMeterRow start w (providersOf fs)) cells)

end Usage

end openmeter
