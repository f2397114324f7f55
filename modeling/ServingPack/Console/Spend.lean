import ServingPack.Console.Usage

open golang concurrency

namespace openmeter

/-- The collector's key for requests made with a Keycloak login. -/
def loginKey : GoString := "login"

/-- The event field each of the console's Spend dimensions groups by. -/
def spendDims : GoMap GoString :=
  GoMap.ofList [("team", "team"), ("person", "user"), ("key", "api_key"), ("model", "model"),
    ("project", "model_resource"), ("provider", "provider")]

structure SpendRow where
  id : GoString
  label : GoString
  spendUSD : Rat := 0
  prevSpendUSD : Rat := 0
  requests : Nat := 0
  tokens : Int := 0
  /-- The group's requests with no price: in `requests`, not in `spendUSD`. -/
  unpriced : Nat := 0
  /-- Traffic has no filter for the group. -/
  noDrill : Bool := false

/-- A cell's group under a field. Requests made with a login group by person:
they share one key. -/
def group (c : Cell) (field : GoString) : GoString :=
  if field = "api_key" ∧ c.key = loginKey then loginKey ++ (":" : GoString) ++ c.user
    else c.dim field

section Rows

/-- A row with what a cell of the window adds to it. -/
def SpendRow.addCell (c : Cell) (x : SpendRow) : SpendRow :=
  { x with
    spendUSD := x.spendUSD + c.usd
    requests := x.requests + c.requests
    tokens := x.tokens + c.tokens
    unpriced := x.unpriced + if c.unpriced then c.requests else 0 }

/-- A row with what a cell of the window before adds to it. -/
def SpendRow.addPrev (c : Cell) (x : SpendRow) : SpendRow :=
  { x with prevSpendUSD := x.prevSpendUSD + c.usd }

def addRow (field : GoString) (add : Cell → SpendRow → SpendRow) (rows : List SpendRow) (c : Cell) :
    List SpendRow :=
  upsert SpendRow.id { id := group c field, label := group c field } (add c) rows

/-- A row as it is shown. Traffic filters by key, and every login shares one. -/
def SpendRow.finish (s : Server) (x : SpendRow) : SpendRow :=
  let x :=
    if hasPrefix x.id (loginKey ++ (":" : GoString)) then
      { x with label := x.id.drop (loginKey.length + 1) ++ (" (Keycloak login)" : GoString), noDrill := true }
    else x
  { x with spendUSD := s.roundUSD x.spendUSD, prevSpendUSD := s.roundUSD x.prevSpendUSD }

/-- The cells summed by the dimension, biggest spend first. -/
def spendRows (s : Server) (by_ : GoString) (cur prev : List Cell) : List SpendRow :=
  let field := (spendDims.lookup by_).getD []
  let rows := cur.foldl (addRow field SpendRow.addCell) []
  let rows := prev.foldl (addRow field SpendRow.addPrev) rows
  (rows.map (SpendRow.finish s)).mergeSort (fun a b =>
    b.spendUSD < a.spendUSD ∨ a.spendUSD = b.spendUSD ∧ golang.le a.id b.id)

/-- The breakdown of `[start, stop)`, with the spend of `[prevStart, start)`. -/
def breakdown (s : Server) (by_ : GoString) (prevStart start stop : Int) : Call (List SpendRow) :=
  do
  let cur ← usage start stop none
  let prev ← usage prevStart start none
  pure (spendRows s by_ cur prev)

/-- The breakdown of the last `span` milliseconds. -/
def spend (s : Server) (by_ : GoString) (span : Int) : Call (List SpendRow) :=
  breakdown s (if (spendDims.lookup by_).isSome then by_ else "team") (s.now - 2 * span)
    (s.now - span) s.now

end Rows

section Links

/-- The dimensions the Spend page offers. -/
inductive SpendDim where
  | team
  | person
  | project
  | key
  | model
  | provider
  deriving DecidableEq

def SpendDim.value : SpendDim → GoString
  | .team => "team"
  | .person => "person"
  | .project => "project"
  | .key => "key"
  | .model => "model"
  | .provider => "provider"

/-- The parameters of a query, by name. -/
abbrev Values := GoString → List GoString

/-- What a row opens. Traffic has no provider filter: receipts carry none. -/
def trafficHref (dim : SpendDim) (r : SpendRow) : Option Values :=
  if r.noDrill || dim = .provider then none
    else some (fun name => if name = dim.value then [r.id] else [])

/-- The filter that a query sets, in a window. -/
def filterOf (q : Values) (since before : Int) : ReceiptFilter where
  key := q "key"
  team := q "team"
  project := q "project"
  model := q "model"
  verdict := q "verdict"
  since := since
  before := before

end Links

end openmeter
