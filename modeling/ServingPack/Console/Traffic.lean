import ServingPack.Console.Paging
import ServingPack.Lib.Newest

open golang concurrency openmeter

namespace trafficFeed

/-- How many rows one request asks for. -/
def PAGE : Nat := 200

/-- What the list is narrowed to. Keys are named, as in the URL. -/
structure Filters where
  key : List GoString := []
  team : List GoString := []
  project : List GoString := []
  model : List GoString := []
  verdict : List GoString := []

/-- Epoch ms, the first inclusive and the second exclusive; none is open-ended. -/
structure TrafficWindow where
  since : Int
  before : Option Int

/-- A page of receipts, and where the server stopped looking. -/
structure Page where
  rows : List Receipt
  continueBefore : Option Int

structure Feed where
  rows : List Receipt := []
  /-- False until the first page arrives. -/
  loaded : Bool := false
  reachedEnd : Bool := false
  continueBefore : Option Int := none

section Feed

variable (keyID : GoString → GoString)

/-- The query that is sent. The server wants the ids of the keys. -/
def queryString (f : Filters) (w : TrafficWindow) : ReceiptFilter where
  key := f.key.map keyID
  team := f.team
  project := f.project
  model := f.model
  verdict := f.verdict
  since := w.since
  before := w.before.getD 0

/-- A page of `GET /receipts`. -/
def apiReceipts (s : Server) (q : ReceiptFilter) : ServerM Page := do
  let (rows, continueBefore) ← listReceipts s PAGE q
  pure { rows := rows, continueBefore := if 0 < continueBefore then some continueBefore else none }

/-- The rows of a page that are not among others. -/
def unseen (rows page : List Receipt) : List Receipt :=
  page.filter (fun r => r.id ∉ rows.map Receipt.id)

def mergeNewer (have_ page : List Receipt) : List Receipt :=
  if have_ = [] then page else (have_ ++ unseen have_ page).mergeSort (fun a b => b.ts ≤ a.ts)

/-- The list with its first page. -/
def Feed.first (feed : Feed) (page : Page) : Feed where
  rows := mergeNewer feed.rows page.rows
  loaded := true
  reachedEnd := page.rows.length < PAGE && page.continueBefore = none
  continueBefore := page.continueBefore

/-- Where older rows are asked for: where the server stopped looking, or just after the oldest
row. -/
def Feed.before (feed : Feed) : Option Int :=
  feed.continueBefore <|> feed.rows.getLast?.map (fun r => (r.ts : Int) + 1)

/-- The list with a page of older rows. -/
def Feed.older (feed : Feed) (page : Page) : Feed where
  rows := feed.rows ++ unseen feed.rows page.rows
  loaded := feed.loaded
  reachedEnd := page.continueBefore = none &&
    (page.rows.length < PAGE || unseen feed.rows page.rows = [])
  continueBefore := page.continueBefore

variable (s : Server) (om : (q : Request) → Answer q) (f : Filters) (w : TrafficWindow)

/-- Loads the first page. -/
def loadFirst (cached : Option Pricer) : Feed × Option Pricer :=
  match ServerM.eval om (apiReceipts s (queryString keyID f w)) cached with
  | (.ok page, cached') => (({} : Feed).first page, cached')
  | (.error _, cached') => ({ loaded := true }, cached')

def loadOlder (feed : Feed) (cached : Option Pricer) : Feed × Option Pricer :=
  if feed.reachedEnd || !feed.loaded then (feed, cached)
  else
    match feed.before with
    | none => (feed, cached)
    | some before =>
      match ServerM.eval om (apiReceipts s (queryString keyID f { w with before := some before }))
        cached with
      | (.ok page, cached') => (feed.older page, cached')
      | (.error _, cached') => (feed, cached')

/-- Loads some pages of older rows. -/
def loadOlders : Nat → Feed × Option Pricer → Feed × Option Pricer
  | 0, loaded => loaded
  | n + 1, (feed, cached) => loadOlders n (loadOlder keyID s om f w feed cached)

/-- Loading older rows after the first page comes to the end, with each receipt of
the window that matches once, newest first. -/
def ListsWindow (log : List Event) (cached : Option Pricer) : Prop :=
  ∃ n, let feed := (loadOlders keyID s om f w n (loadFirst keyID s om f w cached)).1
    feed.reachedEnd = true ∧
      (feed.rows.map Receipt.request).Perm (matchesIn log (queryString keyID f w)) ∧
      feed.rows.Pairwise (fun r r' => r'.ts ≤ r.ts)

end Feed

end trafficFeed
