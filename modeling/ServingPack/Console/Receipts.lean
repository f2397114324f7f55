import ServingPack.Console.Prices

open golang concurrency

namespace openmeter

def requestEvent : GoString := "llm.request"
def tokensEvent : GoString := "llm.tokens"

/-- How many request events one read looks through for matches. -/
def receiptScanCap : Nat := 5000

/-- How many receipts' token events one call fetches by ID. -/
def tokenLookupBatch : Nat := 20

def tokenTypes : List GoString := ["input", "cache_read", "cache_write", "output", "reasoning"]

/-- A request's outcome. -/
inductive Verdict where
  | allowed
  | blocked
  | throttled
  | truncated
  deriving DecidableEq

def Verdict.text : Verdict → GoString
  | .allowed => "allowed"
  | .blocked => "blocked"
  | .throttled => "throttled"
  | .truncated => "truncated"

structure Receipt where
  id : GoString
  traceID : GoString
  /-- In milliseconds since the epoch. -/
  ts : Nat
  durationMS : Int
  keyID : GoString
  keyName : GoString
  team : GoString
  project : GoString
  projectID : GoString
  actor : GoString
  requestedModel : GoString
  resolvedModel : GoString
  backend : GoString
  inputTokens : Int := 0
  cachedInputTokens : Int := 0
  outputTokens : Int := 0
  reasoningTokens : Int := 0
  cacheWriteTokens : Int := 0
  costUSD : Option Rat := none
  verdict : Verdict
  status : Int
  errorCode : GoString := []
  errorDetail : GoString := []
  deriving DecidableEq

section Values

def str : Option Value → GoString
  | some (.text s) => s
  | _ => []

/-- A JSON number, or a number sent as a text. -/
def intOf : Option Value → Int
  | some (.number n) => n
  | some (.text s) => atoi s
  | _ => 0

def projectID (team resource : GoString) : GoString := team ++ ("/" : GoString) ++ resource

/-- The outcome from the status and whether the gateway reported usage. -/
def verdictOf (status : Int) (usageReported : GoString) : Verdict :=
  if status = 429 then .throttled
  else if 400 ≤ status then .blocked
  else if usageReported = "false" then .truncated
  else .allowed

/-- The decimal text of a number. -/
def itoaInt (n : Int) : GoString := if n < 0 then 45 :: itoa n.natAbs else itoa n.natAbs

def errorCode : Verdict → GoString
  | .throttled => "rate_limited"
  | .blocked => "refused"
  | .truncated => "no_usage_reported"
  | .allowed => []

def errorDetail (status : Int) (responseFlags : GoString) : Verdict → GoString
  | .blocked => ("The gateway refused this request (HTTP " : GoString) ++ itoaInt status ++
    (")." : GoString)
  | .truncated => ("The gateway reported no token counts for this request (Envoy response flags: " :
      GoString) ++
      responseFlags ++ (")." : GoString)
  | _ => []

def receiptFrom (e : Event) : Receipt :=
  let field (name : GoString) := str (e.data.lookup name)
  let status := atoi (field "response_code")
  let verdict := verdictOf status (field "usage_reported")
  { id := e.id
    traceID := e.id
    ts := e.time
    durationMS := intOf (e.data.lookup (lit "duration_ms"))
    keyID := field "api_key"
    keyName := field "api_key"
    team := field "team"
    project := field "model_resource"
    projectID := projectID (field "team") (field "model_resource")
    actor := field "user"
    requestedModel := field "model"
    resolvedModel := field "model"
    backend := field "model_resource"
    status := status
    verdict := verdict
    errorCode := errorCode verdict
    errorDetail := errorDetail status (field "response_flags") verdict }

end Values

section Filter

/-- Traffic's query: any of the values named for a dimension, and the time in
`[since, before)`, in milliseconds since the epoch. A bound of 0 is open. -/
structure ReceiptFilter where
  key : List GoString := []
  team : List GoString := []
  project : List GoString := []
  model : List GoString := []
  verdict : List GoString := []
  since : Int := 0
  before : Int := 0

/-- What a filter compares, for a receipt or a meter row. -/
structure Fields where
  key : GoString
  team : GoString
  project : GoString
  model : GoString
  verdict : GoString

namespace ReceiptFilter

variable (f : ReceiptFilter)

def admits (vals : List GoString) (v : GoString) : Bool := vals = [] || v ∈ vals

def match_ (v : Fields) : Bool :=
  admits f.key v.key && admits f.team v.team && admits f.project v.project &&
    admits f.model v.model &&
    admits f.verdict v.verdict

def matchReceipt (r : Receipt) : Bool :=
  f.match_ { key := r.keyID, team := r.team, project := r.projectID, model := r.resolvedModel, verdict := r.verdict.text }

/-- The query of the request events in the filter's window. -/
def query : EventQuery where
  typ := requestEvent
  since := if 0 < f.since then some f.since.toNat else none
  before := if 0 < f.before then some f.before.toNat else none

end ReceiptFilter

end Filter

section Scan

/-- How far a scan has come. -/
structure Scan where
  out : List Receipt := []
  continueBefore : Int := 0
  scanned : Nat := 0

/-- One event of a scan, and whether to go on. -/
def scanEvent (limit : Nat) (f : ReceiptFilter) (s : Scan) (e : Event) : Scan × Bool :=
  let out := if f.matchReceipt (receiptFrom e) then s.out ++ [receiptFrom e] else s.out
  if out.length < limit ∧ receiptScanCap ≤ s.scanned + 1 then
    ({ out := out, continueBefore := e.time + 1, scanned := s.scanned + 1 }, false)
  else ({ out := out, continueBefore := s.continueBefore, scanned := s.scanned + 1 },
    out.length < limit)

/-- The matching request events as receipts without tokens and cost, newest
first, and where to go on where the scan has stopped early. -/
def scanRequests (limit : Nat) (f : ReceiptFilter) : Call (List Receipt × Int) := do
  let s ← eachEvent (scanEvent limit f) f.query {}
  pure (s.out, s.continueBefore)

end Scan

section Tokens

def tokenEventID (id typ : GoString) : GoString := id ++ (":" : GoString) ++ typ

/-- The token events of some receipts, by ID and time: they carry their
request's time, in whole seconds. -/
def tokensQuery (batch : List Receipt) : EventQuery where
  typ := tokensEvent
  ids := batch.flatMap (fun r => tokenTypes.map (tokenEventID r.id))
  since := (batch.map (fun r => r.ts / 1000 * 1000)).min?
  before := (batch.map (fun r => r.ts / 1000 * 1000 + 1000)).max?

/-- What comes before and after the last separator. -/
def cutLast (sep : UInt8) : GoString → Option (GoString × GoString)
  | [] => none
  | c :: rest =>
    match cutLast sep rest with
    | some (before, after) => some (c :: before, after)
    | none => if c = sep then some ([], rest) else none

/-- Notes the count of a token event under its request's ID and its type. -/
def noteTokens (out : GoMap (GoMap Int)) (e : Event) : GoMap (GoMap Int) × Bool :=
  match cutLast 58 e.id with
  | some (id, typ) =>
    (out.insert id (((out.lookup id).getD ∅).insert typ (intOf (e.data.lookup (lit "tokens")))),
      true)
  | none => (out, true)

/-- The receipts in batches of `tokenLookupBatch`; `fuel` is at least their number. -/
def batches : Nat → List Receipt → List (List Receipt)
  | 0, _ => []
  | fuel + 1, rs => if rs = [] then []
      else rs.take tokenLookupBatch :: batches fuel (rs.drop tokenLookupBatch)

def lookupTokens : GoMap (GoMap Int) → List (List Receipt) → Call (GoMap (GoMap Int))
  | out, [] => pure out
  | out, batch :: rest => do
    let out ← eachEvent noteTokens (tokensQuery batch) out
    lookupTokens out rest

/-- Each receipt's count by token type. -/
def tokensOf (rs : List Receipt) : Call (GoMap (GoMap Int)) := lookupTokens ∅ (batches rs.length rs)

end Tokens

section Complete

def count (t : GoMap Int) (typ : GoString) : Int := (t.lookup typ).getD 0

/-- A receipt with its token counts. The input count includes what was cached. -/
def withTokens (r : Receipt) (t : GoMap Int) : Receipt :=
  { r with
    cachedInputTokens := count t "cache_read"
    cacheWriteTokens := count t "cache_write"
    inputTokens := count t "input" + count t "cache_read" + count t "cache_write"
    outputTokens := count t "output"
    reasoningTokens := count t "reasoning" }

variable (s : Server)

/-- Only requests that were served have a cost. -/
def completeReceipts (tokens : GoMap (GoMap Int)) : Pricer → List Receipt → ServerM (List Receipt)
  | _, [] => pure []
  | p, r :: rest => do
    let t := (tokens.lookup r.id).getD ∅
    if r.verdict = .allowed then do
      let (costUSD, p) ← cost s p r.backend r.resolvedModel t
      let done ← completeReceipts tokens p rest
      pure ({ withTokens r t with costUSD := costUSD.map s.roundUSD } :: done)
    else do
      let done ← completeReceipts tokens p rest
      pure (withTokens r t :: done)

/-- The receipts with their token counts and, for served requests, their cost. -/
def complete (rs : List Receipt) : ServerM (List Receipt) := do
  let tokens ← ServerM.lift (tokensOf rs)
  let prices ← pricer s
  completeReceipts s tokens prices rs

/-- The newest `limit` receipts that match, and where to go on where the read
has stopped before it found as many. -/
def listReceipts (limit : Nat) (f : ReceiptFilter) : ServerM (List Receipt × Int) := do
  let (out, continueBefore) ← ServerM.lift (scanRequests limit f)
  let out ← complete s out
  pure (out, continueBefore)

end Complete

end openmeter
