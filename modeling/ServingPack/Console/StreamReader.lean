import ServingPack.Console.Receipts

open golang concurrency

namespace openmeter

/-- How far back each poll of the live stream reads, in milliseconds. -/
def streamWindow : Int := 2 * 60 * 1000

/-- The hub's read of OpenMeter. -/
@[ext]
structure StreamReader where
  /-- Receipts in the window whose tokens are in, or that expect none, by ID. -/
  settled : GoMap Receipt := ∅
  /-- The newest time that was reported missed. -/
  missedTo : Int := 0
  /-- The newest receipt of the read before. -/
  prevNewest : Int := 0

namespace StreamReader

variable (s : Server)

/-- The time of the oldest receipt of a read that stopped early; such a read has receipts. -/
def oldest (rs : List Receipt) : Int := (rs.getLast?.map (fun r => (r.ts : Int))).getD 0

/-- The reader after it has noted the newest receipt of a read. -/
def noteNewest (sr : StreamReader) : List Receipt → StreamReader
  | [] => sr
  | r :: _ => { sr with prevNewest := r.ts }

/-- Reads the window, and counts the requests it had to leave out that it has not reported
before. -/
def scan (sr : StreamReader) : ServerM (List Receipt × Nat × StreamReader) := do
  let since := s.now - streamWindow
  let (rs, continueBefore) ← ServerM.lift (scanRequests (receiptScanCap + 1) { since := since })
  if 0 < continueBefore then
    let from_ := max (max since sr.missedTo) sr.prevNewest
    let to_ := oldest rs
    if from_ < to_ then
      let rows ← ServerM.lift (meterQuery "llm_requests" from_ to_ none [])
      pure (rs, (rows.map MeterRow.value).sum, { sr with missedTo := to_ }.noteNewest rs)
    else pure (rs, 0, sr.noteNewest rs)
  else pure (rs, 0, sr.noteNewest rs)

/-- The receipt has its tokens, or expects none. -/
def isSettled (r : Receipt) : Bool := r.verdict ≠ .allowed || 0 < r.inputTokens + r.outputTokens

/-- Completes the receipts that are not settled. -/
def settle (sr : StreamReader) (rs : List Receipt) : ServerM (List Receipt × StreamReader) := do
  let opened ← complete s (rs.filter (fun r => (sr.settled.lookup r.id).isNone))
  let completed := GoMap.ofList (opened.map (fun r => (r.id, r)))
  let done := rs.map (fun r => ((sr.settled.lookup r.id).or (completed.lookup r.id)).getD r)
  let settled := ((rs.zip done).filter (fun (_, r) => isSettled r)).map
    (fun (r, done) => (r.id, done))
  pure (done, { sr with settled := GoMap.ofList settled })

/-- A read returns the window's receipts, newest first, and how many requests it had to leave out
that it has not reported before. The reader it leaves is the one that was scanned with, also where
the receipts cannot be completed. -/
def read (sr : StreamReader) (cached : Option Pricer) :
    Program Request Answer (Except Failure (List Receipt × Nat) × StreamReader × Option Pricer) :=
  (sr.scan s cached).bind fun
    | (.error e, cached) => .pure (.error e, sr, cached)
    | (.ok (rs, missed, sr), cached) => (sr.settle s rs cached).bind fun
      | (.error e, cached) => .pure (.error e, sr, cached)
      | (.ok (rs, sr), cached) => .pure (.ok (rs, missed), sr, cached)

end StreamReader

end openmeter
