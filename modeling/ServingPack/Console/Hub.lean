import Mathlib.Data.List.Perm.Basic
import ServingPack.Console.Receipts
import ServingPack.Lib.Run

open golang concurrency

namespace openmeter

/-- How many polls' changes a stream may fall behind by before the newest are dropped. -/
def streamBuffer : Nat := 16

structure StreamChange where
  id : GoString
  data : GoString
  receipt : Receipt
  deriving DecidableEq

/-- What the hub has sent: each receipt's JSON by ID, for the receipts of the latest read only. -/
structure Streamed where
  sent : GoMap GoString := ∅

/-- Takes the newest receipts, newest first, and returns those that are new or changed since
they were sent, oldest first. -/
def Streamed.update (marshal : Receipt → GoString) (s : Streamed) (rs : List Receipt) :
    List StreamChange × Streamed :=
  let (out, next) := rs.reverse.foldl (fun (out, next) r =>
    let b := marshal r
    (if (s.sent.lookup r.id).getD [] ≠ b then out ++ [{ id := r.id, data := b, receipt := r }]
      else out, next.insert r.id b))
    ([], (∅ : GoMap GoString))
  (out, { sent := next })

namespace hub

/-- What a good read found: the changes since the read before it, and how many requests it
could not read. -/
structure Poll where
  changes : List StreamChange
  missed : Nat
  deriving DecidableEq

/-- The changes that a filter matches. -/
def Poll.batch (poll : Poll) (f : ReceiptFilter) : List StreamChange :=
  poll.changes.filter (fun c => f.matchReceipt c.receipt)

structure Subscriber where
  filter : ReceiptFilter
  /-- The batches in the channel, the next one first. -/
  changes : List (List StreamChange) := []
  /-- The channel `ready` is closed. -/
  ready : Bool
  dropped : Nat := 0

/-- Where a poller is in `run`. -/
inductive Place where
  | reading
  /-- It has read, and is about to lock the hub. -/
  | updated (poll : Poll)
  /-- It has locked the hub. -/
  | handing
  | waiting
  | returned
  deriving DecidableEq

structure Poller where
  cancelled : Bool := false
  sent : Streamed := {}
  place : Place := .reading

/-- What a poller that has locked the hub does next. -/
inductive Stage where
  /-- It goes on with the next subscriber. -/
  | next
  /-- It has counted what was missed for a subscriber. -/
  | missed (sub : Nat)
  /-- A subscriber's channel had no room for so many changes. -/
  | full (sub n : Nat)
  deriving DecidableEq

/-- The poller that has locked the hub, and the subscribers it has not come to. -/
structure Turn where
  poller : Nat
  poll : Poll
  todo : List Nat
  stage : Stage := .next

end hub

open hub

/-- The hub with every subscriber and poller there has been. -/
structure Hub where
  subs : List Nat := []
  /-- The poller that `stop` ends. -/
  stop : Option Nat := none
  baselined : Bool := false
  /-- The turn of the poller that holds the mutex. Subscribing and unsubscribing hold it for
  one step only. -/
  mu : Option Turn := none
  subscribers : List Subscriber := []
  pollers : List Poller := []

namespace hub

/-- What a step did that its subscribers see. -/
inductive Effect where
  /-- The channel `ready` was closed. -/
  | closed (sub : Nat)
  | unsubscribed (sub : Nat)
  /-- A poller hands out a good read. -/
  | polled (poller : Nat) (poll : Poll)
  | enqueued (sub : Nat) (batch : List StreamChange)
  | dropped (sub n : Nat)
  | received (sub : Nat) (batch : List StreamChange)
  | reported (sub n : Nat)
  deriving DecidableEq

end hub

namespace Hub

variable (h : Hub)

abbrev Next := Option (Hub × List Effect)

def setPlace (p : Nat) (place : Place) : Hub :=
  { h with pollers := h.pollers.modify p (fun q => { q with place := place }) }

def modifySub (sub : Nat) (f : Subscriber → Subscriber) : Hub :=
  { h with subscribers := h.subscribers.modify sub f }

/-- Every subscriber is told how many requests were missed, or changes left out. -/
def addDropped (sub n : Nat) : Hub := h.modifySub sub (fun s => { s with dropped := s.dropped + n })

def subscribe (f : ReceiptFilter) : Next :=
  if h.mu.isSome then none
  else
    let sub := h.subscribers.length
    let joined := { h with subs := h.subs ++ [sub], subscribers := h.subscribers ++ [{ filter := f, ready := h.baselined }] }
    let noted := if h.baselined then [.closed sub] else []
    if h.stop.isSome then some (joined, noted)
    else some ({ joined with stop := some h.pollers.length, pollers := h.pollers ++ [{}] }, noted)

def unsubscribe (sub : Nat) : Next :=
  if h.mu.isSome ∨ h.subscribers.length ≤ sub then none
  else
    let subs := h.subs.filter (· ≠ sub)
    match h.stop with
    | some p =>
      if subs = [] then
        some ({ h with
          subs := subs
          stop := none
          baselined := false
          pollers := h.pollers.modify p (fun q => { q with cancelled := true }) },
            [.unsubscribed sub])
      else some ({ h with subs := subs }, [.unsubscribed sub])
    | none => some ({ h with subs := subs }, [.unsubscribed sub])

/-- A poller's read has ended, with its receipts and how many requests were missed, or with an
error. -/
def read (marshal : Receipt → GoString) (p : Nat) (outcome : Option (List Receipt × Nat)) : Next :=
  match h.pollers[p]? with
  | some q =>
    if q.place ≠ .reading then none
    else if q.cancelled then some (h.setPlace p .returned, [])
    else
      match outcome with
      | none => some (h.setPlace p .waiting, [])
      | some (rs, missed) =>
        let (changes, sent) := q.sent.update marshal rs
        some ({ h with pollers := h.pollers.modify p (fun q =>
          { q with sent := sent, place := .updated { changes := changes, missed := missed } }) },
            [])
  | none => none

/-- A poller locks the hub; it comes to the subscribers in any order. -/
def lock (p : Nat) (order : List Nat) : Next :=
  match h.pollers[p]?.map (fun q : Poller => (q.place, q.cancelled)) with
  | some (.updated poll, cancelled) =>
    if h.mu.isSome then none
    else if cancelled then some (h.setPlace p .returned, [])
    else if order.Perm h.subs then
      some ({ h.setPlace p .handing with mu := some { poller := p, poll := poll, todo := order } },
        [.polled p poll])
    else none
  | _ => none

/-- The next subscriber is told of the requests that were missed. -/
def tellMissed : Next :=
  match h.mu with
  | some { poller, poll, todo := sub :: rest, stage := .next } =>
    let went := { h with mu := some { poller := poller, poll := poll, todo := rest, stage := .missed sub } }
    if 0 < poll.missed ∧ h.baselined
      then some (went.addDropped sub poll.missed, [.dropped sub poll.missed])
    else some (went, [])
  | _ => none

/-- The subscriber becomes ready, or gets the changes its filter matches if its channel has room. -/
def deliver : Next :=
  match h.mu with
  | some { poller, poll, todo, stage := .missed sub } =>
    match h.subscribers[sub]? with
    | some s =>
      let went (stage : Stage) :=
        { h with mu := some { poller := poller, poll := poll, todo := todo, stage := stage } }
      if !h.baselined then
        if s.ready then some (went .next, [])
        else some ((went .next).modifySub sub (fun s => { s with ready := true }), [.closed sub])
      else if poll.batch s.filter = [] then some (went .next, [])
      else if s.changes.length < streamBuffer then
        some ((went .next).modifySub sub
          (fun s => { s with changes := s.changes ++ [poll.batch s.filter] }),
          [.enqueued sub (poll.batch s.filter)])
      else some (went (.full sub (poll.batch s.filter).length), [])
    | none => none
  | _ => none

/-- The subscriber is told of the changes its channel had no room for. -/
def tellFull : Next :=
  match h.mu with
  | some { poller, poll, todo, stage := .full sub n } =>
    some ({ h with mu := some { poller := poller, poll := poll, todo := todo } }.addDropped sub n,
      [.dropped sub n])
  | _ => none

/-- The poller has come to every subscriber. -/
def unlock : Next :=
  match h.mu with
  | some { poller, poll := _, todo := [], stage := .next } =>
    some ({ h with baselined := true, mu := none }.setPlace poller .waiting, [])
  | _ => none

/-- The ticker has fired, which a poller that was ended may see as well. -/
def tick (p : Nat) : Next :=
  if h.pollers[p]?.map Poller.place = some .waiting then some (h.setPlace p .reading, []) else none

/-- A poller that was ended returns. -/
def halt (p : Nat) : Next :=
  if h.pollers[p]?.map (fun q => (q.place, q.cancelled)) = some (.waiting, true)
    then some (h.setPlace p .returned, []) else none

/-- A subscriber takes the next batch. -/
def receive (sub : Nat) : Next :=
  match h.subscribers[sub]?.map Subscriber.changes with
  | some (batch :: rest) =>
      some (h.modifySub sub (fun s => { s with changes := rest }), [.received sub batch])
  | _ => none

def takeDropped (sub : Nat) : Next :=
  match h.subscribers[sub]? with
  | some s => some (h.modifySub sub (fun s => { s with dropped := 0 }), [.reported sub s.dropped])
  | none => none

end Hub

namespace hub

inductive Action where
  | subscribe (f : ReceiptFilter)
  | unsubscribe (sub : Nat)
  | read (p : Nat) (outcome : Option (List Receipt × Nat))
  | lock (p : Nat) (order : List Nat)
  | tellMissed
  | deliver
  | tellFull
  | unlock
  | tick (p : Nat)
  | halt (p : Nat)
  | receive (sub : Nat)
  | takeDropped (sub : Nat)

def step (marshal : Receipt → GoString) (h : Hub) : Action → Option (Hub × List Effect)
  | .subscribe f => h.subscribe f
  | .unsubscribe sub => h.unsubscribe sub
  | .read p outcome => h.read marshal p outcome
  | .lock p order => h.lock p order
  | .tellMissed => h.tellMissed
  | .deliver => h.deliver
  | .tellFull => h.tellFull
  | .unlock => h.unlock
  | .tick p => h.tick p
  | .halt p => h.halt p
  | .receive sub => h.receive sub
  | .takeDropped sub => h.takeDropped sub

/-- What a subscriber has seen. -/
structure Account where
  /-- How often its `ready` was closed. -/
  closed : Nat := 0
  left : Bool := false
  /-- The good reads that were handed out since it became ready, until it left. -/
  polls : List Poll := []
  enqueued : List (List StreamChange) := []
  dropped : Nat := 0
  received : List (List StreamChange) := []
  reported : Nat := 0

def Account.note (id : Nat) (a : Account) : Effect → Account
  | .closed sub => if sub = id then { a with closed := a.closed + 1 } else a
  | .unsubscribed sub => if sub = id then { a with left := true } else a
  | .polled _ poll => if 0 < a.closed ∧ a.left = false then { a with polls := a.polls ++ [poll] }
      else a
  | .enqueued sub batch => if sub = id then { a with enqueued := a.enqueued ++ [batch] } else a
  | .dropped sub n => if sub = id then { a with dropped := a.dropped + n } else a
  | .received sub batch => if sub = id then { a with received := a.received ++ [batch] } else a
  | .reported sub n => if sub = id then { a with reported := a.reported + n } else a

/-- What a subscriber has seen in a run, whose effects come with the latest first. -/
def account (id : Nat) : List Effect → Account
  | [] => {}
  | e :: older => (account id older).note id e

end hub

end openmeter
