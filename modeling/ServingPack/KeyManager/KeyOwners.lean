import ServingPack.KeyManager.Listing
import ServingPack.Lib.Protocol

open golang apiserver concurrency secrets

namespace identity

/-- The person who minted an API key. -/
structure Owner where
  clientID : GoString
  subject : GoString
  username : GoString
  groups : List GoString
  deriving DecidableEq

/-- What a lookup does to the state the lookups share, one step at a time. -/
inductive Request where
  /-- `h.cached(clientID)`. -/
  | cached (clientID : GoString)
  /-- `arrived := time.Now()`. -/
  | arrived
  /-- `h.refreshMu.Lock()`. -/
  | lock
  /-- `h.lastRefresh`. -/
  | lastRefresh
  /-- `time.Now()`, for the time that is left to wait. -/
  | now
  /-- `<-time.After(wait)` or `<-ctx.Done()`. -/
  | wait (deadline : Nat)
  /-- `h.lastRefresh = time.Now()`. -/
  | stamp
  /-- `h.keys.ListAllKeysIncludingRevoked(ctx)`. -/
  | list
  /-- The owners of the listed keys are remembered. -/
  | store (keys : List KeyInfo)
  /-- `h.refreshMu.Unlock()`. -/
  | unlock

abbrev Answer : Request → Type
  | .cached _ => Option Owner
  | .arrived => Nat
  | .lock => Unit
  | .lastRefresh => Nat
  | .now => Nat
  | .wait _ => Except StatusError Unit
  | .stamp => Unit
  | .list => Except StatusError (List KeyInfo)
  | .store _ => Unit
  | .unlock => Unit

/-- The owner, that there is none, or an error. -/
abbrev Result := Except StatusError (Option Owner)

abbrev Lookup := Program Request Answer Result

def ownerOf (k : KeyInfo) : Owner where
  clientID := k.clientID
  subject := k.creatorSubject
  username := k.creator
  groups := k.creatorGroups

def remember (owners : GoMap Owner) (keys : List KeyInfo) : GoMap Owner :=
  keys.foldl (fun owners k => owners.insert k.clientID (ownerOf k)) owners

/-- A read of the key store. -/
def refresh (clientID : GoString) : Lookup :=
  .call .stamp (fun _ =>
    .call .list (fun
      | .error e => .pure (.error e)
      | .ok keys => .call (.store keys)
          (fun _ => .call (.cached clientID) (fun o => .pure (.ok o)))))

/-- What a lookup does while it holds the lock. -/
def ownerLocked (minInterval : Nat) (clientID : GoString) (arrived : Nat) : Lookup :=
  .call .lastRefresh (fun lastRefresh =>
    -- the key store was read after this lookup arrived
    if arrived < lastRefresh then .call (.cached clientID) (fun o => .pure (.ok o))
    else .call .now (fun now =>
      if now < lastRefresh + minInterval then
        .call (.wait (lastRefresh + minInterval)) (fun
          | .error e => .pure (.error e)
          | .ok _ => refresh clientID)
      else refresh clientID))

/-- `owner`: who minted a key. -/
def owner (minInterval : Nat) (clientID : GoString) : Lookup :=
  .call (.cached clientID) (fun
    | some o => .pure (.ok (some o))
    | none => .call .arrived (fun arrived =>
        .call .lock (fun _ =>
          (ownerLocked minInterval clientID arrived).bind
            (fun r => .call .unlock (fun _ => .pure r)))))

/-- What happened, for the record. -/
inductive Event where
  | called (i : Nat) (clientID : GoString)
  /-- A lookup has arrived, and which keys the store held then. -/
  | arrived (i time : Nat) (known : List GoString)
  /-- A lookup begins to read the key store. -/
  | started (i : Nat)
  /-- The read has ended with these keys. -/
  | listed (i : Nat) (keys : List KeyInfo)
  /-- The owner of a key that was revoked long ago is dropped from the store. -/
  | dropped (clientID : GoString)
  deriving DecidableEq

structure State where
  clock : Nat
  /-- The keys of the key store, revoked ones included. -/
  keys : List KeyInfo
  owners : GoMap Owner := ∅
  lastRefresh : Nat := 0
  holder : Option Nat := none
  log : List Event := []
  /-- Whether the read that began at `lastRefresh` has been remembered. -/
  completed : Bool := false

def clientIDs (keys : List KeyInfo) : List GoString := keys.map (·.clientID)

def State.record (s : State) (e : Event) : State := { s with log := e :: s.log }

section Machine

/-- The answers to the lookup `i`. A read of the key store can fail; else it has
the keys of the store, in any order. -/
inductive Respond (i : Nat) (s : State) : (q : Request) → Answer q → State → Prop where
  | cached (clientID : GoString) : Respond i s (.cached clientID) (s.owners.lookup clientID) s
  | arrived : Respond i s .arrived s.clock (s.record (.arrived i s.clock (clientIDs s.keys)))
  | lock (hfree : s.holder = none) : Respond i s .lock () { s with holder := some i }
  | lastRefresh : Respond i s .lastRefresh s.lastRefresh s
  | now : Respond i s .now s.clock s
  | waited {deadline : Nat} (hover : deadline ≤ s.clock) : Respond i s (.wait deadline) (.ok ()) s
  | cancelled {deadline : Nat} (e : StatusError) : Respond i s (.wait deadline) (.error e) s
  | stamp : Respond i s .stamp () { s.record (.started i) with lastRefresh := s.clock, completed := false }
  | listed {keys : List KeyInfo} (hkeys : keys.Perm s.keys) :
      Respond i s .list (.ok keys) (s.record (.listed i keys))
  | unlisted (e : StatusError) : Respond i s .list (.error e) s
  | store (keys : List KeyInfo) :
    Respond i s (.store keys) () { s with owners := remember s.owners keys, completed := true }
  | unlock : Respond i s .unlock () { s with holder := none }

/-- Time passes, keys are minted and revoked, and what keys revoked long ago
have left behind is dropped. -/
inductive Env (s : State) : State → Prop where
  | tick (d : Nat) : Env s { s with clock := s.clock + d }
  | mint (info : KeyInfo) : Env s { s with keys := info :: s.keys }
  | revoke {before after : List KeyInfo} {info : KeyInfo} (hkeys : s.keys = before ++ info :: after)
    (now : Nat) :
      Env s { s with keys := before ++ Manager.tombstone info.clientID now info :: after }
  | drop {before after : List KeyInfo} {info : KeyInfo} (hkeys : s.keys = before ++ info :: after)
      (hrevoked : info.revokedAt ≠ none) :
      Env s { s.record (.dropped info.clientID) with keys := before ++ after }

/-- Any number of concurrent lookups. -/
def machine (minInterval : Nat) : Machine State Request Answer Result Nat where
  start i s p s' := ∃ clientID, p = owner minInterval clientID ∧ s' = s.record (.called i clientID)
  exec := Respond
  finish _ s _ s' := s' = s
  env := Env

end Machine

section Since

/-- Whether an event is the arrival of a lookup. -/
def Event.arrives (i : Nat) : Event → Bool
  | .arrived j _ _ => i == j
  | _ => false

/-- What has happened since a lookup arrived. -/
def since (log : List Event) (i : Nat) : List Event := log.takeWhile (fun e => !e.arrives i)

/-- The keys the store held when a lookup arrived. -/
def known (log : List Event) (i : Nat) : List GoString :=
  (log.findSome? (fun | .arrived j _ keys => if i = j then some keys else none | _ => none)).getD []

/-- When a lookup arrived. -/
def arrival (log : List Event) (i : Nat) : Option Nat :=
  log.findSome? (fun | .arrived j time _ => if i = j then some time else none | _ => none)

/-- The key a lookup is about. -/
def asked (log : List Event) (i : Nat) : Option GoString :=
  log.findSome? (fun | .called j clientID => if i = j then some clientID else none | _ => none)

variable {log : List Event} {e : Event} {i : Nat}

/-- Anything but the lookup's own arrival comes after that arrival. -/
theorem since_cons (h : e.arrives i = false) : since (e :: log) i = e :: since log i := by
  simp [since, h]

/-- The owners known at an arrival are those before it, whatever comes later. -/
theorem known_cons (h : e.arrives i = false) : known (e :: log) i = known log i := by
  cases e with
  | arrived j time keys =>
    have hne : i ≠ j := by simpa [Event.arrives] using h
    simp [known, hne]
  | _ => rfl

/-- And so is the time of the arrival. -/
theorem arrival_cons (h : e.arrives i = false) : arrival (e :: log) i = arrival log i := by
  cases e with
  | arrived j time keys =>
    have hne : i ≠ j := by simpa [Event.arrives] using h
    simp [arrival, hne]
  | _ => rfl

@[simp] theorem known_arrived (time : Nat) (keys : List GoString) :
    known (.arrived i time keys :: log) i = keys := by
  simp [known]

@[simp] theorem arrival_arrived (time : Nat) (keys : List GoString) :
    arrival (.arrived i time keys :: log) i = some time := by
  simp [arrival]

end Since

/-- A read of the key store that began after the lookup `i` arrived has ended with
these keys: all that the store held when `i` arrived but those dropped since. -/
def ReadSince (log : List Event) (i j : Nat) (keys : List KeyInfo) : Prop :=
  ∃ later before, since log i = later ++ .listed j keys :: before ∧ .started j ∈ before ∧
    ∀ clientID ∈ known log i, clientID ∈ clientIDs keys ∨ .dropped clientID ∈ before

/-- Such a read has ended without the key. -/
def ReadWithout (log : List Event) (i : Nat) (clientID : GoString) : Prop :=
  ∃ j keys, ReadSince log i j keys ∧ clientID ∉ clientIDs keys

/-- A read of the key store has ended with a key of this owner. -/
def Told (log : List Event) (clientID : GoString) (o : Owner) : Prop :=
  ∃ j keys, .listed j keys ∈ log ∧ ∃ k ∈ keys, k.clientID = clientID ∧ o = ownerOf k

end identity
