import ServingPack.Lib.Fields
import ServingPack.Lib.Run
import ServingPack.Lib.Singleflight

open golang concurrency

namespace oidc

/-- A key of the provider's JWKS, as far as it is read. -/
structure Jwk where
  kty : GoString
  kid : GoString
  n : GoString
  e : GoString
  deriving DecidableEq

/-- `unknownKIDCooldown`, in nanoseconds. -/
def unknownKIDCooldown : Int := 30 * 1000000000

/-- What a refresh returns beside nil. -/
inductive Err where
  /-- The error of a fetch. -/
  | fetch (text : GoString)
  /-- `errKIDRefreshCooldown`. -/
  | kidRefreshCooldown
  deriving DecidableEq

/-- Why the keys are fetched. -/
inductive Trigger where
  | initial
  | periodic
  | unknownKID
  deriving DecidableEq

/-- How far a call of `fetchPublicKeys` has come. -/
inductive Fetch where
  | called
  | requested
  /-- It returns this once the deferred store of `fetchFailed` is done. -/
  | answered (err : Option Err)
  deriving DecidableEq

/-- How far a function of the refresh group has come. -/
inductive Stage where
  | begun
  | fetching (fetch : Fetch)
  | returned (err : Option Err)
  deriving DecidableEq

/-- The function that `refreshKeys` or `refreshForUnknownKID` hands to the refresh group. -/
structure Callback where
  trigger : Trigger
  stage : Stage := .begun
  deriving DecidableEq

/-- Where the background goroutine is. -/
inductive Background where
  /-- Before an attempt of `initialFetch`. -/
  | trying
  | fetching (fetch : Fetch)
  /-- An attempt of `initialFetch` has succeeded. -/
  | fetched
  /-- `refreshLoop` waits for its ticker. -/
  | idle
  /-- `refreshKeys` waits on its channel. -/
  | refreshing (ch : Nat)
  | returned
  deriving DecidableEq

/-- Where a call of `ValidateToken` is in looking up the key of its token. -/
inductive Lookup (K : Type) where
  | idle
  | notReady
  | begun (kid : GoString)
  /-- The key is not cached. -/
  | missing (kid : GoString)
  /-- `refreshForUnknownKID` waits on its channel. -/
  | refreshing (kid : GoString) (ch : Nat)
  | refreshed (kid : GoString)
  /-- The key is not cached after the refresh. -/
  | absent (kid : GoString)
  | found (kid : GoString) (key : K)
  | refused (kid : GoString) (unavailable : Bool)

/-- The validator with the clock, its background goroutine and every call of `ValidateToken`. -/
structure Validator (K : Type) where
  now : Int
  publicKeys : Fields K := []
  refreshGroup : Group Callback (Option Err) := {}
  lastKIDRefresh : Int := 0
  fetchFailed : Bool := false
  ready : Bool := false
  /-- Whether `baseCtx` is done. -/
  stopped : Bool := false
  background : Background := .trying
  lookups : Nat → Lookup K := fun _ => .idle

/-- What a step did that callers, the provider or the clock can tell. -/
inductive Effect (K : Type) where
  /-- A refresh for an unknown key was let through, by the clock at that time. -/
  | admitted (time : Int)
  /-- A fetch has sent its request. -/
  | started (trigger : Trigger) (time : Int)
  | stored (keys : Fields K)
  | finished (trigger : Trigger) (err : Option Err)
  | becameReady
  /-- A call of `refreshKeys` begins. Its channel tells it from the others. -/
  | refreshBegan (ch : Nat)
  | refreshed (ch : Nat) (err : Option Err)
  /-- A call of `ValidateToken` does not find its key after the refresh. -/
  | absent (call : Nat) (kid : GoString)

section Fetch

variable {K : Type} (parseRSAPublicKey : Jwk → Option K)

/-- One turn of the loop over the keys of a JWKS. -/
def addKey (keys : Fields K) (k : Jwk) : Fields K :=
  if k.kty = "RSA" then
    match parseRSAPublicKey k with
    | some publicKey => keys.set k.kid publicKey
    | none => keys
  else keys

/-- The keys a response of the provider gives, or the error of the fetch. -/
def keysOf : Except GoString (List Jwk) → Except Err (Fields K)
  | .error text => .error (.fetch text)
  | .ok set =>
    if (set.foldl (addKey parseRSAPublicKey) []).isEmpty
      then .error (.fetch "no valid RSA keys found")
    else .ok (set.foldl (addKey parseRSAPublicKey) [])

end Fetch

namespace Validator

variable {K : Type} (v : Validator K)

abbrev Next (K : Type) := Option (Validator K × List (Effect K))

/-- Who runs `fetchPublicKeys`: the background goroutine, or the one of the call in flight. -/
inductive Fetcher where
  | background
  | flight

/-- The fetch that runs there, if any. -/
def fetch : Fetcher → Option (Trigger × Fetch)
  | .background =>
    match v.background with
    | .fetching f => some (.initial, f)
    | _ => none
  | .flight =>
    match v.refreshGroup.flight with
    | some ⟨⟨trigger, .fetching f⟩, _⟩ => some (trigger, f)
    | _ => none

def advance (stage : Stage) : Validator K :=
  { v with refreshGroup := v.refreshGroup.advance (fun callback => { callback with stage := stage }) }

def setFetch (f : Fetch) : Fetcher → Validator K
  | .background => { v with background := .fetching f }
  | .flight => v.advance (.fetching f)

/-- A fetch sends its request. -/
def request (w : Fetcher) : Next K :=
  match v.fetch w with
  | some (trigger, .called) => some (v.setFetch .requested w, [.started trigger v.now])
  | _ => none

/-- A fetch has its response; it can fail without one. -/
def respond (parseRSAPublicKey : Jwk → Option K) (w : Fetcher)
    (response : Except GoString (List Jwk)) : Next K :=
  match v.fetch w with
  | some (_, .answered _) => none
  | some (_, _) =>
    match keysOf parseRSAPublicKey response with
    | .error err => some (v.setFetch (.answered (some err)) w, [])
    | .ok keys => some ({ v with publicKeys := keys }.setFetch (.answered none) w, [.stored keys])
  | none => none

/-- The deferred store of `fetchFailed`, and the end of the fetch. -/
def settle (w : Fetcher) : Next K :=
  match v.fetch w with
  | some (trigger, .answered err) =>
    let settled := { v with fetchFailed := err.isSome }
    let noted := [.finished trigger err]
    match w with
    | .background => some ({ settled with background := if err.isSome then .trying else .fetched },
        noted)
    | .flight => some (settled.advance (.returned err), noted)
  | _ => none

/-- `initialFetch` makes an attempt. -/
def attempt : Next K :=
  if v.background = .trying then some ({ v with background := .fetching .called }, []) else none

/-- `initialFetch` marks the validator ready and returns to `initLoop`, which goes on with
`refreshLoop`. -/
def markReady : Next K :=
  if v.background = .fetched
    then some ({ v with ready := true, background := .idle }, [.becameReady]) else none

/-- The ticker of `refreshLoop` fires, and `refreshKeys` begins. -/
def refreshKeys : Next K :=
  if v.background = .idle then
    some ({ v with
      refreshGroup := v.refreshGroup.doChan { trigger := .periodic }
      background := .refreshing v.refreshGroup.made }, [.refreshBegan v.refreshGroup.made])
  else none

/-- `refreshKeys` has its result. -/
def receiveRefresh : Next K :=
  match v.background with
  | .refreshing ch =>
    match v.refreshGroup.sent ch with
    | some err => some ({ v with background := .idle }, [.refreshed ch err])
    | none => none
  | _ => none

/-- `refreshKeys` returns because its context is done. -/
def abandonRefresh : Next K :=
  match v.background with
  | .refreshing _ => if v.stopped then some ({ v with background := .idle }, []) else none
  | _ => none

/-- The background goroutine sees that it is to stop. -/
def halt : Next K :=
  if v.stopped ∧ (v.background = .trying ∨ v.background = .idle)
    then some ({ v with background := .returned }, [])
  else none

/-- Whether a refresh for an unknown key is suppressed now. -/
def suppressed : Bool := v.lastKIDRefresh ≠ 0 ∧ v.now - v.lastKIDRefresh < unknownKIDCooldown

/-- The function in flight begins. -/
def callback : Next K :=
  match v.refreshGroup.flight.map Flight.stage with
  | some ⟨.unknownKID, .begun⟩ =>
    if v.suppressed then some (v.advance (.returned (some .kidRefreshCooldown)), [])
    else some ({ v with lastKIDRefresh := v.now }.advance (.fetching .called), [.admitted v.now])
  | some ⟨_, .begun⟩ => some (v.advance (.fetching .called), [])
  | _ => none

/-- The function in flight has returned. -/
def doCall : Next K :=
  match v.refreshGroup.flight.map Flight.stage with
  | some ⟨_, .returned err⟩ => some ({ v with refreshGroup := v.refreshGroup.doCall err }, [])
  | _ => none

def setLookup (call : Nat) (l : Lookup K) : Validator K :=
  { v with lookups := Function.update v.lookups call l }

/-- `ValidateToken` begins, with a token of this key id. -/
def validateToken (call : Nat) (kid : GoString) : Next K :=
  match v.lookups call with
  | .idle => some (v.setLookup call (if v.ready then .begun kid else .notReady), [])
  | _ => none

/-- It looks the key up. -/
def lookup (call : Nat) : Next K :=
  match v.lookups call with
  | .begun kid =>
    match v.publicKeys.get kid with
    | some key => some (v.setLookup call (.found kid key), [])
    | none => some (v.setLookup call (.missing kid), [])
  | _ => none

/-- `refreshForUnknownKID` begins. -/
def refreshForUnknownKID (call : Nat) : Next K :=
  match v.lookups call with
  | .missing kid =>
    some ({ v with refreshGroup := v.refreshGroup.doChan { trigger := .unknownKID } }.setLookup call
      (.refreshing kid v.refreshGroup.made), [])
  | _ => none

/-- `refreshForUnknownKID` has its result, or its caller's context is done. -/
def receive (call : Nat) (cancelled : Bool) : Next K :=
  match v.lookups call with
  | .refreshing kid ch =>
    if cancelled ∨ (v.refreshGroup.sent ch).isSome then some (v.setLookup call (.refreshed kid), [])
      else none
  | _ => none

/-- `ValidateToken` looks the key up again. -/
def lookupAgain (call : Nat) : Next K :=
  match v.lookups call with
  | .refreshed kid =>
    match v.publicKeys.get kid with
    | some key => some (v.setLookup call (.found kid key), [])
    | none => some (v.setLookup call (.absent kid), [.absent call kid])
  | _ => none

/-- It refuses the token: the key cannot be fetched, or there is no such key. -/
def refuse (call : Nat) : Next K :=
  match v.lookups call with
  | .absent kid => some (v.setLookup call (.refused kid v.fetchFailed), [])
  | _ => none

section Fetching

variable {v} {w : Fetcher} {trigger : Trigger} {f f' : Fetch}

/-- Moving a fetch on keeps it the same party's, whatever keys it has stored. -/
theorem fetch_setFetch {keys : Fields K} (h : v.fetch w = some (trigger, f)) :
    ({ v with publicKeys := keys }.setFetch f' w).fetch w = some (trigger, f') := by
  cases w with
  | background =>
    simp only [fetch] at h ⊢
    split at h
    · obtain ⟨rfl, -⟩ := Prod.mk.inj (Option.some.inj h)
      rfl
    · cases h
  | flight =>
    simp only [fetch] at h
    split at h
    · next hflight =>
      obtain ⟨rfl, -⟩ := Prod.mk.inj (Option.some.inj h)
      simp only [fetch, setFetch, advance, Group.advance, hflight, Option.map_some]
    · cases h

/-- A fetch under way leaves the keys alone. -/
theorem publicKeys_setFetch (v : Validator K) (f : Fetch) (w : Fetcher) :
    (v.setFetch f w).publicKeys = v.publicKeys := by
  cases w with
  | background => rfl
  | flight => rfl

end Fetching

section Lookups

variable {v} {call call' : Nat} {l : Lookup K}

@[simp] theorem lookups_setLookup : (v.setLookup call l).lookups call = l := Function.update_self ..

theorem lookups_setLookup_ne (h : call' ≠ call) :
    (v.setLookup call l).lookups call' = v.lookups call' :=
  Function.update_of_ne h ..

end Lookups

end Validator

inductive Action where
  | tick (nanoseconds : Nat)
  | stop
  | attempt
  | request (w : Validator.Fetcher)
  | respond (w : Validator.Fetcher) (response : Except GoString (List Jwk))
  | settle (w : Validator.Fetcher)
  | markReady
  | refreshKeys
  | receiveRefresh
  | abandonRefresh
  | halt
  | callback
  | doCall
  | validateToken (call : Nat) (kid : GoString)
  | lookup (call : Nat)
  | refreshForUnknownKID (call : Nat)
  | receive (call : Nat) (cancelled : Bool)
  | lookupAgain (call : Nat)
  | refuse (call : Nat)

def step {K : Type} (parseRSAPublicKey : Jwk → Option K) (v : Validator K) :
    Action → Validator.Next K
  | .tick nanoseconds => some ({ v with now := v.now + nanoseconds }, [])
  | .stop => some ({ v with stopped := true }, [])
  | .attempt => v.attempt
  | .request w => v.request w
  | .respond w response => v.respond parseRSAPublicKey w response
  | .settle w => v.settle w
  | .markReady => v.markReady
  | .refreshKeys => v.refreshKeys
  | .receiveRefresh => v.receiveRefresh
  | .abandonRefresh => v.abandonRefresh
  | .halt => v.halt
  | .callback => v.callback
  | .doCall => v.doCall
  | .validateToken call kid => v.validateToken call kid
  | .lookup call => v.lookup call
  | .refreshForUnknownKID call => v.refreshForUnknownKID call
  | .receive call cancelled => v.receive call cancelled
  | .lookupAgain call => v.lookupAgain call
  | .refuse call => v.refuse call

section Inversion

variable {K : Type} {v v' : Validator K} {noted : List (Effect K)} {parse : Jwk → Option K}
  {call : Nat}

open Validator

/-- A fetch of the background loop is its first one. -/
theorem fetch_background {trigger : Trigger} {f : Fetch}
    (h : v.fetch .background = some (trigger, f)) :
    v.background = .fetching f ∧ trigger = .initial := by
  simp only [Validator.fetch] at h
  split at h
  · next hbackground =>
    obtain ⟨rfl, rfl⟩ := Prod.mk.inj (Option.some.inj h)
    exact ⟨hbackground, rfl⟩
  · cases h

/-- Any other fetch is the one in flight of the refresh group. -/
theorem fetch_flight {trigger : Trigger} {f : Fetch} (h : v.fetch .flight = some (trigger, f)) :
    ∃ chans, v.refreshGroup.flight = some ⟨⟨trigger, .fetching f⟩, chans⟩ := by
  simp only [Validator.fetch] at h
  split at h
  · next chans hflight =>
    obtain ⟨rfl, rfl⟩ := Prod.mk.inj (Option.some.inj h)
    exact ⟨chans, hflight⟩
  · cases h

/-- An attempt begins a fetch of the background loop and says nothing yet. -/
theorem attempt_inv (h : v.attempt = some (v', noted)) :
    v.background = .trying ∧ v' = { v with background := .fetching .called } ∧ noted = [] := by
  rw [attempt] at h
  split_ifs at h with htrying
  obtain ⟨rfl, rfl⟩ := Prod.mk.inj (Option.some.inj h)
  exact ⟨htrying, rfl, rfl⟩

/-- A fetch that passes the gate starts at the clock's time. -/
theorem request_inv {w : Fetcher} (h : v.request w = some (v', noted)) : ∃ trigger,
    v.fetch w = some (trigger, .called) ∧ v' = v.setFetch .requested w ∧
    noted = [.started trigger v.now] := by
  rw [request] at h
  split at h
  · next trigger hfetch =>
    obtain ⟨rfl, rfl⟩ := Prod.mk.inj (Option.some.inj h)
    exact ⟨trigger, hfetch, rfl, rfl⟩
  · cases h

/-- A response's keys replace the cached ones, and an error leaves them. -/
theorem respond_inv {w : Fetcher} {response : Except GoString (List Jwk)}
    (h : v.respond parse w response = some (v', noted)) :
    ∃ trigger f, v.fetch w = some (trigger, f) ∧
      ((∃ err, keysOf parse response = .error err ∧ v' = v.setFetch (.answered (some err)) w ∧
        noted = []) ∨
        ∃ keys, keysOf parse response = .ok keys ∧
        v' = { v with publicKeys := keys }.setFetch (.answered none) w ∧
          noted = [.stored keys]) := by
  rw [respond] at h
  split at h
  · cases h
  · next trigger f _ hfetch =>
    refine ⟨trigger, f, hfetch, ?_⟩
    split at h
    · next err hkeys =>
      obtain ⟨rfl, rfl⟩ := Prod.mk.inj (Option.some.inj h)
      exact .inl ⟨err, hkeys, rfl, rfl⟩
    · next keys hkeys =>
      obtain ⟨rfl, rfl⟩ := Prod.mk.inj (Option.some.inj h)
      exact .inr ⟨keys, hkeys, rfl, rfl⟩
  · cases h

/-- A fetch ends with what it was answered: it records whether it failed, and hands the outcome
on. -/
theorem settle_inv {w : Fetcher} (h : v.settle w = some (v', noted)) : ∃ trigger err,
    v.fetch w = some (trigger, .answered err) ∧ noted = [.finished trigger err] ∧
      ((w = .background ∧
          v' = { v with fetchFailed := err.isSome, background := if err.isSome then .trying else .fetched }) ∨
        (w = .flight ∧ v' = { v with fetchFailed := err.isSome }.advance (.returned err))) := by
  rw [settle] at h
  split at h
  · next trigger err hfetch =>
    cases w with
    | background =>
      obtain ⟨rfl, rfl⟩ := Prod.mk.inj (Option.some.inj h)
      exact ⟨trigger, err, hfetch, rfl, .inl ⟨rfl, rfl⟩⟩
    | flight =>
      obtain ⟨rfl, rfl⟩ := Prod.mk.inj (Option.some.inj h)
      exact ⟨trigger, err, hfetch, rfl, .inr ⟨rfl, rfl⟩⟩
  · cases h

/-- The validator becomes ready after its first good fetch, once. -/
theorem markReady_inv (h : v.markReady = some (v', noted)) :
    v.background = .fetched ∧ v' = { v with ready := true, background := .idle } ∧
    noted = [.becameReady] := by
  rw [markReady] at h
  split_ifs at h with hfetched
  obtain ⟨rfl, rfl⟩ := Prod.mk.inj (Option.some.inj h)
  exact ⟨hfetched, rfl, rfl⟩

/-- The periodic refresh joins the group and waits for its outcome. -/
theorem refreshKeys_inv (h : v.refreshKeys = some (v', noted)) : v.background = .idle ∧
    v' = { v with
      refreshGroup := v.refreshGroup.doChan { trigger := .periodic }
      background := .refreshing v.refreshGroup.made } ∧
        noted = [.refreshBegan v.refreshGroup.made] := by
  rw [refreshKeys] at h
  split_ifs at h with hidle
  obtain ⟨rfl, rfl⟩ := Prod.mk.inj (Option.some.inj h)
  exact ⟨hidle, rfl, rfl⟩

/-- The loop takes the outcome of the refresh it joined. -/
theorem receiveRefresh_inv (h : v.receiveRefresh = some (v', noted)) :
    ∃ ch err, v.background = .refreshing ch ∧
    v.refreshGroup.sent ch = some err ∧ v' = { v with background := .idle } ∧
    noted = [.refreshed ch err] := by
  rw [receiveRefresh] at h
  split at h
  · next ch hrefreshing =>
    split at h
    · next err hsent =>
      obtain ⟨rfl, rfl⟩ := Prod.mk.inj (Option.some.inj h)
      exact ⟨ch, err, hrefreshing, hsent, rfl, rfl⟩
    · cases h
  · cases h

/-- It may stop waiting; the refresh itself goes on. -/
theorem abandonRefresh_inv (h : v.abandonRefresh = some (v', noted)) :
    ∃ ch, v.background = .refreshing ch ∧ v' = { v with background := .idle } ∧ noted = [] := by
  rw [abandonRefresh] at h
  split at h
  · next ch hrefreshing =>
    split_ifs at h
    obtain ⟨rfl, rfl⟩ := Prod.mk.inj (Option.some.inj h)
    exact ⟨ch, hrefreshing, rfl, rfl⟩
  · cases h

/-- The loop ends between fetches only. -/
theorem halt_inv (h : v.halt = some (v', noted)) : (v.background = .trying ∨ v.background = .idle) ∧
    v' = { v with background := .returned } ∧ noted = [] := by
  rw [halt] at h
  split_ifs at h with hstops
  obtain ⟨rfl, rfl⟩ := Prod.mk.inj (Option.some.inj h)
  exact ⟨hstops.2, rfl, rfl⟩

/-- A refresh for an unknown key fetches unless it is suppressed; a periodic one fetches. -/
theorem callback_inv (h : v.callback = some (v', noted)) : ∃ c, v.refreshGroup.flight = some c ∧
    c.stage.stage = .begun ∧
    ((c.stage.trigger = .unknownKID ∧ v.suppressed = true ∧
      v' = v.advance (.returned (some .kidRefreshCooldown)) ∧
        noted = []) ∨
      (c.stage.trigger = .unknownKID ∧ v.suppressed = false ∧
        v' = { v with lastKIDRefresh := v.now }.advance (.fetching .called) ∧
        noted = [.admitted v.now]) ∨
      (c.stage.trigger ≠ .unknownKID ∧ v' = v.advance (.fetching .called) ∧ noted = [])) := by
  rw [callback] at h
  split at h
  · next hstage =>
    obtain ⟨c, hflight, hc⟩ := Option.map_eq_some_iff.mp hstage
    refine ⟨c, hflight, by rw [hc], ?_⟩
    rw [hc]
    split_ifs at h with hsuppressed
    · obtain ⟨rfl, rfl⟩ := Prod.mk.inj (Option.some.inj h)
      exact .inl ⟨rfl, hsuppressed, rfl, rfl⟩
    · obtain ⟨rfl, rfl⟩ := Prod.mk.inj (Option.some.inj h)
      exact .inr (.inl ⟨rfl, Bool.eq_false_iff.mpr hsuppressed, rfl, rfl⟩)
  · next trigger htrigger hstage =>
    obtain ⟨c, hflight, hc⟩ := Option.map_eq_some_iff.mp hstage
    obtain ⟨rfl, rfl⟩ := Prod.mk.inj (Option.some.inj h)
    refine ⟨c, hflight, by rw [hc], .inr (.inr ⟨?_, rfl, rfl⟩)⟩
    rw [hc]
    intro hunknown
    exact htrigger hunknown
  · cases h

/-- The call in flight ends by sending its outcome to all that joined it. -/
theorem doCall_inv (h : v.doCall = some (v', noted)) : ∃ c err, v.refreshGroup.flight = some c ∧
    c.stage.stage = .returned err ∧ v' = { v with refreshGroup := v.refreshGroup.doCall err } ∧
    noted = [] := by
  rw [doCall] at h
  split at h
  · next err hstage =>
    obtain ⟨c, hflight, hc⟩ := Option.map_eq_some_iff.mp hstage
    obtain ⟨rfl, rfl⟩ := Prod.mk.inj (Option.some.inj h)
    exact ⟨c, err, hflight, by rw [hc], rfl, rfl⟩
  · cases h

/-- Validation begins, or fails at once where no keys have been fetched yet. -/
theorem validateToken_inv {kid : GoString} (h : v.validateToken call kid = some (v', noted)) :
    v' = v.setLookup call (if v.ready then .begun kid else .notReady) ∧ noted = [] := by
  rw [validateToken] at h
  split at h
  · obtain ⟨rfl, rfl⟩ := Prod.mk.inj (Option.some.inj h)
    exact ⟨rfl, rfl⟩
  · cases h

/-- The first lookup finds the key or not, and changes nothing else. -/
theorem lookup_inv (h : v.lookup call = some (v', noted)) :
    ∃ kid, v.lookups call = .begun kid ∧ noted = [] ∧
    ((∃ key, v' = v.setLookup call (.found kid key)) ∨ v' = v.setLookup call (.missing kid)) := by
  rw [lookup] at h
  split at h
  · next kid hbegun =>
    refine ⟨kid, hbegun, ?_⟩
    split at h
    · next key _ =>
      obtain ⟨rfl, rfl⟩ := Prod.mk.inj (Option.some.inj h)
      exact ⟨rfl, .inl ⟨key, rfl⟩⟩
    · obtain ⟨rfl, rfl⟩ := Prod.mk.inj (Option.some.inj h)
      exact ⟨rfl, .inr rfl⟩
  · cases h

/-- A call with an unknown key joins the refresh group. -/
theorem refreshForUnknownKID_inv (h : v.refreshForUnknownKID call = some (v', noted)) :
    ∃ kid, v.lookups call = .missing kid ∧
      v' = { v with refreshGroup := v.refreshGroup.doChan { trigger := .unknownKID } }.setLookup
        call
        (.refreshing kid v.refreshGroup.made) ∧ noted = [] := by
  rw [refreshForUnknownKID] at h
  split at h
  · next kid hmissing =>
    obtain ⟨rfl, rfl⟩ := Prod.mk.inj (Option.some.inj h)
    exact ⟨kid, hmissing, rfl, rfl⟩
  · cases h

/-- A call goes on when the outcome is there or its own context ends. -/
theorem receive_inv {cancelled : Bool} (h : v.receive call cancelled = some (v', noted)) :
    ∃ kid ch, v.lookups call = .refreshing kid ch ∧ v' = v.setLookup call (.refreshed kid) ∧
    noted = [] := by
  rw [receive] at h
  split at h
  · next kid ch hrefreshing =>
    split_ifs at h
    obtain ⟨rfl, rfl⟩ := Prod.mk.inj (Option.some.inj h)
    exact ⟨kid, ch, hrefreshing, rfl, rfl⟩
  · cases h

/-- The second lookup is in the keys as they are then. -/
theorem lookupAgain_inv (h : v.lookupAgain call = some (v', noted)) :
    ∃ kid, v.lookups call = .refreshed kid ∧
    ((∃ key, v' = v.setLookup call (.found kid key) ∧ noted = []) ∨
      (v.publicKeys.get kid = none ∧ v' = v.setLookup call (.absent kid) ∧
        noted = [.absent call kid])) := by
  rw [lookupAgain] at h
  split at h
  · next kid hrefreshed =>
    refine ⟨kid, hrefreshed, ?_⟩
    split at h
    · next key _ =>
      obtain ⟨rfl, rfl⟩ := Prod.mk.inj (Option.some.inj h)
      exact .inl ⟨key, rfl, rfl⟩
    · next hnone =>
      obtain ⟨rfl, rfl⟩ := Prod.mk.inj (Option.some.inj h)
      exact .inr ⟨hnone, rfl, rfl⟩
  · cases h

/-- A call without its key is refused, with word of whether the last fetch failed. -/
theorem refuse_inv (h : v.refuse call = some (v', noted)) : ∃ kid, v.lookups call = .absent kid ∧
    v' = v.setLookup call (.refused kid v.fetchFailed) ∧ noted = [] := by
  rw [refuse] at h
  split at h
  · next kid habsent =>
    obtain ⟨rfl, rfl⟩ := Prod.mk.inj (Option.some.inj h)
    exact ⟨kid, habsent, rfl, rfl⟩
  · cases h

end Inversion

end oidc
