import ServingPack.Console.Client

open golang concurrency

namespace openmeter

/-- Prices as they were read: each model resource's provider, the overrides, and
the prices looked up since. -/
structure Pricer where
  now : Int
  providers : GoMap GoString
  overrides : List Price
  cache : GoString × GoString → Option (Option Price) := fun _ => none

/-- What the server calls on texts and numbers, and the time. -/
structure Server where
  /-- In milliseconds since the epoch. -/
  now : Int
  /-- `openmeterapi.NormalizeModelID`. -/
  normalizeModelID : GoString → GoString → GoString × GoString
  /-- `strconv.ParseFloat`. -/
  parseFloat : GoString → Option Rat
  roundUSD : Rat → Rat

/-- A step of the server: it asks OpenMeter, and reads and writes the pricer it keeps. -/
def ServerM (α : Type) : Type :=
  Option Pricer → Program Request Answer (Except Failure α × Option Pricer)

namespace ServerM

variable {α β : Type}

def pure (value : α) : ServerM α := fun cached => .pure (.ok value, cached)

def bind (x : ServerM α) (next : α → ServerM β) : ServerM β := fun cached =>
  (x cached).bind fun r => match r.1 with
    | .ok value => next value r.2
    | .error e => .pure (.error e, r.2)

instance : Monad ServerM where
  pure := pure
  bind := bind

/-- A call to OpenMeter as a step of the server. -/
def lift (x : Call α) : ServerM α := fun cached => x.run.bind fun r => .pure (r, cached)

def load : ServerM (Option Pricer) := fun cached => .pure (.ok cached, cached)

def store (p : Pricer) : ServerM Unit := fun _ => .pure (.ok (), some p)

/-- A step against a server of answers. -/
def eval (om : (q : Request) → Answer q) (x : ServerM α) (cached : Option Pricer) :
    Except Failure α × Option Pricer :=
  ((x cached).eval (fun s q => (om q, s)) ()).1

section Eval

variable {om : (q : Request) → Answer q} {cached : Option Pricer}

private theorem eval_bind (x : ServerM α) (next : α → ServerM β) : eval om (x >>= next) cached =
    match eval om x cached with
    | (.ok value, cached') => eval om (next value) cached'
    | (.error e, cached') => (.error e, cached') := by
  have hbind : (x >>= next) cached = (x cached).bind (fun r => match r.1 with
      | .ok value => next value r.2
      | .error e => .pure (.error e, r.2)) := rfl
  rw [eval, hbind, Program.eval_bind, eval]
  generalize (x cached).eval (fun s q => (om q, s)) () = r
  obtain ⟨⟨res, cached'⟩, u⟩ := r
  cases res <;> rfl

@[simp] theorem eval_pure (value : α) :
    eval om (Pure.pure value : ServerM α) cached = (.ok value, cached) := rfl

@[simp] theorem eval_load : eval om load cached = (.ok cached, cached) := rfl

@[simp] theorem eval_store (p : Pricer) : eval om (store p) cached = (.ok (), some p) := rfl

/-- A call to OpenMeter leaves the cached prices alone. -/
theorem eval_lift (x : Call α) :
    eval om (lift x) cached = ((x.run.eval (fun s q => (om q, s)) ()).1, cached) := by
  rw [eval, lift, Program.eval_bind]
  rfl

/-- A step in two parts has succeeded where both have. -/
theorem eval_bind_ok {x : ServerM α} {next : α → ServerM β} {value : β} {cached' : Option Pricer}
    (h : eval om (x >>= next) cached = (.ok value, cached')) :
    ∃ mid cached'', eval om x cached = (.ok mid, cached'') ∧
    eval om (next mid) cached'' = (.ok value, cached') := by
  rw [eval_bind] at h
  split at h
  · next mid cached'' hx => exact ⟨mid, cached'', hx, h⟩
  · cases (Prod.mk.inj h).1

/-- Past a step that succeeded, the rest goes on with its value and with the prices it left. -/
theorem eval_bind_of_ok {x : ServerM α} {next : α → ServerM β} {mid : α} {cached' : Option Pricer}
    (h : eval om x cached = (.ok mid, cached')) :
    eval om (x >>= next) cached = eval om (next mid) cached' := by
  rw [eval_bind, h]

end Eval

end ServerM

/-- The provider that prices each model resource. -/
def providersOf (fs : List Feature) : GoMap GoString :=
  fs.foldl (fun out f =>
    match f.unitCost with
    | some unitCost =>
      if unitCost.type ≠ "llm" then out
      else
        let eq : Option GoString :=
          (f.filters.lookup (lit "model_resource")).bind (fun filter => filter.lookup (lit "eq"))
        let resource := eq.getD []
        if resource ≠ [] then out.insert resource unitCost.provider else out
    | none => out) ∅

/-- The rate of each token type. -/
def tokenRate : GoMap GoString :=
  GoMap.ofList [("input", "input_per_token"), ("output", "output_per_token"),
    ("cache_read", "cache_read_per_token"),
    ("cache_write", "cache_write_per_token"), ("reasoning", "reasoning_per_token")]

/-- How long a pricer is reused, in milliseconds. -/
def pricerTTL : Int := 60000

section Pricer

variable (s : Server)

def newPricer : Call Pricer := do
  let fs ← features
  let ov ← overrides
  pure { now := s.now, providers := providersOf fs, overrides := ov }

/-- The pricer that is kept, or a new one where that is too old. -/
def pricer : ServerM Pricer := do
  match ← ServerM.load with
  | some p => if s.now - p.now < pricerTTL then pure p else renew
  | none => renew
where
  renew : ServerM Pricer := do
    let p ← ServerM.lift (newPricer s)
    ServerM.store p
    pure p

/-- The newest of the rows that are in effect. -/
def inEffect (now : Int) (rows : List Price) (provider model : GoString) : Option Price :=
  rows.foldl (fun best r =>
    if r.provider ≠ provider ∨ r.model ≠ model ∨ now < r.effectiveFrom then best
    else if r.effectiveTo.any (· ≤ now) then best
    else if best.all (·.effectiveFrom < r.effectiveFrom) then some r
    else best) none

/-- The price of a provider's model, and the pricer that remembers it. -/
def price (p : Pricer) (provider model : GoString) : ServerM (Option Price × Pricer) :=
  if provider = [] then pure (none, p)
  else
    let k := s.normalizeModelID provider model
    match p.cache k with
    | some pr => pure (pr, p)
    | none => do
      let pr ← match inEffect p.now p.overrides k.1 k.2 with
        | some pr => pure (some pr)
        | none => do
          let rows ← ServerM.lift (prices k.1 k.2)
          pure (inEffect p.now rows k.1 k.2)
      let p' := { p with cache := Function.update p.cache k (some pr) }
      ServerM.store p'
      pure (pr, p')

/-- The sum over the token types with a count; none where one has no rate. -/
def total (pr : Price) (tokens : List (GoString × Int)) : Option Rat :=
  tokens.foldlM (fun sum t =>
    if t.2 = 0 then some sum
    else ((pr.pricing.lookup ((tokenRate.lookup t.1).getD [])).bind s.parseFloat).map
      (fun rate => sum + t.2 * rate)) 0

/-- The counts by token type, in some order. -/
def counts (tokens : GoMap Int) : List (GoString × Int) :=
  tokens.sortedKeys.map (fun k => (k, (tokens.lookup k).getD 0))

/-- What a request costs; none where its model has no price, or a token type no rate. -/
def cost (p : Pricer) (resource model : GoString) (tokens : GoMap Int) :
    ServerM (Option Rat × Pricer) := do
  let (pr, p') ← price s p ((p.providers.lookup resource).getD []) model
  pure (pr.bind (fun pr => total s pr (counts tokens)), p')

end Pricer

end openmeter
