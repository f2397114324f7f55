import Mathlib.Data.Rat.Defs
import ServingPack.Lib.GoMap
import ServingPack.Lib.Names
import ServingPack.Lib.Program
import ServingPack.OpenMeter.Lists

open golang concurrency openmeterapi

namespace openmetersetup

/-- A model resource and the OpenMeter provider its models are priced under. -/
structure Resource where
  name : GoString
  provider : GoString

/-- A price override: rates per token in USD, by the names OpenMeter's pricing has for them. -/
structure ManualPrice where
  provider : GoString
  model : GoString
  pricing : GoMap GoString

/-- What the pack sets up in OpenMeter. -/
structure BootstrapConfig where
  resources : List Resource
  prices : List ManualPrice

structure Meter where
  id : GoString
  key : GoString

/-- How a feature's usage is priced. -/
structure UnitCost where
  type : GoString := []
  provider : GoString := []
  providerProperty : GoString := []
  model : GoString := []
  modelProperty : GoString := []
  tokenType : GoString := []
  tokenTypeProperty : GoString := []
  amount : GoString := []
  deriving DecidableEq

structure Feature where
  id : GoString
  key : GoString
  filters : GoMap (GoMap GoString)
  unitCost : UnitCost

/-- A feature as it is created. -/
structure NewFeature where
  key : GoString
  name : GoString
  meterID : GoString
  filters : GoMap (GoMap GoString)
  unitCost : UnitCost

/-- A row of the price overrides. -/
structure Price where
  provider : GoString
  model : GoString
  pricing : GoMap GoString

/-- A price override as it is created. -/
structure NewPrice where
  provider : GoString
  model : GoString
  pricing : GoMap GoString
  currency : GoString
  /-- In seconds since the epoch. -/
  effectiveFrom : Int

/-- What the setup asks of OpenMeter, and of the clock. -/
inductive Request where
  | meters
  | features
  | patchFeature (id : GoString) (unitCost : UnitCost)
  | createFeature (f : NewFeature)
  | overrides
  | createOverride (p : NewPrice)
  | now

abbrev Answer : Request → Type
  | .meters => Pages Meter
  | .features => Pages Feature
  | .patchFeature _ _ => Except Failure Unit
  | .createFeature _ => Except Failure Unit
  | .overrides => Pages Price
  | .createOverride _ => Except Failure Unit
  | .now => Int

abbrev Call := Fallible Request Answer Failure

/-- What the setup calls on texts. -/
structure Setup where
  /-- `openmeterapi.NormalizeModelID`. -/
  normalizeModelID : GoString → GoString → GoString × GoString
  /-- `big.Rat.SetString`. -/
  setString : GoString → Option Rat

/-- The meter that features price. -/
def tokensMeter : GoString := "llm_tokens"

/-- `notKeyChar.ReplaceAllString(s, "_")`: each longest run of bytes other than
`[a-z0-9]` as one underscore. `inRun` tells whether such a run is being read. -/
def replaceRuns (inRun : Bool) : GoString → GoString
  | [] => []
  | c :: rest =>
    if naming.lowerAlnum c then c :: replaceRuns false rest
    else if inRun then replaceRuns true rest
    else 95 :: replaceRuns true rest

/-- A feature key for a model resource. -/
def featureKey (resource : GoString) : GoString :=
  replaceRuns false resource ++ ("_tokens" : GoString)

/-- Tokens priced from OpenMeter's prices for the provider, by model and token type. -/
def llmUnitCost (provider : GoString) : UnitCost :=
  { type := "llm", provider := provider, modelProperty := "model",
    tokenTypeProperty := "token_type" }

/-- The resource whose tokens a feature prices. -/
def Feature.resource (f : Feature) : GoString :=
  let eq : Option GoString :=
    (f.filters.lookup (lit "model_resource")).bind (fun filter => filter.lookup (lit "eq"))
  eq.getD []

section Prices

variable (s : Setup)

/-- A decimal rate; the empty text is zero. -/
def rate (text : GoString) : Option Rat := if text = [] then some 0 else s.setString text

/-- Rates are compared as numbers, and as texts where one does not parse. -/
def sameRate (a b : GoString) : Bool :=
  match rate s a, rate s b with
  | some ra, some rb => ra = rb
  | _, _ => a = b

/-- A rate that is missing is the empty text. -/
def samePricing (a b : GoMap GoString) : Bool :=
  let same (k : GoString) := sameRate s ((a.lookup k).getD []) ((b.lookup k).getD [])
  a.sortedKeys.all same && b.sortedKeys.all same

def hasPrice (ov : List Price) (p : ManualPrice) : Bool :=
  ov.any (fun o => o.provider = p.provider && o.model = p.model &&
    samePricing s o.pricing p.pricing)

end Prices

section Bootstrap

variable (s : Setup)

def listMeters : Call (List Meter) :=
  ExceptT.mk ((Program.ask .meters).bind (fun (answer : Pages Meter) => .pure (listAll answer)))

def listFeatures : Call (List Feature) :=
  ExceptT.mk ((Program.ask .features).bind (fun (answer : Pages Feature) => .pure (listAll answer)))

def listOverrides : Call (List Price) :=
  ExceptT.mk ((Program.ask .overrides).bind (fun (answer : Pages Price) => .pure (listAll answer)))

def patchFeature (id : GoString) (unitCost : UnitCost) : Call Unit :=
  ExceptT.mk (Program.ask (Request.patchFeature id unitCost))

def createFeature (f : NewFeature) : Call Unit := ExceptT.mk (Program.ask (Request.createFeature f))

def createOverride (p : NewPrice) : Call Unit := ExceptT.mk (Program.ask (Request.createOverride p))

def now : Call Int := ExceptT.mk ((Program.ask .now).bind (fun (t : Int) => .pure (.ok t)))

/-- `fmt.Errorf("feature for %s: %w", ...)`. -/
def forResource (r : Resource) (e : Failure) : Failure :=
  ("feature for " : GoString) ++ r.name ++ (": " : GoString) ++ e

/-- Brings a resource's features to the unit cost it should have. -/
def updateFeatures (r : Resource) : List Feature → Call Unit
  | [] => pure ()
  | f :: rest => do
    if f.unitCost = llmUnitCost r.provider then updateFeatures r rest
    else do
      Fallible.mapError (forResource r) (patchFeature f.id (llmUnitCost r.provider))
      updateFeatures r rest

/-- A resource's feature as it is created. -/
def newFeature (meterID : GoString) (r : Resource) : NewFeature where
  key := featureKey r.name
  name := r.name ++ (" tokens" : GoString)
  meterID := meterID
  filters := GoMap.ofList [(lit "model_resource", GoMap.ofList [(lit "eq", r.name)])]
  unitCost := llmUnitCost r.provider

/-- The features for the resources, where some features are there. -/
def bootstrapFeatures (meterID : GoString) (fs : List Feature) : List Resource → Call Unit
  | [] => pure ()
  | r :: rest => do
    let have_ := fs.filter (fun f => f.resource = r.name)
    updateFeatures r have_
    if have_ = [] then Fallible.mapError (forResource r) (createFeature (newFeature meterID r))
    bootstrapFeatures meterID fs rest

/-- The prices that are not among the overrides. They are stored under the IDs
OpenMeter looks prices up under. -/
def bootstrapPrices (ov : List Price) : List ManualPrice → Call Unit
  | [] => pure ()
  | p :: rest => do
    let (provider, model) := s.normalizeModelID p.provider p.model
    let p := { p with provider := provider, model := model }
    if hasPrice s ov p then bootstrapPrices ov rest
    else do
      let t ← now
      Fallible.mapError (fun e => ("price for " : GoString) ++ p.provider ++ ("/" : GoString) ++ p.model ++ (": " : GoString) ++ e)
        (createOverride { provider := p.provider, model := p.model, pricing := p.pricing, currency := "USD", effectiveFrom := t })
      bootstrapPrices ov rest

/-- Creates what the config lists and OpenMeter does not have yet. -/
def bootstrap (cfg : BootstrapConfig) : Call Unit := do
  let meters ← listMeters
  let meterID := meters.foldl (fun id m => if m.key = tokensMeter then m.id else id) []
  if meterID = [] then throw (("openmeter has no " : GoString) ++ tokensMeter ++
    (" meter" : GoString))
  let fs ← listFeatures
  bootstrapFeatures meterID fs cfg.resources
  let ov ← listOverrides
  bootstrapPrices s ov cfg.prices

end Bootstrap

end openmetersetup
