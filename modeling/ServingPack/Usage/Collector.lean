import ServingPack.Operator.Reconcilers.Common

open golang reconcilers

namespace collector

/-- The groups of a person: texts, or a JSON value that is not an array of texts. -/
inductive Groups where
  | names (groups : List GoString)
  | other

/-- What the mappings call on texts. -/
structure Bloblang (N : Type) where
  /-- `number()`. -/
  number : GoString → Option N
  /-- `decode("base64").string().parse_json()`. -/
  decodeGroups : GoString → Option Groups
  /-- `trim()`. -/
  trim : GoString → GoString

structure Config where
  packNamespace : GoString
  teamGroupPrefix : GoString := "team-"

/-- An access-log record: its attributes, each a text or null. -/
structure Record where
  attributes : Option (GoMap (Option GoString))

inductive AccessPath where
  | apiKey
  | jwt
  deriving DecidableEq

def AccessPath.text : AccessPath → GoString
  | .apiKey => "api_key"
  | .jwt => "jwt"

/-- An access-log record of a request by an authenticated caller. -/
structure Entry (N : Type) where
  requestID : GoString
  startTime : Option GoString
  accessPath : AccessPath
  model : GoString
  modelResource : GoString
  clientID : GoString
  subject : Option GoString
  username : Option GoString
  groups : Option Groups
  inputTokens : Option N
  cacheRead : N
  cacheWrite : N
  outputTokens : Option N
  responseCode : GoString
  responseFlags : GoString
  durationMs : Option N
  ownerLookup : Option GoString := none

/-- The key manager's answer to a lookup, or that there was none. -/
inductive OwnerAnswer where
  | owner (subject username : GoString) (groups : List GoString)
  | unknown
  | failed

/-- What the events of one request have in common. -/
structure Common where
  model : GoString
  modelResource : GoString
  accessPath : GoString
  user : GoString
  team : GoString
  apiKey : GoString
  ownerLookup : Option GoString

inductive EventData (N : Type) where
  | request (usageReported : Bool) (responseCode responseFlags : GoString) (durationMs : Option N)
  | tokens (tokenType : GoString) (tokens : N)

structure Event (N : Type) where
  id : GoString
  type : GoString
  subject : GoString
  time : Option GoString
  common : Common
  data : EventData N

section Normalize

variable {N : Type} [Zero N] (b : Bloblang N) (cfg : Config) (r : Record)

/-- An attribute; Envoy writes "-" or nothing where a value is unset. -/
def Record.val (field : GoString) : Option GoString :=
  match (r.attributes.getD ∅).lookup field with
  | some (some text) => if text = "-" then none else some text
  | _ => none

/-- The parts of Envoy's route name: `httproute/<namespace>/<route>/rule/...`. -/
def route : List GoString := ((r.val "route").getD []).splitOn 47

/-- The name of a route in the pack's namespace. -/
def routeName : GoString :=
  if 2 < (route r).length ∧ (route r)[1]?.getD [] = cfg.packNamespace then (route r)[2]?.getD []
    else []

def externalSuffix : GoString := "-external"
def internalSuffix : GoString := "-internal"

def accessPath : Option AccessPath :=
  if hasSuffix (routeName cfg r) externalSuffix then some .apiKey
  else if hasSuffix (routeName cfg r) internalSuffix then some .jwt
  else none

def caller : AccessPath → GoString
  | .apiKey => (r.val "client_id").getD []
  | .jwt => (r.val "auth_subject").getD []

/-- A 401 or 403 that the gateway answered itself. -/
def rejected : Bool :=
  ((r.val "response_code").getD [] = "401" ∨ (r.val "response_code").getD [] = "403") ∧
    (r.val "response_code_details").getD [] ≠ "via_upstream"

/-- The groups of a verified token: encoded JSON, or names between commas. -/
def tokenGroups (text : GoString) : Groups :=
  (b.decodeGroups text).getD (.names (((text.splitOn 44).map b.trim).filter (· ≠ [])))

def number (field : GoString) : Option N := (r.val field).bind b.number

/-- `normalize`: only requests to a model's endpoint that were let through. -/
def normalize : Option (Entry N) :=
  match accessPath cfg r with
  | none => none
  | some path =>
    if caller r path = [] ∨ (r.val "request_id").getD [] = [] ∨ rejected r then none
    else some
      { requestID := (r.val "request_id").getD []
        startTime := r.val "start_time"
        accessPath := path
        model := (r.val "model").getD []
        modelResource := trimSuffix (trimSuffix (routeName cfg r) externalSuffix) internalSuffix
        clientID := if path = .apiKey then (r.val "client_id").getD [] else "login"
        subject := some (if path = .jwt then (r.val "auth_subject").getD [] else [])
        username := some (if path = .jwt then (r.val "auth_user").getD [] else [])
        groups := some (if path = .jwt then tokenGroups b ((r.val "auth_groups").getD [])
          else .names [])
        inputTokens := number b r "input_tokens"
        cacheRead := (number b r "cached_input_tokens").getD 0
        cacheWrite := (number b r "cache_creation_input_tokens").getD 0
        outputTokens := number b r "output_tokens"
        responseCode := (r.val "response_code").getD []
        responseFlags := (r.val "response_flags").getD []
        durationMs := number b r "duration_ms" }

/-- `identify`: the owner of an API key. What the answer does not say is left out. -/
def identify (lookup : GoString → OwnerAnswer) (entry : Entry N) : Entry N :=
  match entry.accessPath with
  | .jwt => entry
  | .apiKey =>
    match lookup entry.clientID with
    | .owner subject username groups =>
      { entry with
        subject := some subject
        username := some username
        groups := some (.names groups)
        ownerLookup := none }
    | .unknown => { entry with subject := none, username := none, groups := none, ownerLookup := none }
    | .failed => { entry with subject := none, username := none, groups := none, ownerLookup := some "failed" }

end Normalize

section Events

variable {N : Type} [Zero N] [Sub N] [Max N] [LT N] [DecidableLT N]

/-- The first of a person's groups that name a team. -/
def team (cfg : Config) : Option Groups → GoString
  | some (.names groups) =>
    ((sortStrings (groups.filter (hasPrefix · cfg.teamGroupPrefix))).head?).getD "none"
  | _ => "none"

/-- Who is billed: the person, or the key where the person is unknown. -/
def subject (entry : Entry N) : GoString :=
  if entry.subject.getD [] ≠ [] then entry.subject.getD [] else entry.clientID

def common (cfg : Config) (entry : Entry N) : Common where
  model := entry.model
  modelResource := entry.modelResource
  accessPath := entry.accessPath.text
  user := entry.username.getD []
  team := team cfg entry.groups
  apiKey := entry.clientID
  ownerLookup := entry.ownerLookup

def requestEvent (cfg : Config) (entry : Entry N) : Event N where
  id := entry.requestID
  type := "llm.request"
  subject := subject entry
  time := entry.startTime
  common := common cfg entry
  data := .request (entry.inputTokens.isSome || entry.outputTokens.isSome) entry.responseCode
    entry.responseFlags
    entry.durationMs

/-- The counts by token type. The input count includes what was cached. -/
def tokens (entry : Entry N) : List (GoString × N) :=
  [("cache_read", entry.cacheRead), ("cache_write", entry.cacheWrite),
    ("input", (entry.inputTokens.map
      (fun input => max (input - entry.cacheRead - entry.cacheWrite) 0)).getD 0),
    ("output", entry.outputTokens.getD 0)]

/-- The token types a request is counted for. -/
def counted (entry : Entry N) : List (GoString × N) := (tokens entry).filter (0 < ·.2)

def tokenEventID (requestID tokenType : GoString) : GoString :=
  requestID ++ (":" : GoString) ++ tokenType

def tokenEvent (cfg : Config) (entry : Entry N) (token : GoString × N) : Event N where
  id := tokenEventID entry.requestID token.1
  type := "llm.tokens"
  subject := subject entry
  time := entry.startTime
  common := common cfg entry
  data := .tokens token.1 token.2

/-- `events`: one for the request and one for each token type. -/
def events (cfg : Config) (entry : Entry N) : List (Event N) :=
  requestEvent cfg entry :: (counted entry).map (tokenEvent cfg entry)

/-- The events of a record. -/
def collect (b : Bloblang N) (cfg : Config) (lookup : GoString → OwnerAnswer) (r : Record) :
    List (Event N) :=
  match normalize b cfg r with
  | none => []
  | some entry => events cfg (identify lookup entry)

end Events

end collector
