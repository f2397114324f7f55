import ServingPack.Lib.Json
import ServingPack.Oidc.PublicKeys

open golang concurrency

namespace oidc

/-- The payload of a token as a map, where a name that occurs twice has its last value. -/
abbrev Claims := Fields Json

/-- `claims[name].(string)`, empty where it is no text. -/
def Claims.text (claims : Claims) (name : GoString) : GoString :=
  match claims.get name with
  | some (.string s) => s
  | _ => []

/-- A token as it is read, before its signature is checked. -/
structure Token where
  alg : GoString
  /-- Whether its method is a `SigningMethodRSA`. -/
  rsa : Bool
  header : Fields Json
  claims : Claims

/-- What the JWT library does. Times are in nanoseconds. -/
structure Jwt where
  /-- Reads a token, up to where the key function is asked for its key. -/
  parse : GoString → Except GoString Token
  /-- The text of an error of the key function's, as the library returns it. -/
  unverifiable : GoString → GoString
  /-- Checks the signature of a token under a key. -/
  verify : GoString → PublicKey → Except GoString Unit
  /-- Checks claims at a time, with a leeway and an expiry required. -/
  validate : Int → Int → Claims → Except GoString Unit
  /-- `GetExpirationTime`. -/
  expirationTime : Claims → Option Int
  /-- `GetAudience`, empty where it fails. -/
  audience : Claims → List GoString
  /-- `%q` of `fmt`. -/
  quote : GoString → GoString

/-- Claims are valid only before they expire. -/
structure Jwt.AsDocumented (jwt : Jwt) : Prop where
  expires : ∀ leeway now claims, jwt.validate leeway now claims = .ok () →
    ∃ expiry, jwt.expirationTime claims = some expiry ∧ now < expiry + leeway

/-- `clockLeeway`, in nanoseconds. -/
def clockLeeway : Int := 30 * 1000000000

/-- What a validator checks claims against. -/
structure Expected where
  issuer : GoString
  clientID : GoString := []
  acceptAudience : Bool := false
  deriving DecidableEq

/-- The errors that callers tell from the others. -/
inductive Transient where
  | notReady
  | keysUnavailable
  deriving DecidableEq

/-- An error of `ValidateToken`, with the one it wraps. -/
structure TokenError where
  wraps : Option Transient := none
  text : GoString
  deriving DecidableEq

/-- `ErrNotReady`. -/
def errNotReady : TokenError where
  wraps := some .notReady
  text := "jwt validator: initial JWKS fetch not yet complete"

section ValidateToken

variable (jwt : Jwt) (x : Expected)

/-- An error of `ParseWithClaims`. -/
def failed (text : GoString) : TokenError where
  text := lit "token validation failed: " ++ text

/-- The key function up to its lookup: the key ID of a token. -/
def keyID (token : Token) : Except GoString GoString :=
  if token.rsa then
    match token.header.get "kid" with
    | some (.string kid) => .ok kid
    | _ => .error "missing kid in token header"
  else .error (lit "unexpected signing method: " ++ token.alg)

/-- The error for a key that is not cached after the refresh. -/
def unknownKey (kid : GoString) : Bool → TokenError
  | true => { failed (jwt.unverifiable
    (lit "unknown key ID " ++ kid ++ lit ": jwt validator: signing keys cannot be fetched")) with
      wraps := some .keysUnavailable }
  | false => failed (jwt.unverifiable
      (lit "unknown key ID: " ++ kid ++ lit " (not found after key refresh)"))

/-- `ValidateToken` up to the lookup of the key. -/
def beginValidation (ready : Bool) (raw : GoString) : Except TokenError (Token × GoString) :=
  if ready then
    match jwt.parse raw with
    | .error text => .error (failed text)
    | .ok token =>
      match keyID token with
      | .error text => .error (failed (jwt.unverifiable text))
      | .ok kid => .ok (token, kid)
  else .error errNotReady

/-- The checks of the issuer and of the client. -/
def checkClaims (claims : Claims) : Except TokenError Claims :=
  if claims.text "iss" ≠ x.issuer then
    .error { text := lit "invalid issuer: expected " ++ x.issuer ++ lit ", got " ++
      claims.text "iss" }
  else if x.clientID ≠ [] ∧ claims.text "azp" ≠ x.clientID ∧
    (x.acceptAudience = false ∨ x.clientID ∉ jwt.audience claims) then
    .error { text := lit "token issued to " ++ jwt.quote (claims.text "azp") ++ lit ", not " ++
      x.clientID }
  else .ok claims

/-- `ValidateToken` from where it has the key. -/
def checkToken (raw : GoString) (claims : Claims) (key : PublicKey) (now : Int) :
    Except TokenError Claims :=
  match jwt.verify raw key with
  | .error text => .error (failed text)
  | .ok () =>
    match jwt.validate clockLeeway now claims with
    | .error text => .error (failed text)
    | .ok () => checkClaims jwt x claims

/-- What `ValidateToken` returns once the lookup has ended. -/
def endValidation (raw : GoString) (claims : Claims) (now : Int) :
    Lookup PublicKey → Option (Except TokenError Claims)
  | .found _ key => some (checkToken jwt x raw claims key now)
  | .refused kid unavailable => some (.error (unknownKey jwt kid unavailable))
  | _ => none

end ValidateToken

/-- What the Authorization header of a request leads to. -/
inductive Entry (U R : Type) where
  | admitted (user : U)
  | refused (response : R)
  | validate (raw : GoString)

/-- What stands before the handlers of a service: what it does with the Authorization
header of a request, empty where there is none, and with what `ValidateToken` returns. -/
structure Middleware (U R : Type) where
  enter : GoString → Entry U R
  leave : Except TokenError Claims → Except R U

/-- How far a request has come. -/
inductive Passage (U R : Type) where
  | idle
  /-- `ValidateToken` looks up the key of its token. -/
  | looking (raw : GoString) (claims : Claims)
  | ended (result : Except R U)

/-- A validator, and every request that is checked with it. -/
structure Gate (U R : Type) where
  validator : Validator PublicKey
  passages : Nat → Passage U R := fun _ => .idle

/-- What can be told of a gate's steps. -/
inductive Note where
  | arrived (request : Nat) (header : GoString) (time : Int)
  /-- A fetch has cached the keys of a JWKS. -/
  | stored (set : List Jwk)
  /-- A fetch has ended. -/
  | fetched (failed : Bool)
  | ready

/-- What there is to note of a step of the validator. -/
def Note.of : Action → Effect PublicKey → Option Note
  | .respond _ (.ok set), .stored _ => some (.stored set)
  | _, .finished _ err => some (.fetched err.isSome)
  | _, .becameReady => some .ready
  | _, _ => none

/-- Whether an action begins a call of `ValidateToken`. -/
def Action.begins : Action → Bool
  | .validateToken _ _ => true
  | _ => false

namespace Gate

inductive Act where
  | validator (a : Action)
  | arrive (request : Nat) (header : GoString)
  | conclude (request : Nat)

variable {U R : Type}

section Step

variable (jwt : Jwt) (x : Expected) (mw : Middleware U R) (g : Gate U R)

def setPassage (i : Nat) (p : Passage U R) : Gate U R :=
  { g with passages := Function.update g.passages i p }

/-- A request comes in. -/
def arrive (i : Nat) (header : GoString) : Option (Gate U R × List Note) :=
  match g.passages i with
  | .idle =>
    match mw.enter header with
    | .admitted user => some (g.setPassage i (.ended (.ok user)),
        [.arrived i header g.validator.now])
    | .refused response =>
        some (g.setPassage i (.ended (.error response)), [.arrived i header g.validator.now])
    | .validate raw =>
      match beginValidation jwt g.validator.ready raw with
      | .error e => some (g.setPassage i (.ended (mw.leave (.error e))),
          [.arrived i header g.validator.now])
      | .ok (token, kid) =>
        (g.validator.validateToken i kid).map (fun r =>
          ({ g with validator := r.1 }.setPassage i (.looking raw token.claims),
            [.arrived i header g.validator.now]))
  | _ => none

/-- `ValidateToken` returns. -/
def conclude (i : Nat) : Option (Gate U R × List Note) :=
  match g.passages i with
  | .looking raw claims =>
    (endValidation jwt x raw claims g.validator.now (g.validator.lookups i)).map (fun result =>
      (g.setPassage i (.ended (mw.leave result)), []))
  | _ => none

def step : Act → Option (Gate U R × List Note)
  | .validator a =>
    if a.begins then none
    else (oidc.step parseRSAPublicKey g.validator a).map
      (fun r => ({ g with validator := r.1 }, r.2.filterMap (Note.of a)))
  | .arrive i header => g.arrive jwt mw i header
  | .conclude i => g.conclude jwt x mw i

end Step

section Accounts

/-- The JWKS whose keys are cached. -/
def lastSet : List Note → Option (List Jwk)
  | [] => none
  | .stored set :: _ => some set
  | _ :: earlier => lastSet earlier

/-- Whether the fetch that ended last failed. -/
def lastFetch : List Note → Option Bool
  | [] => none
  | .fetched failed :: _ => some failed
  | _ :: earlier => lastFetch earlier

/-- At a moment from the arrival of a request on. -/
def Since (log : List Note) (arrival : Note) (P : List Note → Prop) : Prop :=
  ∃ later earlier, log = later ++ earlier ∧ arrival ∈ earlier ∧ P earlier

/-- The cached JWKS has a key under an ID, of the last entry that gives one. -/
def Serves (kid : GoString) (key : PublicKey) (log : List Note) : Prop :=
  ∃ set entry, lastSet log = some set ∧
    publickeys.Last (publickeys.Gives parseRSAPublicKey kid) set entry ∧
    parseRSAPublicKey entry = some key

/-- The cached JWKS has no key under an ID. -/
def Lacks (kid : GoString) (log : List Note) : Prop :=
  ∀ set, lastSet log = some set → ∀ entry ∈ set, ¬publickeys.Gives parseRSAPublicKey kid entry

variable (jwt : Jwt) (x : Expected) (mw : Middleware U R)

/-- What `ValidateToken` returned for the token of a request that arrived at a time, and
what there was for it by now. -/
inductive Accounted (log : List Note) (now : Int) (i : Nat) (header : GoString) (began : Int)
    (raw : GoString) :
    Except TokenError Claims → Prop where
  | notReady {later earlier : List Note} (hlog : log = later ++ .arrived i header began :: earlier)
      (hready : .ready ∉ earlier) : Accounted log now i header began raw (.error errNotReady)
  | unreadable {text : GoString} (hparse : jwt.parse raw = .error text) :
      Accounted log now i header began raw (.error (failed text))
  | unusable {token : Token} {text : GoString} (hparse : jwt.parse raw = .ok token)
    (hkeyID : keyID token = .error text) :
      Accounted log now i header began raw (.error (failed (jwt.unverifiable text)))
  | unknown {token : Token} {kid : GoString} {unavailable : Bool}
    (hparse : jwt.parse raw = .ok token)
      (hkeyID : keyID token = .ok kid) (hlacks : Since log (.arrived i header began) (Lacks kid))
      (hfetch : Since log (.arrived i header began) (fun earlier => (lastFetch earlier).getD false =
        unavailable)) :
      Accounted log now i header began raw (.error (unknownKey jwt kid unavailable))
  | checked {token : Token} {kid : GoString} {key : PublicKey} {time : Int}
    (hparse : jwt.parse raw = .ok token)
      (hkeyID : keyID token = .ok kid)
        (hserves : Since log (.arrived i header began) (Serves kid key))
      (hbegan : began ≤ time) (hnow : time ≤ now) :
      Accounted log now i header began raw (checkToken jwt x raw token.claims key time)

/-- What a request ended with, and what there was for it by now. -/
inductive Outcome (log : List Note) (now : Int) (i : Nat) (header : GoString) (began : Int) :
    Except R U → Prop where
  | admitted {user : U} (henter : mw.enter header = .admitted user) :
    Outcome log now i header began (.ok user)
  | refused {response : R} (henter : mw.enter header = .refused response) :
      Outcome log now i header began (.error response)
  | validated {raw : GoString} {result : Except TokenError Claims}
    (henter : mw.enter header = .validate raw)
      (haccounted : Accounted jwt x log now i header began raw result) :
        Outcome log now i header began (mw.leave result)

/-- What there is for the claims of a request's token: its signature under a key that the
provider's JWKS had when the token was checked, its expiry, its issuer and its client. -/
structure Vouched (log : List Note) (now : Int) (i : Nat) (header : GoString) (began : Int)
    (raw : GoString) (claims : Claims) : Prop where
  signed : ∃ token kid key, jwt.parse raw = .ok token ∧ token.claims = claims ∧ token.rsa = true ∧
    keyID token = .ok kid ∧ Since log (.arrived i header began) (Serves kid key) ∧
      jwt.verify raw key = .ok ()
  unexpired : ∃ time expiry, began ≤ time ∧ time ≤ now ∧ jwt.expirationTime claims = some expiry ∧
    time < expiry + clockLeeway
  issuer : claims.text "iss" = x.issuer
  client : x.clientID ≠ [] → claims.text "azp" = x.clientID ∨ x.acceptAudience = true ∧
    x.clientID ∈ jwt.audience claims

/-- What there is against a request's token: it is none that can be checked, or the JWKS
has no such key as of a fetch that succeeded, or its signature or its claims are not valid. -/
inductive Unacceptable (log : List Note) (now : Int) (i : Nat) (header : GoString) (began : Int)
    (raw : GoString) : Prop where
  | unreadable {text : GoString} (hparse : jwt.parse raw = .error text)
  | unusable {token : Token} {text : GoString} (hparse : jwt.parse raw = .ok token)
    (hkeyID : keyID token = .error text)
  | unknown {token : Token} {kid : GoString} (hparse : jwt.parse raw = .ok token)
    (hkeyID : keyID token = .ok kid)
      (hlacks : Since log (.arrived i header began) (Lacks kid))
      (hfetch : Since log (.arrived i header began) (fun earlier => lastFetch earlier ≠ some true))
  | invalid {token : Token} {kid : GoString} {key : PublicKey} {time : Int}
    (hparse : jwt.parse raw = .ok token)
      (hkeyID : keyID token = .ok kid)
        (hserves : Since log (.arrived i header began) (Serves kid key))
      (hbegan : began ≤ time) (hnow : time ≤ now)
      (hinvalid : jwt.verify raw key ≠ .ok () ∨
        jwt.validate clockLeeway time token.claims ≠ .ok () ∨
        token.claims.text "iss" ≠ x.issuer ∨
        (x.clientID ≠ [] ∧ token.claims.text "azp" ≠ x.clientID ∧
          (x.acceptAudience = false ∨ x.clientID ∉ jwt.audience token.claims)))

/-- The keys could not be had: no fetch had succeeded when a request arrived, or its key
was not there and the last fetch had failed. -/
inductive Unavailable (log : List Note) (i : Nat) (header : GoString) (began : Int)
    (raw : GoString) : Prop where
  | notReady {later earlier : List Note} (hlog : log = later ++ .arrived i header began :: earlier)
      (hready : .ready ∉ earlier)
  | unknown {token : Token} {kid : GoString} (hparse : jwt.parse raw = .ok token)
    (hkeyID : keyID token = .ok kid)
      (hlacks : Since log (.arrived i header began) (Lacks kid))
      (hfetch : Since log (.arrived i header began) (fun earlier => lastFetch earlier = some true))

end Accounts

end Gate

end oidc
