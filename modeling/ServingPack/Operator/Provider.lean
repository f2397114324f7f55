import ServingPack.Lib.Domains
import ServingPack.Lib.Unstructured
import ServingPack.Operator.Controller.ApiKeys
import ServingPack.Operator.Reconcilers.Passthrough

open golang apiserver v1alpha1 unstructured domains
open controller (errorf)

namespace provider

/-- The packages a provider is resolved with. -/
structure Libraries where
  /-- `strings.ToLower` -/
  toLower : GoString → GoString
  /-- `validation.IsDNS1123Subdomain`: what is wrong with a name. -/
  nameProblems : GoString → List GoString
  /-- `smithyhttp.ValidHostLabel` -/
  validHostLabel : GoString → Bool
  /-- The hostname of Bedrock's runtime endpoint for a region, FIPS or not and dual-stack or not. -/
  resolveEndpoint : (region : GoString) → (useFIPS useDualStack : Bool) →
    Except StatusError GoString

/-- The validated input to the gateway builders. -/
structure ResolvedProvider extends Resolved where
  port : Int := 0
  schemaName : GoString
  schemaVersion : GoString := []
  schemaPrefix : GoString := []
  caConfigMapName : GoString := []
  securityPolicy : Value

/-- `strings.Trim` with one byte to trim. -/
def trim (s : GoString) (c : UInt8) : GoString := (s.dropWhile (· == c)).rdropWhile (· == c)

def requireCredential (p : ProviderSpec) (credentialType : GoString) : Except StatusError Unit :=
  if p.credential.any (fun credential => credential.type ≠ credentialType) then
    .error (errorf (("spec.provider.credential.type must be " : GoString) ++ credentialType ++
      (" for this backend" : GoString)))
  else if credentialType = credentialAPIKey ∧ isBlank p.credentialSecretName then
    .error (errorf "spec.provider.credentialSecretName must not be empty")
  else if credentialType = credentialWorkloadIdentity ∧ p.credentialSecretName ≠ [] then
    .error (errorf "spec.provider.credentialSecretName must be omitted for workload identity")
  else .ok ()

def resolveOpenAI (p : ProviderSpec) : Except StatusError ResolvedProvider :=
  if p.backend.any (fun backend => backend.bedrock.isSome) then
    .error (errorf "spec.provider.backend.bedrock is only valid with type=Bedrock")
  else do
    requireCredential p credentialAPIKey
    let pre : GoString := if p.schemaVersion = [] then "v1" else p.schemaVersion
    .ok { hostname := []
          schemaName := backendOpenAI
          schemaPrefix := 47 :: trim pre 47
          securityPolicy := .map
            [(lit "apiKey", .map [(lit "secretRef",
              .map [(lit "name", .string p.credentialSecretName)])]),
             (lit "type", .string "APIKey")] }

def bedrockRuntime : GoString := "bedrock-runtime"
def bedrockRuntimeFIPS : GoString := "bedrock-runtime-fips"
def vpce : GoString := "vpce"
def dualStackZone : GoString := "api.aws"

/-- A hostname in lower case and without the dot of the DNS root. -/
def Libraries.normalHost (lib : Libraries) (hostname : GoString) : GoString :=
  trimSuffix (lib.toLower hostname) "."

/-- One turn of the check of a hostname, at the labels from one on: whether they spell
the endpoint of a region that is not an endpoint of the configured one. -/
def Libraries.misdirects (lib : Libraries) (hostname region : GoString) : List GoString → Bool
  | label :: hostRegion :: third :: rest =>
    if label = bedrockRuntime ∨ label = bedrockRuntimeFIPS then
      let fips := label = bedrockRuntimeFIPS
      let dualStack := hasSuffix hostname (46 :: dualStackZone)
      match lib.resolveEndpoint hostRegion fips dualStack with
      | .error _ => false
      | .ok endpoint =>
        -- a VPC endpoint has "vpce" right after its region
        let suffix := domain (if third = vpce then label :: hostRegion :: rest
          else label :: hostRegion :: third :: rest)
        if suffix ≠ endpoint then false
        else
          match lib.resolveEndpoint region fips dualStack with
          | .error _ => true
          | .ok expected => suffix ≠ expected
    else false
  | _ => false

def Libraries.validateBedrockOverride (lib : Libraries) (hostname region : GoString) :
    Except StatusError Unit :=
  let hostname := lib.normalHost hostname
  if (labels hostname).tails.any (lib.misdirects hostname region) then
    .error (errorf (("spec.provider.hostname region does not match spec.provider.backend.bedrock.region " : GoString) ++
      region ++ ("; requests would be signed for the wrong region" : GoString)))
  else .ok ()

/-- The region a Bedrock backend is configured with, blank where none is. -/
def configuredRegion (p : ProviderSpec) : GoString :=
  match p.backend.bind ProviderBackend.bedrock with
  | some bedrock => bedrock.region
  | none => []

def Libraries.resolveBedrock (lib : Libraries) (p : ProviderSpec) :
    Except StatusError ResolvedProvider :=
  let region := configuredRegion p
  if isBlank region then .error (errorf "spec.provider.backend.bedrock.region must not be empty")
  else do
    requireCredential p credentialWorkloadIdentity
    if p.schemaVersion ≠ [] ∧ p.schemaVersion ≠ "v1" then
      .error (errorf "spec.provider.schemaVersion is only configurable for OpenAI")
    else if ¬lib.validHostLabel region then
      .error (errorf "spec.provider.backend.bedrock.region must be a valid DNS label")
    else
      match lib.resolveEndpoint region false false with
      | .error e => .error (e.wrap "spec.provider.backend.bedrock.region")
      | .ok endpoint => do
        lib.validateBedrockOverride p.hostname region
        .ok { hostname := endpoint
              schemaName := "AWSBedrock"
              securityPolicy := .map
                [(lit "awsCredentials", .map [(lit "region", .string region)]),
                 (lit "type", .string "AWSCredentials")] }

/-- The chosen backend; an omitted one is the OpenAI-compatible one. -/
def backendType (p : ProviderSpec) : GoString :=
  match p.backend with
  | some backend => backend.type
  | none => backendOpenAI

def Libraries.resolveBackend (lib : Libraries) (p : ProviderSpec) :
    Except StatusError ResolvedProvider :=
  if backendType p = backendOpenAI then resolveOpenAI p
  else if backendType p = backendBedrock then lib.resolveBedrock p
  else .error (errorf (("unsupported spec.provider.backend.type " : GoString) ++
    quote (backendType p)))

/-- The problems of a name, as an error lists them. -/
def joinProblems (problems : List GoString) : GoString := (lit "; ").intercalate problems

/-- The checks of the address that a backend resolved, shared by all backends. -/
def Libraries.checkAddress (lib : Libraries) (p : ProviderSpec) (backend : ResolvedProvider) :
    Except StatusError ResolvedProvider :=
  let hostname := if p.hostname ≠ [] then p.hostname else backend.hostname
  let port := if p.port = 0 then 443 else p.port
  if hostname = [] then .error (errorf "spec.provider.hostname must not be empty")
  else
    let hostname := lib.normalHost hostname
    if lib.nameProblems hostname ≠ [] then
      .error (errorf (("spec.provider.hostname must be a bare hostname: " : GoString) ++
        joinProblems (lib.nameProblems hostname)))
    else if port < 1 ∨ 65535 < port
      then .error (errorf "spec.provider.port must be between 1 and 65535")
    else
      match p.tls with
      | none => .ok { backend with hostname := hostname, port := port }
      | some tls =>
        if lib.nameProblems tls.caConfigMapName ≠ [] then
          .error (errorf (("spec.provider.tls.caConfigMapName must be a ConfigMap name: " :
            GoString) ++
            joinProblems (lib.nameProblems tls.caConfigMapName)))
        else .ok { backend with hostname := hostname, port := port, caConfigMapName := tls.caConfigMapName }

def Libraries.resolve (lib : Libraries) (p : ProviderSpec) : Except StatusError ResolvedProvider :=
  do
  lib.checkAddress p (← lib.resolveBackend p)

section Accepted

variable {lib : Libraries} {p : ProviderSpec} {backend resolved : ResolvedProvider}

private theorem bind_ok {E A B : Type} {x : Except E A} {f : A → Except E B} {b : B} :
    x >>= f = .ok b ↔ ∃ a, x = .ok a ∧ f a = .ok b := by
  cases x with
  | error e =>
    constructor
    · intro h
      cases h
    · rintro ⟨a, h, _⟩
      cases h
  | ok a =>
    constructor
    · intro h
      exact ⟨a, rfl, h⟩
    · rintro ⟨a', h, hf⟩
      obtain rfl := Except.ok.inj h
      exact hf

/-- What a Bedrock backend resolves to, and the checks it has passed. -/
theorem resolveBedrock_ok (h : lib.resolveBedrock p = .ok backend) :
    ∃ e, lib.validHostLabel (configuredRegion p) = true ∧
      lib.resolveEndpoint (configuredRegion p) false false = .ok e ∧
      lib.validateBedrockOverride p.hostname (configuredRegion p) = .ok () ∧
      backend.hostname = e := by
  by_cases hblank : isBlank (configuredRegion p) = true
  · simp only [Libraries.resolveBedrock, if_pos hblank] at h
    cases h
  · simp only [Libraries.resolveBedrock, if_neg hblank] at h
    obtain ⟨⟨⟩, _, h⟩ := bind_ok.mp h
    split_ifs at h with hschema hlabel
    cases hendpoint : lib.resolveEndpoint (configuredRegion p) false false with
    | error e =>
      rw [hendpoint] at h
      cases h
    | ok e =>
      rw [hendpoint] at h
      obtain ⟨⟨⟩, hoverride, h⟩ := bind_ok.mp h
      obtain rfl := Except.ok.inj h
      exact ⟨e, hlabel, rfl, hoverride, rfl⟩

/-- An address that passes the checks is the spec's hostname or else the backend's, in
its normal form. -/
theorem checkAddress_ok (h : lib.checkAddress p backend = .ok resolved) :
    resolved.hostname = lib.normalHost (if p.hostname ≠ [] then p.hostname else backend.hostname) ∧
      lib.nameProblems resolved.hostname = [] := by
  simp only [Libraries.checkAddress] at h
  generalize hchosen : (if p.hostname ≠ [] then p.hostname else backend.hostname) = chosen at h ⊢
  generalize (if p.port = 0 then 443 else p.port) = port at h
  split_ifs at h with hempty hname hport
  rw [not_not] at hname
  cases htls : p.tls with
  | none =>
    rw [htls] at h
    obtain rfl := Except.ok.inj h
    exact ⟨rfl, hname⟩
  | some tls =>
    rw [htls] at h
    simp only at h
    split_ifs at h with hca
    obtain rfl := Except.ok.inj h
    exact ⟨rfl, hname⟩

/-- A Bedrock provider that resolves has a backend whose address passed the check. -/
theorem resolve_bedrock (hbackend : backendType p = backendBedrock)
    (h : lib.resolve p = .ok resolved) :
    ∃ backend, lib.resolveBedrock p = .ok backend ∧ lib.checkAddress p backend = .ok resolved := by
  have hother : backendBedrock ≠ backendOpenAI := by decide
  rw [Libraries.resolve, Libraries.resolveBackend, hbackend, if_neg hother, if_pos rfl] at h
  exact bind_ok.mp h

end Accepted

end provider
