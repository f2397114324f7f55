import ServingPack.Lib.Names
import ServingPack.Operator.Provider

open golang apiserver v1alpha1 naming unstructured domains

/-! For which region requests to a Bedrock provider are signed. -/

namespace provider

def serviceLabel (fips : Bool) : GoString := if fips then bedrockRuntimeFIPS else bedrockRuntime

/-- The labels of a VPC endpoint's DNS name: those of the public one, with "vpce"
after the region. -/
def vpcLabels : List GoString → List GoString
  | service :: region :: rest => service :: region :: vpce :: rest
  | parts => parts

/-- Whether a hostname ends in an endpoint, as its public name or as its VPC one. -/
def EndsIn (hostname endpoint : GoString) : Prop :=
  labels endpoint <:+ labels hostname ∨ vpcLabels (labels endpoint) <:+ labels hostname

/-- A label in lower case. -/
def LowerLabel (label : GoString) : Prop := label ≠ [] ∧ ∀ c ∈ label, lowerAlnum c = true ∨ c = 45

/-- What the packages' documentation says of them, for the DNS suffixes of the AWS partitions. -/
structure AsDocumented (lib : Libraries) (suffixes : List (List GoString)) : Prop where
  lower : ∀ s : GoString, (∀ c ∈ s, c < 128) → lib.toLower s = toLower s
  subdomain : ∀ s, lib.nameProblems s = [] → isDNS1123Subdomain s = true
  hostLabel : ∀ l, lib.validHostLabel l = true → l ≠ [] ∧ ∀ c ∈ l, alnum c = true ∨ c = 45
  suffix_labels : ∀ s ∈ suffixes, ∀ l ∈ s, LowerLabel l
  /-- A suffix has two labels at least and is not that of a VPC endpoint. -/
  suffix_zone : ∀ s ∈ suffixes, 2 ≤ s.length ∧ s.head? ≠ some vpce
  /-- No suffix ends in another. -/
  suffix_apart : ∀ s ∈ suffixes, ∀ s' ∈ suffixes, s' <:+ s → s' = s
  endpoint : ∀ region fips dualStack e, lib.validHostLabel region = true →
    lib.resolveEndpoint region fips dualStack = .ok e →
    ∃ s ∈ suffixes, e = domain (serviceLabel fips :: region :: s)

section

variable (lib : Libraries)

/-- Whether a hostname is an endpoint of a region, the case of letters aside. -/
def EndpointOf (region hostname : GoString) : Prop :=
  ∃ fips dualStack e, lib.resolveEndpoint region fips dualStack = .ok e ∧ toLower e = hostname

/-- Requests to a hostname are signed for its region: whatever region's runtime endpoint
it ends in, with or without letter case, root dot and more labels in front, the
configured region has that endpoint too. -/
def SignedForHost (region hostname : GoString) : Prop :=
  ∀ hostRegion fips dualStack e, lib.validHostLabel hostRegion = true →
    lib.resolveEndpoint hostRegion fips dualStack = .ok e →
    EndsIn (lib.normalHost hostname) (toLower e) → EndpointOf lib region (toLower e)

/-- Whether the check knows an endpoint again: the resolver gives it for its region in
lower case, as a dual-stack endpoint just when it is under api.aws. -/
def Recognized (hostRegion : GoString) (fips : Bool) (e : GoString) : Prop :=
  lib.resolveEndpoint (toLower hostRegion) fips (hasSuffix (toLower e) (46 :: dualStackZone)) =
    .ok (toLower e)

/-- A hostname that ends in an endpoint of another region which the check does not
know again. -/
def Overlooked (region hostname : GoString) : Prop :=
  ∃ hostRegion fips dualStack e, lib.validHostLabel hostRegion = true ∧
    lib.resolveEndpoint hostRegion fips dualStack = .ok e ∧ ¬Recognized lib hostRegion fips e ∧
    EndsIn (lib.normalHost hostname) (toLower e) ∧ ¬EndpointOf lib region (toLower e)

end

section LowerCase

private theorem toLower_domain (parts : List GoString) :
    toLower (domain parts) = domain (parts.map toLower) := by
  induction parts with
  | nil => rfl
  | cons label rest ih =>
    cases rest with
    | nil => simp [domain]
    | cons next rest =>
      have hne : (next :: rest).map toLower ≠ [] := List.cons_ne_nil _ _
      rw [@domain_cons label _ (List.cons_ne_nil next rest), List.map_cons, domain_cons hne, ← ih]
      simp [toLower]

/-- What lower case leaves as it is. -/
theorem toLower_of_lower {s : GoString} (h : ∀ c ∈ s, lowerAlnum c = true ∨ c = 45 ∨ c = 46) :
    toLower s = s := by
  have hfixed : ∀ c ∈ s, (if 65 ≤ c && c ≤ 90 then c + 32 else c) = id c := by
    intro c hc
    have hlower := h c hc
    simp only [lowerAlnum, letter, Bool.or_eq_true, Bool.and_eq_true, decide_eq_true_eq,
      UInt8.le_iff_toNat_le, ← UInt8.toNat_inj, UInt8.reduceToNat, id] at hlower ⊢
    split_ifs
    · omega
    · rfl
  rw [toLower, List.map_congr_left hfixed, List.map_id]

private theorem toLower_toLower (s : GoString) : toLower (toLower s) = toLower s := by
  have hfixed : ∀ c ∈ toLower s, (if 65 ≤ c && c ≤ 90 then c + 32 else c) = id c := by
    intro c hc
    obtain ⟨b, _, rfl⟩ := List.mem_map.mp hc
    by_cases hcapital : (65 ≤ b && b ≤ 90) = true
    · rw [if_pos hcapital]
      apply if_neg
      simp only [Bool.and_eq_true, decide_eq_true_eq, UInt8.le_iff_toNat_le, UInt8.reduceToNat,
        UInt8.toNat_add] at hcapital ⊢
      omega
    · rw [if_neg hcapital, if_neg hcapital, id]
  calc toLower (toLower s) = (toLower s).map id := List.map_congr_left hfixed
    _ = toLower s := List.map_id _

private theorem toLower_label {label : GoString}
    (h : label ≠ [] ∧ ∀ c ∈ label, alnum c = true ∨ c = 45) :
    LowerLabel (toLower label) := by
  obtain ⟨hne, hbytes⟩ := h
  refine ⟨by simpa [toLower] using hne, ?_⟩
  intro c hc
  obtain ⟨b, hb, rfl⟩ := List.mem_map.mp hc
  have hbyte := hbytes b hb
  split_ifs with hcapital <;>
    simp only [alnum, lowerAlnum, letter, Bool.or_eq_true, Bool.and_eq_true, decide_eq_true_eq,
      UInt8.le_iff_toNat_le, ← UInt8.toNat_inj, UInt8.reduceToNat,
      UInt8.toNat_add] at hbyte hcapital ⊢ <;>
    omega

private theorem LowerLabel.dotless {label : GoString} (h : LowerLabel label) : Dotless label := by
  intro hdot
  obtain hc | hc := h.2 46 hdot
  · cases hc
  · cases hc

private theorem LowerLabel.toLower_eq {label : GoString} (h : LowerLabel label) :
    toLower label = label := by
  apply toLower_of_lower
  intro c hc
  exact (h.2 c hc).imp_right .inl

private theorem lowerLabel_of_all {label : GoString} (hne : label ≠ [])
    (h : label.all (fun c => lowerAlnum c || c = 45) = true) : LowerLabel label := by
  refine ⟨hne, ?_⟩
  intro c hc
  simpa using List.all_eq_true.mp h c hc

private theorem serviceLabel_lower (fips : Bool) : LowerLabel (serviceLabel fips) := by
  cases fips
  · exact lowerLabel_of_all (by decide) (by decide)
  · exact lowerLabel_of_all (by decide) (by decide)

private theorem ascii_of_alnum {c : UInt8} (h : alnum c = true ∨ c = 45) : c < 128 := by
  simp only [alnum, lowerAlnum, letter, Bool.or_eq_true, Bool.and_eq_true, decide_eq_true_eq,
    UInt8.le_iff_toNat_le, UInt8.lt_iff_toNat_lt, ← UInt8.toNat_inj, UInt8.reduceToNat] at h ⊢
  omega

private theorem alnum_of_lowerAlnum {c : UInt8} (h : lowerAlnum c = true ∨ c = 45) :
    alnum c = true ∨ c = 45 :=
  h.imp_left (fun hlower => by simp [alnum, hlower])

private theorem byte_of_domain {parts : List GoString} {c : UInt8} (h : c ∈ domain parts) :
    c = 46 ∨ ∃ label ∈ parts, c ∈ label := by
  induction parts with
  | nil => cases h
  | cons label rest ih =>
    cases rest with
    | nil => exact .inr ⟨label, List.mem_cons_self, by simpa [domain] using h⟩
    | cons next rest =>
      rw [domain_cons (List.cons_ne_nil next rest), List.mem_append, List.mem_cons] at h
      obtain hlabel | hdot | hrest := h
      · exact .inr ⟨label, List.mem_cons_self, hlabel⟩
      · exact .inl hdot
      · obtain hdot | ⟨l, hl, hc⟩ := ih hrest
        · exact .inl hdot
        · exact .inr ⟨l, List.mem_cons_of_mem _ hl, hc⟩

end LowerCase

section Endpoints

variable {lib : Libraries} {suffixes : List (List GoString)} {region e : GoString}
  {fips dualStack : Bool}

/-- The labels of an endpoint in lower case: the service's, the region's and those of a
DNS suffix. -/
theorem AsDocumented.endpoint_labels (hlib : AsDocumented lib suffixes)
    (hlabel : lib.validHostLabel region = true)
    (he : lib.resolveEndpoint region fips dualStack = .ok e) :
    ∃ s ∈ suffixes, toLower e = domain (serviceLabel fips :: toLower region :: s) ∧
      labels (toLower e) = serviceLabel fips :: toLower region :: s := by
  obtain ⟨s, hs, rfl⟩ := hlib.endpoint region fips dualStack e hlabel he
  have hsuffix : s.map toLower = s := by
    have hsame : ∀ l ∈ s, toLower l = id l := fun l hl => (hlib.suffix_labels s hs l hl).toLower_eq
    rw [List.map_congr_left hsame, List.map_id]
  have hlower : toLower (domain (serviceLabel fips :: region :: s)) =
      domain (serviceLabel fips :: toLower region :: s) := by
    rw [toLower_domain, List.map_cons, List.map_cons, (serviceLabel_lower fips).toLower_eq, hsuffix]
  refine ⟨s, hs, hlower, ?_⟩
  rw [hlower]
  apply labels_domain _ (List.cons_ne_nil _ _)
  intro l hl
  obtain rfl | rfl | hl := by simpa using hl
  · exact (serviceLabel_lower fips).dotless
  · exact (toLower_label (hlib.hostLabel region hlabel)).dotless
  · exact (hlib.suffix_labels s hs l hl).dotless

/-- Names with DNS suffixes, the first with no fewer labels before its own: one ends in
the other only if they are the same. -/
theorem AsDocumented.suffix_unique (hlib : AsDocumented lib suffixes) (front before : List GoString)
    {s s' : List GoString} (hs : s ∈ suffixes) (hs' : s' ∈ suffixes)
    (h : front ++ s' <:+ before ++ s)
    (hlength : before.length ≤ front.length) : front ++ s' = before ++ s ∧ s' = s := by
  have hle := h.length_le
  simp only [List.length_append] at hle
  have htail : s' <:+ s :=
    List.suffix_of_suffix_length_le ((List.suffix_append front s').trans h)
      (List.suffix_append before s) (by omega)
  obtain rfl := hlib.suffix_apart s hs s' hs' htail
  refine ⟨h.eq_of_length ?_, rfl⟩
  simp only [List.length_append]
  omega

/-- An endpoint is in its normal form once it is in lower case. -/
theorem AsDocumented.normalHost_endpoint (hlib : AsDocumented lib suffixes)
    (hlabel : lib.validHostLabel region = true)
    (he : lib.resolveEndpoint region fips dualStack = .ok e) : lib.normalHost e = toLower e := by
  have hascii : ∀ c ∈ e, c < 128 := by
    obtain ⟨s, hs, rfl⟩ := hlib.endpoint region fips dualStack e hlabel he
    intro c hc
    obtain rfl | ⟨l, hl, hc⟩ := byte_of_domain hc
    · decide
    · apply ascii_of_alnum
      obtain hservice | hregion | hl := by simpa using hl
      · exact alnum_of_lowerAlnum ((serviceLabel_lower fips).2 c (hservice ▸ hc))
      · exact (hlib.hostLabel region hlabel).2 c (hregion ▸ hc)
      · exact alnum_of_lowerAlnum ((hlib.suffix_labels s hs l hl).2 c hc)
  rw [Libraries.normalHost, hlib.lower e hascii]
  apply trimSuffix_of_not
  rw [Bool.eq_false_iff]
  intro hdot
  obtain ⟨front, _, hfront⟩ := hasSuffix_zone_iff.mp hdot
  obtain ⟨s, hs, _, hlabels⟩ := hlib.endpoint_labels hlabel he
  have hempty : [] ∈ serviceLabel fips :: toLower region :: s := by
    rw [← hlabels, hfront]
    exact List.mem_append_right front List.mem_cons_self
  obtain hservice | hregion | hsuffix := by simpa using hempty
  · exact (serviceLabel_lower fips).1 hservice
  · exact (toLower_label (hlib.hostLabel region hlabel)).1 hregion
  · exact (hlib.suffix_labels s hs [] hsuffix).1 rfl

/-- A resolved hostname is in its normal form. -/
theorem AsDocumented.normalHost_subdomain (hlib : AsDocumented lib suffixes) {hostname : GoString}
    (h : lib.nameProblems hostname = []) : lib.normalHost hostname = hostname := by
  obtain ⟨_, hform⟩ := (Bool.and_eq_true _ _).mp (hlib.subdomain hostname h)
  have hlower := wellFormed_lower hform
  have hascii : ∀ c ∈ hostname, c < 128 := by
    intro c hc
    obtain hletter | rfl | rfl := hlower c hc
    · exact ascii_of_alnum (alnum_of_lowerAlnum (.inl hletter))
    · decide
    · decide
  rw [Libraries.normalHost, hlib.lower hostname hascii, toLower_of_lower hlower]
  apply trimSuffix_of_not
  rw [Bool.eq_false_iff]
  intro hdot
  obtain ⟨stem, rfl⟩ := hasSuffix_iff.mp hdot
  have hlast := wellFormed_getLast (List.append_ne_nil_of_right_ne_nil stem (by decide)) hform
  have hroot : (lit ".").getLast? = some 46 := by decide
  rw [List.getLast?_append, hroot] at hlast
  cases hlast

end Endpoints

section Check

variable {lib : Libraries} {hostname region hostRegion : GoString} {fips : Bool}
  {s tail : List GoString}

private theorem serviceLabel_eq (fips : Bool) :
    serviceLabel fips = bedrockRuntime ∨ serviceLabel fips = bedrockRuntimeFIPS := by
  cases fips
  · exact .inl rfl
  · exact .inr rfl

private theorem serviceLabel_fips (fips : Bool) :
    decide (serviceLabel fips = bedrockRuntimeFIPS) = fips := by
  cases fips
  · decide
  · decide

/-- What the check reads from the labels of an endpoint, as a public name or a VPC one. -/
theorem misdirects_endpoint (hne : s ≠ []) (hvpce : s.head? ≠ some vpce)
    (htail : tail = serviceLabel fips :: hostRegion :: s ∨
      tail = vpcLabels (serviceLabel fips :: hostRegion :: s))
    (he : lib.resolveEndpoint hostRegion fips (hasSuffix hostname (46 :: dualStackZone)) =
      .ok (domain (serviceLabel fips :: hostRegion :: s)))
    (h : lib.misdirects hostname region tail = false) :
    lib.resolveEndpoint region fips (hasSuffix hostname (46 :: dualStackZone)) =
      .ok (domain (serviceLabel fips :: hostRegion :: s)) := by
  obtain ⟨third, rest, rfl⟩ := List.exists_cons_of_ne_nil hne
  have hthird : third ≠ vpce := fun heq => hvpce (by rw [heq]; rfl)
  cases hregion : lib.resolveEndpoint region fips (hasSuffix hostname (46 :: dualStackZone)) with
  | error e =>
    obtain rfl | rfl := htail
    · simp [Libraries.misdirects, serviceLabel_eq, serviceLabel_fips, he, hthird, hregion] at h
    · simp [Libraries.misdirects, vpcLabels, serviceLabel_eq, serviceLabel_fips, he, hregion] at h
  | ok expected =>
    have hexpected : domain (serviceLabel fips :: hostRegion :: third :: rest) = expected := by
      obtain rfl | rfl := htail
      · simpa [Libraries.misdirects, serviceLabel_eq, serviceLabel_fips, he, hthird, hregion]
          using h
      · simpa [Libraries.misdirects, vpcLabels, serviceLabel_eq, serviceLabel_fips, he, hregion]
          using h
    rw [hexpected]

private theorem validateBedrockOverride_ok
    (h : lib.validateBedrockOverride hostname region = .ok ())
    (htail : tail <:+ labels (lib.normalHost hostname)) :
    lib.misdirects (lib.normalHost hostname) region tail = false := by
  rw [Libraries.validateBedrockOverride] at h
  split_ifs at h with hany
  rw [Bool.not_eq_true, List.any_eq_false] at hany
  have htails := hany tail ((List.mem_tails _ _).mpr htail)
  exact Bool.not_eq_true _ ▸ htails

/-- An endpoint that the check knows again is one of the configured region's, when the
check lets a hostname that ends in it pass. -/
theorem endpointOf_recognized {suffixes : List (List GoString)} {e : GoString} {dualStack : Bool}
    (hlib : AsDocumented lib suffixes) (hlabel : lib.validHostLabel hostRegion = true)
    (he : lib.resolveEndpoint hostRegion fips dualStack = .ok e)
    (hends : EndsIn (lib.normalHost hostname) (toLower e))
    (hrecognized : Recognized lib hostRegion fips e)
    (h : lib.validateBedrockOverride hostname region = .ok ()) :
    EndpointOf lib region (toLower e) := by
  obtain ⟨s, hs, hdomain, hlabels⟩ := hlib.endpoint_labels hlabel he
  obtain ⟨hlength, hvpce⟩ := hlib.suffix_zone s hs
  have hne : s ≠ [] := by
    rintro rfl
    simp at hlength
  rw [EndsIn, hlabels] at hends
  obtain ⟨tail, htail, hsuffix⟩ : ∃ tail, (tail = serviceLabel fips :: toLower hostRegion :: s ∨
      tail = vpcLabels (serviceLabel fips :: toLower hostRegion :: s)) ∧
        tail <:+ labels (lib.normalHost hostname) := by
    obtain hpublic | hvpc := hends
    · exact ⟨_, .inl rfl, hpublic⟩
    · exact ⟨_, .inr rfl, hvpc⟩
  -- the DNS suffix alone tells whether a name is under api.aws
  have hzone : hasSuffix (lib.normalHost hostname) (46 :: dualStackZone) =
      hasSuffix (toLower e) (46 :: dualStackZone) := by
    obtain ⟨before, hbefore, hhost⟩ : ∃ before, before ≠ [] ∧
      labels (lib.normalHost hostname) = before ++ s := by
      obtain ⟨front, hfront⟩ := hsuffix
      rw [← hfront]
      obtain rfl | rfl := htail
      · exact ⟨front ++ [serviceLabel fips, toLower hostRegion], by simp, by simp⟩
      · exact ⟨front ++ [serviceLabel fips, toLower hostRegion, vpce], by simp, by simp [vpcLabels]⟩
    have hlabels' : labels (toLower e) = [serviceLabel fips, toLower hostRegion] ++ s := hlabels
    have htwo : (labels dualStackZone).length = 2 := by decide
    rw [← htwo] at hlength
    rw [Bool.eq_iff_iff, hasSuffix_zone_of_labels hhost hbefore hlength,
      hasSuffix_zone_of_labels hlabels' (List.cons_ne_nil _ _) hlength]
  rw [Recognized, hdomain] at hrecognized
  have hexpected := misdirects_endpoint hne hvpce htail (hzone ▸ hdomain ▸ hrecognized)
    (validateBedrockOverride_ok h hsuffix)
  exact ⟨fips, _, _, hexpected, by rw [← hdomain, toLower_toLower]⟩

end Check

section Resolve

variable {lib : Libraries} {suffixes : List (List GoString)} {p : ProviderSpec}
  {resolved : ResolvedProvider}

/-- An endpoint that a configured region's own endpoint ends in is that endpoint. -/
theorem AsDocumented.endsIn_endpoint (hlib : AsDocumented lib suffixes)
    {region region' e e' : GoString}
    {fips fips' dualStack dualStack' : Bool} (hlabel : lib.validHostLabel region = true)
    (he : lib.resolveEndpoint region fips dualStack = .ok e)
    (hlabel' : lib.validHostLabel region' = true)
    (he' : lib.resolveEndpoint region' fips' dualStack' = .ok e')
    (h : EndsIn (toLower e) (toLower e')) :
    toLower e' = toLower e := by
  obtain ⟨s, hs, _, hlabels⟩ := hlib.endpoint_labels hlabel he
  obtain ⟨s', hs', _, hlabels'⟩ := hlib.endpoint_labels hlabel' he'
  rw [EndsIn, hlabels, hlabels'] at h
  obtain hpublic | hvpc := h
  · apply labels_injective
    rw [hlabels, hlabels']
    exact (hlib.suffix_unique [serviceLabel fips', toLower region'] [serviceLabel fips,
      toLower region] hs hs' hpublic
      le_rfl).1
  · obtain ⟨heq, rfl⟩ := hlib.suffix_unique [serviceLabel fips', toLower region', vpce]
      [serviceLabel fips, toLower region] hs hs' hvpc (Nat.le_succ 2)
    have hlength := congrArg List.length heq
    simp at hlength

/-- An omitted hostname ends in no endpoint. -/
theorem AsDocumented.not_endsIn_omitted (hlib : AsDocumented lib suffixes) {region e : GoString}
    {fips dualStack : Bool} (hlabel : lib.validHostLabel region = true)
    (he : lib.resolveEndpoint region fips dualStack = .ok e) :
    ¬EndsIn (lib.normalHost []) (toLower e) := by
  have hnone : lib.normalHost [] = [] := by
    rw [Libraries.normalHost, hlib.lower [] (by simp)]
    rfl
  obtain ⟨s, _, _, hlabels⟩ := hlib.endpoint_labels hlabel he
  rw [EndsIn, hnone, hlabels]
  have hone : (labels []).length = 1 := rfl
  rintro (hpublic | hvpc)
  · have hlength := hpublic.length_le
    simp [hone] at hlength
  · have hlength := hvpc.length_le
    simp [hone, vpcLabels] at hlength

/-- Requests to the hostname of an accepted Bedrock provider are signed for its region
exactly when the hostname given ends in no other region's endpoint that the check
does not know again. -/
theorem signedForHost_iff (hlib : AsDocumented lib suffixes)
    (hbackend : backendType p = backendBedrock) (h : lib.resolve p = .ok resolved) :
    SignedForHost lib (configuredRegion p) resolved.hostname ↔
    ¬Overlooked lib (configuredRegion p) p.hostname := by
  obtain ⟨backend, hbedrock, haddress⟩ := resolve_bedrock hbackend h
  obtain ⟨e, hlabel, he, hoverride, rfl⟩ := resolveBedrock_ok hbedrock
  obtain ⟨hhost, hname⟩ := checkAddress_ok haddress
  have hnormal := hlib.normalHost_subdomain hname
  by_cases hgiven : p.hostname = []
  · rw [if_neg (not_not.mpr hgiven), hlib.normalHost_endpoint hlabel he] at hhost
    refine iff_of_true ?_ ?_
    · intro hostRegion fips dualStack e' hlabel' he' hends
      rw [hnormal, hhost] at hends
      exact ⟨false, false, _, he, (hlib.endsIn_endpoint hlabel he hlabel' he' hends).symm⟩
    · rintro ⟨hostRegion, fips, dualStack, e', hlabel', he', _, hends, _⟩
      rw [hgiven] at hends
      exact hlib.not_endsIn_omitted hlabel' he' hends
  · rw [if_pos hgiven] at hhost
    constructor
    · rintro hsigned ⟨hostRegion, fips, dualStack, e', hlabel', he', _, hends, hother⟩
      apply hother
      apply hsigned hostRegion fips dualStack e' hlabel' he'
      rwa [hnormal, hhost]
    · intro hnone hostRegion fips dualStack e' hlabel' he' hends
      rw [hnormal, hhost] at hends
      by_cases hrecognized : Recognized lib hostRegion fips e'
      · exact endpointOf_recognized hlib hlabel' he' hends hrecognized hoverride
      · by_contra hother
        exact hnone ⟨hostRegion, fips, dualStack, e', hlabel', he', hrecognized, hends, hother⟩

end Resolve

section Partitions

/-- The DNS suffix of a region's endpoints in the standard partition and in China's. -/
def dnsSuffix (region : GoString) (dualStack : Bool) : List GoString :=
  if hasPrefix region "cn-" then
    if dualStack then ["api", "amazonwebservices", "com", "cn"] else ["amazonaws", "com", "cn"]
  else if dualStack then ["api", "aws"] else ["amazonaws", "com"]

def dnsSuffixes : List (List GoString) :=
  [["api", "amazonwebservices", "com", "cn"], ["amazonaws", "com", "cn"], ["api", "aws"],
    ["amazonaws", "com"]]

/-- The packages, with two of the partitions. -/
def sdk : Libraries where
  toLower := toLower
  nameProblems s := if isDNS1123Subdomain s then [] else ["must be a DNS name"]
  validHostLabel l := l ≠ [] && l.length ≤ 63 && l.all (fun c => alnum c || c = 45)
  resolveEndpoint region fips dualStack :=
    .ok (domain (serviceLabel fips :: region :: dnsSuffix region dualStack))

private theorem dnsSuffix_mem (region : GoString) (dualStack : Bool) :
    dnsSuffix region dualStack ∈ dnsSuffixes := by
  unfold dnsSuffix dnsSuffixes
  split_ifs <;> simp

private theorem sdk_asDocumented : AsDocumented sdk dnsSuffixes where
  lower := fun _ _ => rfl
  subdomain := fun s h => by
    by_contra hname
    simp [sdk, hname] at h
  hostLabel := fun l h => by
    simp only [sdk, Bool.and_eq_true, decide_eq_true_eq, List.all_eq_true, Bool.or_eq_true] at h
    exact ⟨by simpa using h.1.1, h.2⟩
  suffix_labels := by
    have h : dnsSuffixes.all
        (fun s => s.all (fun l => l ≠ [] && l.all (fun c => lowerAlnum c || c = 45))) = true := by
      decide
    intro s hs l hl
    have hlower := List.all_eq_true.mp (List.all_eq_true.mp h s hs) l hl
    rw [Bool.and_eq_true, decide_eq_true_eq] at hlower
    exact lowerLabel_of_all hlower.1 hlower.2
  suffix_zone := by decide
  suffix_apart := by decide
  endpoint := fun region fips dualStack e _ he =>
    ⟨dnsSuffix region dualStack, dnsSuffix_mem region dualStack, (Except.ok.inj he).symm⟩

def bedrockSpec (region hostname : GoString) : ProviderSpec :=
  { backend := some { type := backendBedrock, bedrock := some ⟨region⟩ }, hostname := hostname }

def bedrockResolved (region hostname : GoString) : ResolvedProvider :=
  { hostname := hostname
    port := 443
    schemaName := "AWSBedrock"
    securityPolicy := .map
      [(lit "awsCredentials", .map [(lit "region", .string region)]),
        (lit "type", .string "AWSCredentials")] }

def vpcHost : GoString := "vpce-1.bedrock-runtime.us-west-2.vpce.amazonaws.com"

private theorem vpcSpec_resolved :
    sdk.resolve (bedrockSpec "us-west-2" "VPCE-1.bedrock-runtime.us-west-2.vpce.amazonaws.com.") =
    .ok (bedrockResolved "us-west-2" vpcHost) := rfl

/-- Requests to a VPC endpoint of the configured region are signed for it. -/
theorem vpcHost_signed : SignedForHost sdk "us-west-2" vpcHost := by
  apply (signedForHost_iff sdk_asDocumented rfl vpcSpec_resolved).mpr
  rintro ⟨hostRegion, fips, dualStack, e, hlabel, he, _, hends, hother⟩
  obtain ⟨s, hs, hdomain, hlabels⟩ := sdk_asDocumented.endpoint_labels hlabel he
  have hhost : labels (sdk.normalHost
    (bedrockSpec "us-west-2" "VPCE-1.bedrock-runtime.us-west-2.vpce.amazonaws.com.").hostname) =
      [lit "vpce-1", bedrockRuntime, lit "us-west-2", vpce, lit "amazonaws", lit "com"] := by decide
  rw [EndsIn, hlabels, hhost] at hends
  simp only [dnsSuffixes, List.mem_cons, List.not_mem_nil, or_false] at hs
  apply hother
  obtain rfl | rfl | rfl | rfl := hs <;> cases fips
  all_goals simp +decide [List.suffix_iff_eq_drop, vpcLabels] at hends
  rw [hdomain, hends]
  exact ⟨false, false, _, rfl, rfl⟩

def chinaHost : GoString := "bedrock-runtime.cn-northwest-1.api.amazonwebservices.com.cn"

/-- Requests to a dual-stack endpoint in China are signed for a region of another
partition. -/
theorem chinaHost_missigned :
    sdk.resolve (bedrockSpec "us-west-2" chinaHost) = .ok (bedrockResolved "us-west-2" chinaHost) ∧
    ¬SignedForHost sdk (configuredRegion (bedrockSpec "us-west-2" chinaHost)) chinaHost := by
  refine ⟨rfl, ?_⟩
  intro hsigned
  obtain ⟨fips, dualStack, e, he, hlower⟩ :=
    hsigned "cn-northwest-1" false true chinaHost (by decide) rfl
    (.inl (by decide))
  obtain rfl := Except.ok.inj he
  revert hlower
  cases fips <;> cases dualStack <;> decide

end Partitions

end provider
