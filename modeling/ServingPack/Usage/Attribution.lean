import ServingPack.Usage.Collector

open golang reconcilers

namespace collector

variable {N : Type} [Zero N] {b : Bloblang N} {cfg : Config} {r : Record}

section Names

/-- The access path of each endpoint's requests. -/
def AccessPath.of : Endpoint → AccessPath
  | .external => .apiKey
  | .internal => .jwt

/-- A record whose route is the pack's route of a model's endpoint. -/
def OnRoute (cfg : Config) (modelName : GoString) (e : Endpoint) (r : Record) : Prop :=
  ∃ kind rest : GoString, 47 ∉ kind ∧
    r.val "route" = some (kind ++
      47 :: (cfg.packNamespace ++ 47 :: (modelRouteName modelName e ++ 47 :: rest)))

private theorem modelRouteName_noSlash {modelName : GoString} (hname : 47 ∉ modelName)
    (e : Endpoint) :
    47 ∉ modelRouteName modelName e := by
  unfold modelRouteName
  simp only [List.mem_append, not_or]
  refine ⟨⟨hname, by decide⟩, ?_⟩
  cases e <;> decide

private theorem OnRoute.routeName_eq {modelName : GoString} {e : Endpoint}
    (h : OnRoute cfg modelName e r) (hname : 47 ∉ modelName) (hnamespace : 47 ∉ cfg.packNamespace) :
    routeName cfg r = modelRouteName modelName e := by
  obtain ⟨kind, rest, hkind, hroute⟩ := h
  have hparts : route r =
      kind :: cfg.packNamespace :: modelRouteName modelName e :: rest.splitOn 47 := by
    rw [route, hroute, Option.getD_some, List.splitOn_append_cons_self_of_not_mem hkind,
      List.splitOn_append_cons_self_of_not_mem hnamespace,
      List.splitOn_append_cons_self_of_not_mem (modelRouteName_noSlash hname e)]
  rw [routeName, hparts]
  exact if_pos ⟨by simp, rfl⟩

private theorem modelRouteName_external (modelName : GoString) :
    modelRouteName modelName .external = modelName ++ externalSuffix := List.append_assoc ..

private theorem modelRouteName_internal (modelName : GoString) :
    modelRouteName modelName .internal = modelName ++ internalSuffix := List.append_assoc ..

/-- The internal suffix ends in other bytes than the external one. -/
theorem not_externalSuffix (stem : GoString) :
    hasSuffix (stem ++ internalSuffix) externalSuffix = false := by
  rw [Bool.eq_false_iff, ne_eq, hasSuffix_iff]
  rintro ⟨stem', heq⟩
  exact absurd (List.append_inj' heq rfl).2 (by decide)

private theorem OnRoute.accessPath_eq {modelName : GoString} {e : Endpoint}
    (h : OnRoute cfg modelName e r) (hname : 47 ∉ modelName) (hnamespace : 47 ∉ cfg.packNamespace) :
    accessPath cfg r = some (.of e) := by
  rw [accessPath, h.routeName_eq hname hnamespace]
  cases e with
  | external => rw [modelRouteName_external, if_pos (hasSuffix_append _ _)]; rfl
  | internal =>
    rw [modelRouteName_internal, not_externalSuffix, if_neg Bool.false_ne_true,
      if_pos (hasSuffix_append _ _)]
    rfl

/-- The name the two trims leave of a route's name. -/
theorem trimmed_eq_iff (modelName : GoString) (e : Endpoint) :
    trimSuffix (trimSuffix (modelRouteName modelName e) externalSuffix) internalSuffix = modelName ↔
      ¬(e = .external ∧ hasSuffix modelName internalSuffix = true) := by
  cases e with
  | external =>
    rw [modelRouteName_external, trimSuffix_append]
    cases hsuffix : hasSuffix modelName internalSuffix with
    | true =>
      obtain ⟨stem, rfl⟩ := hasSuffix_iff.mp hsuffix
      rw [trimSuffix_append]
      refine iff_of_false (fun heq => ?_) (fun h => h ⟨rfl, rfl⟩)
      exact absurd (congrArg List.length heq)
        (by rw [List.length_append, show internalSuffix.length = 9 from rfl]; omega)
    | false => exact iff_of_true (trimSuffix_of_not hsuffix) (fun h => nomatch h.2)
  | internal =>
    rw [modelRouteName_internal, trimSuffix_of_not (not_externalSuffix _), trimSuffix_append]
    exact iff_of_true rfl (fun h => nomatch h.1)

end Names

section Normalize

/-- A record that is let through: its caller and its ID are known, and it was not rejected. -/
theorem normalize_eq {entry : Entry N} (h : normalize b cfg r = some entry) :
    ∃ path, accessPath cfg r = some path ∧
    caller r path ≠ [] ∧ (r.val "request_id").getD [] ≠ [] ∧ rejected r = false ∧
    entry.accessPath = path ∧
    entry.requestID = (r.val "request_id").getD [] ∧
    entry.modelResource = trimSuffix (trimSuffix (routeName cfg r) externalSuffix) internalSuffix ∧
    entry.clientID = (if path = .apiKey then (r.val "client_id").getD [] else "login") ∧
    entry.subject = some (if path = .jwt then (r.val "auth_subject").getD [] else []) := by
  unfold normalize at h
  split at h
  · cases h
  · next path hpath =>
    by_cases hdrop : caller r path = [] ∨ (r.val "request_id").getD [] = [] ∨ rejected r
    · rw [if_pos hdrop] at h
      cases h
    rw [if_neg hdrop] at h
    rw [not_or, not_or, Bool.not_eq_true] at hdrop
    obtain rfl := Option.some.inj h
    exact ⟨path, hpath, hdrop.1, hdrop.2.1, hdrop.2.2, rfl, rfl, rfl, rfl, rfl⟩

private theorem normalize_rejected (h : rejected r = true) : normalize b cfg r = none := by
  unfold normalize
  split
  · rfl
  · exact if_pos (.inr (.inr h))

private theorem rejected_of_code
    (hcode : r.val "response_code" = some "401" ∨ r.val "response_code" = some "403")
    (hdetails : r.val "response_code_details" ≠ some "via_upstream") : rejected r = true := by
  have hnot : (r.val "response_code_details").getD [] ≠ "via_upstream" := by
    cases hvalue : r.val "response_code_details" with
    | none => exact (by decide)
    | some text => exact fun heq => hdetails (hvalue.trans (congrArg some heq))
  unfold rejected
  rcases hcode with hcode | hcode
  · rw [hcode]
    exact decide_eq_true ⟨.inl rfl, hnot⟩
  · rw [hcode]
    exact decide_eq_true ⟨.inr rfl, hnot⟩

omit [Zero N] in
@[simp] theorem identify_modelResource (lookup : GoString → OwnerAnswer) (entry : Entry N) :
    (identify lookup entry).modelResource = entry.modelResource := by
  unfold identify
  split
  · rfl
  · split <;> rfl

omit [Zero N] in
@[simp] theorem identify_accessPath (lookup : GoString → OwnerAnswer) (entry : Entry N) :
    (identify lookup entry).accessPath = entry.accessPath := by
  unfold identify
  split
  · rfl
  · split <;> rfl

omit [Zero N] in
@[simp] theorem identify_clientID (lookup : GoString → OwnerAnswer) (entry : Entry N) :
    (identify lookup entry).clientID = entry.clientID := by
  unfold identify
  split
  · rfl
  · split <;> rfl

end Normalize

section Collect

variable [Sub N] [Max N] [LT N] [DecidableLT N] {lookup : GoString → OwnerAnswer}

/-- The events of a record are those of its entry, if it has one. -/
theorem mem_collect {event : Event N} : event ∈ collect b cfg lookup r ↔
    ∃ entry, normalize b cfg r = some entry ∧ event ∈ events cfg (identify lookup entry) := by
  unfold collect
  split
  · next hnone => simp [hnone]
  · next entry hentry => simp [hentry]

/-- What every event of a request takes from it. -/
theorem mem_events {entry : Entry N} {event : Event N} (h : event ∈ events cfg entry) :
    event.common = common cfg entry ∧ event.subject = subject entry := by
  rcases List.mem_cons.mp h with rfl | h
  · exact ⟨rfl, rfl⟩
  · obtain ⟨_, _, rfl⟩ := List.mem_map.mp h
    exact ⟨rfl, rfl⟩

/-- The events of a request on a model's route name the model, except on the
external route of a model whose own name ends in "-internal". -/
theorem attributed_iff (b : Bloblang N) (lookup : GoString → OwnerAnswer) {modelName : GoString}
    {e : Endpoint} (hname : 47 ∉ modelName) (hnamespace : 47 ∉ cfg.packNamespace)
    (hroute : OnRoute cfg modelName e r) (hemits : collect b cfg lookup r ≠ []) :
    (∀ event ∈ collect b cfg lookup r, event.common.modelResource = modelName ∧
      event.common.accessPath = (AccessPath.of e).text) ↔
    ¬(e = .external ∧ hasSuffix modelName internalSuffix = true) := by
  obtain ⟨first, hfirst⟩ := List.exists_mem_of_ne_nil _ hemits
  have hspec : ∀ event ∈ collect b cfg lookup r,
      event.common.modelResource =
        trimSuffix (trimSuffix (modelRouteName modelName e) externalSuffix) internalSuffix ∧
      event.common.accessPath = (AccessPath.of e).text := by
    intro event hevent
    obtain ⟨entry, hentry, hmem⟩ := mem_collect.mp hevent
    obtain ⟨path, hpath, _, _, _, haccess, _, hresource, _⟩ := normalize_eq hentry
    rw [hroute.accessPath_eq hname hnamespace, Option.some.injEq] at hpath
    rw [(mem_events hmem).1, common, identify_modelResource, identify_accessPath, hresource,
      haccess, ← hpath, hroute.routeName_eq hname hnamespace]
    exact ⟨rfl, rfl⟩
  rw [← trimmed_eq_iff]
  constructor
  · intro h
    rw [← (hspec first hfirst).1]
    exact (h first hfirst).1
  · intro h event hevent
    rw [← h]
    exact hspec event hevent

omit [Sub N] [Max N] [LT N] [DecidableLT N] in
/-- Who is billed is known: the key, or the verified token's subject. -/
theorem subject_ne_nil {entry : Entry N} (h : normalize b cfg r = some entry)
    (lookup : GoString → OwnerAnswer) :
    subject (identify lookup entry) ≠ [] := by
  obtain ⟨path, _, hcaller, _, _, haccess, _, _, hclient, hsubject⟩ := normalize_eq h
  unfold subject
  split_ifs with hknown
  · exact hknown
  · rw [identify_clientID, hclient]
    cases path with
    | apiKey => exact hcaller
    | jwt =>
      change lit "login" ≠ []
      decide

/-- The mappings' functions on the texts of the records below: whole numbers, and
groups as names between commas. -/
def plainTexts : Bloblang Int where
  number text := if text.all (fun c => 48 ≤ c && c ≤ 57) && !text.isEmpty then
    some (text.foldl (fun n c => 10 * n + (c.toNat - 48)) 0) else none
  decodeGroups _ := none
  trim text := text

def llmSystem : Config where
  packNamespace := "llm-system"

/-- A record of an access to a route, with these attributes besides. -/
def accessed (routeText requestID : GoString) (attributes : List (GoString × GoString)) :
    Record where
  attributes := some (GoMap.ofList
    ((((("route" : GoString), routeText) :: ("request_id", requestID) :: attributes).map
    (fun entry => (entry.1, some entry.2)))))

def bedrockExternal : Record :=
  accessed "httproute/llm-system/bedrock-external/rule/0/match/0/llm_example_com" "req-1"
  [("client_id", "user-alice-1"), ("auth_subject", "sub-mallory"), ("response_code", "200"),
    ("input_tokens", "11")]

private theorem bedrockExternal_route : OnRoute llmSystem "bedrock" .external bedrockExternal :=
  ⟨"httproute", "rule/0/match/0/llm_example_com", by decide, by decide⟩

/-- The requests of the model "bedrock" are attributed to it. -/
theorem bedrock_attributed : collect plainTexts llmSystem (fun _ => .unknown) bedrockExternal ≠ [] ∧
    ∀ event ∈ collect plainTexts llmSystem (fun _ => .unknown) bedrockExternal,
      event.common.modelResource = "bedrock" ∧ event.common.accessPath = "api_key" := by
  have hevents : collect plainTexts llmSystem (fun _ => .unknown) bedrockExternal ≠ [] :=
    List.ne_nil_of_length_pos (by decide)
  exact ⟨hevents, (attributed_iff plainTexts (fun _ => .unknown) (by decide)
    (by decide) bedrockExternal_route hevents).mpr
    (fun h => absurd h.2 (by decide))⟩

def chatInternalExternal : Record :=
  accessed "httproute/llm-system/chat-internal-external/rule/0/match/0/llm_example_com" "req-1"
    [("client_id", "user-alice-1"), ("response_code", "200")]

/-- A request on the external route of the model "chat-internal" is attributed to "chat". -/
theorem chat_internal_misattributed :
    OnRoute llmSystem "chat-internal" .external chatInternalExternal ∧
    (collect plainTexts llmSystem (fun _ => .unknown) chatInternalExternal).map
    (·.common.modelResource) =
      [(("chat" : GoString))] :=
  ⟨⟨"httproute", "rule/0/match/0/llm_example_com", by decide, by decide⟩, by decide +kernel⟩

/-- The attributes that say who a token's bearer is. -/
def identityFields : List GoString := ["auth_user", "auth_subject", "auth_groups"]

def DifferOnlyInIdentity (r r' : Record) : Prop :=
  ∀ field, field ∉ identityFields →
    (r.attributes.getD ∅).lookup field = (r'.attributes.getD ∅).lookup field

private theorem DifferOnlyInIdentity.val {r' : Record} (h : DifferOnlyInIdentity r r')
    (field : GoString) (hfield : field ∉ identityFields) : r.val field = r'.val field := by
  unfold Record.val
  rw [h field hfield]

omit [Sub N] [Max N] [LT N] [DecidableLT N] in
private theorem DifferOnlyInIdentity.normalize_eq {r' : Record} (h : DifferOnlyInIdentity r r')
    (hexternal : hasSuffix (routeName cfg r) externalSuffix = true) :
    normalize b cfg r = normalize b cfg r' := by
  have hroute : routeName cfg r = routeName cfg r' := by
    unfold routeName route
    rw [h.val "route" (by decide)]
  have hpath : accessPath cfg r = some .apiKey := if_pos hexternal
  have hpath' : accessPath cfg r' = some .apiKey := if_pos (hroute ▸ hexternal)
  unfold normalize
  rw [hpath, hpath']
  simp only [caller, rejected, number, reduceCtorEq, if_false, if_true, hroute]
  rw [h.val "client_id" (by decide), h.val "request_id" (by decide),
    h.val "response_code" (by decide),
    h.val "response_code_details" (by decide), h.val "start_time" (by decide),
      h.val "model" (by decide),
    h.val "input_tokens" (by decide), h.val "cached_input_tokens" (by decide),
    h.val "cache_creation_input_tokens" (by decide), h.val "output_tokens" (by decide),
    h.val "response_flags" (by decide), h.val "duration_ms" (by decide)]

/-- On the external routes the events do not depend on the identity headers, a
request that the gateway rejected leaves none, and all of them name a subject. -/
theorem identity_from_key_only (b : Bloblang N) (cfg : Config) (lookup : GoString → OwnerAnswer) :
    (∀ r r' : Record, DifferOnlyInIdentity r r' →
      hasSuffix (routeName cfg r) externalSuffix = true →
      collect b cfg lookup r = collect b cfg lookup r') ∧
    (∀ r : Record, r.val "response_code" = some "401" ∨ r.val "response_code" = some "403" →
      r.val "response_code_details" ≠ some "via_upstream" → collect b cfg lookup r = []) ∧
    ∀ r : Record, ∀ event ∈ collect b cfg lookup r, event.subject ≠ [] := by
  refine ⟨fun r r' hdiffer hexternal => ?_, fun r hcode hdetails => ?_, fun r event hevent => ?_⟩
  · unfold collect
    rw [hdiffer.normalize_eq hexternal]
  · unfold collect
    rw [normalize_rejected (rejected_of_code hcode hdetails)]
  · obtain ⟨entry, hentry, hmem⟩ := mem_collect.mp hevent
    rw [(mem_events hmem).2]
    exact subject_ne_nil hentry lookup

/-- The same request with another name in its forged headers. -/
def bedrockForged : Record :=
  accessed "httproute/llm-system/bedrock-external/rule/0/match/0/llm_example_com" "req-1"
  [("client_id", "user-alice-1"), ("auth_user", "victim"), ("response_code", "200"),
    ("input_tokens", "11")]

private theorem bedrock_differs : DifferOnlyInIdentity bedrockExternal bedrockForged := by
  intro field hfield
  simp only [identityFields, List.mem_cons, List.not_mem_nil, or_false, not_or] at hfield
  simp only [bedrockExternal, bedrockForged, accessed, GoMap.ofList, Option.getD_some,
    List.map_cons, List.map_nil, List.foldl_cons, List.foldl_nil, GoMap.lookup_insert_eq,
    hfield.1, hfield.2.1, if_false]

/-- A forged header changes nothing, a request that was turned away is not billed,
and the events of the other name the key. -/
theorem bedrock_ignores_forged :
    collect plainTexts llmSystem (fun _ => .failed) bedrockExternal =
      collect plainTexts llmSystem (fun _ => .failed) bedrockForged ∧
    collect plainTexts llmSystem (fun _ => .failed) (accessed
      "httproute/llm-system/bedrock-external/rule/0/match/0/llm_example_com" "req-2"
      [("client_id", "user-alice-1"), ("response_code", "401")]) = [] ∧
    ∀ event ∈ collect plainTexts llmSystem (fun _ => .failed) bedrockExternal,
    event.subject ≠ [] := by
  obtain ⟨hsame, hrejected, hsubject⟩ :=
    identity_from_key_only plainTexts llmSystem (fun _ => .failed)
  exact ⟨hsame _ _ bedrock_differs (by decide),
    hrejected _ (.inl (by decide)) (by decide +kernel),
    hsubject _⟩

end Collect

end collector
