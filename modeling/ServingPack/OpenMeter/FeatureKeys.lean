import ServingPack.OpenMeter.Store

open golang concurrency naming openmeterapi

namespace openmetersetup

/-- A byte put in front of a word that a text starts with, or a word of its own. -/
def grow (c : UInt8) (startsWord : Bool) : List GoString → List GoString
  | [] => [[c]]
  | w :: ws => if startsWord then (c :: w) :: ws else [c] :: w :: ws

def startsWord (s : GoString) : Bool := s.head?.any lowerAlnum

/-- The words of a text: its longest runs of letters and digits. -/
def words : GoString → List GoString
  | [] => []
  | c :: rest => if lowerAlnum c then grow c (startsWord rest) (words rest) else words rest

/-- A text starts with a byte that is no letter and no digit. -/
def startsApart (s : GoString) : Bool := s.head?.any (fun c => !lowerAlnum c)

/-- A text ends with a byte that is no letter and no digit. -/
def endsApart (s : GoString) : Bool := s.getLast?.any (fun c => !lowerAlnum c)

/-- Texts of the same words, in the same order, that both start with a word or
both do not, and both end with one or both do not. -/
def SameWords (s t : GoString) : Prop :=
  words s = words t ∧ startsApart s = startsApart t ∧ endsApart s = endsApart t

instance (s t : GoString) : Decidable (SameWords s t) :=
  inferInstanceAs (Decidable (words s = words t ∧ startsApart s = startsApart t ∧
    endsApart s = endsApart t))

section ReplaceRuns

variable {c : UInt8} {s t rest : GoString}

private theorem replaceRuns_false (s : GoString) :
    replaceRuns false s = (if startsApart s then [95] else []) ++ replaceRuns true s := by
  cases s with
  | nil => rfl
  | cons c rest =>
    cases hc : lowerAlnum c <;> simp [replaceRuns, startsApart, hc]

private theorem startsApart_cons : startsApart (c :: rest) = !lowerAlnum c := rfl

private theorem underscore_apart : lowerAlnum 95 = false := by decide

private theorem startsWord_of (h : startsApart rest = false) (hne : rest ≠ []) :
    startsWord rest = true := by
  cases rest with
  | nil => exact absurd rfl hne
  | cons c rest => simpa [startsApart, startsWord] using h

/-- After a run, the text goes on with a word. -/
theorem startsApart_replaceRuns (s : GoString) : startsApart (replaceRuns true s) = false := by
  induction s with
  | nil => rfl
  | cons c rest ih =>
    rw [replaceRuns]
    by_cases hc : lowerAlnum c = true
    · rw [if_pos hc, startsApart_cons, hc]
      rfl
    · rw [if_neg hc, if_pos rfl]
      exact ih

private theorem startsApart_replaceRuns_false (s : GoString) :
    startsApart (replaceRuns false s) = startsApart s := by
  rw [replaceRuns_false]
  split_ifs with h
  · rw [List.singleton_append, startsApart_cons, underscore_apart, h]
    rfl
  · rw [List.nil_append, startsApart_replaceRuns]
    simpa using h

private theorem startsWord_replaceRuns_false (s : GoString) :
    startsWord (replaceRuns false s) = startsWord s := by
  cases s with
  | nil => rfl
  | cons c rest =>
    rw [replaceRuns]
    cases hc : lowerAlnum c with
    | true => simp [startsWord, hc]
    | false => simp [startsWord, hc, underscore_apart]

/-- The words of a text stay. -/
theorem words_replaceRuns (inRun : Bool) (s : GoString) :
    words (replaceRuns inRun s) = words s := by
  induction s generalizing inRun with
  | nil => rfl
  | cons c rest ih =>
    rw [replaceRuns, words]
    cases hc : lowerAlnum c with
    | true =>
      rw [if_pos rfl, if_pos rfl, words, if_pos hc, startsWord_replaceRuns_false, ih]
    | false =>
      rw [if_neg Bool.false_ne_true, if_neg Bool.false_ne_true]
      split_ifs
      · exact ih true
      · rw [words, if_neg (by rw [underscore_apart]; exact Bool.false_ne_true)]
        exact ih true

private theorem endsApart_cons (hne : rest ≠ []) : endsApart (c :: rest) = endsApart rest := by
  cases rest with
  | nil => exact absurd rfl hne
  | cons d rest => rfl

private theorem endsApart_of_no_words (hwords : words s = []) (hne : s ≠ []) :
    endsApart s = true := by
  induction s with
  | nil => exact absurd rfl hne
  | cons c rest ih =>
    rw [words] at hwords
    split_ifs at hwords with hc
    · cases hrest : words rest with
      | nil => simp [grow, hrest] at hwords
      | cons w ws =>
        rw [hrest, grow] at hwords
        split_ifs at hwords
    · cases rest with
      | nil => simp [endsApart, hc]
      | cons d rest =>
        rw [endsApart_cons (List.cons_ne_nil d rest)]
        exact ih hwords (List.cons_ne_nil d rest)

/-- Words with an underscore between any two. -/
def joined : List GoString → GoString
  | [] => []
  | [w] => w
  | w :: ws => w ++ 95 :: joined ws

private theorem joined_cons (c : UInt8) (w : GoString) (ws : List GoString) :
    joined ((c :: w) :: ws) = c :: joined (w :: ws) := by
  cases ws <;> rfl

/-- What is left of a text after a run: its words, and an underscore where it ends apart. -/
theorem replaceRuns_true (s : GoString) :
    replaceRuns true s = joined (words s) ++ (if words s ≠ [] ∧
      endsApart s = true then [95] else []) := by
  induction s with
  | nil => rfl
  | cons c rest ih =>
    rw [replaceRuns, words]
    cases hc : lowerAlnum c with
    | false =>
      rw [if_neg Bool.false_ne_true, if_neg Bool.false_ne_true, if_pos rfl, ih]
      by_cases hrest : rest = []
      · simp [hrest, words]
      · rw [endsApart_cons hrest]
    | true =>
      rw [if_pos rfl, if_pos rfl, replaceRuns_false, ih]
      by_cases hrest : rest = []
      · simp [hrest, words, grow, startsApart, joined, endsApart, hc]
      · rw [endsApart_cons hrest]
        cases hwords : words rest with
        | nil =>
          have hapart : startsApart rest = true := by
            by_contra h
            cases rest with
            | nil => exact hrest rfl
            | cons d rest =>
              have hd : lowerAlnum d = true := by simpa [startsApart] using h
              rw [words, if_pos hd] at hwords
              cases hmore : words rest with
              | nil => simp [grow, hmore] at hwords
              | cons w ws =>
                rw [hmore, grow] at hwords
                split_ifs at hwords
          have hends := endsApart_of_no_words hwords hrest
          simp [grow, joined, hapart, hends]
        | cons w ws =>
          cases hapart : startsApart rest with
          | true =>
            have hword : startsWord rest = false := by
              cases rest with
              | nil => rfl
              | cons d rest => simpa [startsApart, startsWord] using hapart
            simp [grow, hword, joined]
          | false =>
            simp [grow, startsWord_of hapart hrest, joined_cons]

private theorem replaceRuns_ne_nil (h : s ≠ []) : replaceRuns false s ≠ [] := by
  cases s with
  | nil => exact absurd rfl h
  | cons c rest =>
    rw [replaceRuns]
    split_ifs with hc hrun
    · exact List.cons_ne_nil _ _
    · cases hrun
    · exact List.cons_ne_nil _ _

private theorem endsApart_replaceRuns (inRun : Bool) (h : replaceRuns inRun s ≠ []) :
    endsApart (replaceRuns inRun s) = endsApart s := by
  induction s generalizing inRun with
  | nil => rfl
  | cons c rest ih =>
    by_cases hrest : rest = []
    · subst hrest
      rw [replaceRuns] at h ⊢
      cases hc : lowerAlnum c with
      | true => rfl
      | false =>
        cases inRun with
        | true => simp [hc, replaceRuns] at h
        | false => simp [endsApart, replaceRuns, hc, underscore_apart]
    · rw [endsApart_cons hrest]
      rw [replaceRuns] at h ⊢
      by_cases hc : lowerAlnum c = true
      · rw [if_pos hc, endsApart_cons (replaceRuns_ne_nil hrest)]
        exact ih false (replaceRuns_ne_nil hrest)
      · rw [if_neg hc] at h ⊢
        cases inRun with
        | true =>
          rw [if_pos rfl] at h ⊢
          exact ih true h
        | false =>
          rw [if_neg Bool.false_ne_true]
          by_cases hnone : replaceRuns true rest = []
          · have hwords : words rest = [] := by rw [← words_replaceRuns true rest, hnone, words]
            rw [hnone, endsApart_of_no_words hwords hrest]
            rfl
          · rw [endsApart_cons hnone]
            exact ih true hnone

/-- The key of a name is made of its words, and of whether it starts and ends apart. -/
theorem featureKey_eq_iff : featureKey s = featureKey t ↔ SameWords s t := by
  rw [featureKey, featureKey, List.append_left_inj]
  constructor
  · intro h
    refine ⟨?_, ?_, ?_⟩
    · rw [← words_replaceRuns false s, h, words_replaceRuns]
    · rw [← startsApart_replaceRuns_false s, h, startsApart_replaceRuns_false]
    · by_cases hs : s = []
      · subst hs
        cases t with
        | nil => rfl
        | cons c t => exact absurd h.symm (replaceRuns_ne_nil (List.cons_ne_nil c t))
      · have hne := replaceRuns_ne_nil hs
        rw [← endsApart_replaceRuns false hne, h, endsApart_replaceRuns false (h ▸ hne)]
  · intro ⟨hwords, hstarts, hends⟩
    rw [replaceRuns_false, replaceRuns_false, replaceRuns_true, replaceRuns_true, hwords, hstarts,
      hends]

end ReplaceRuns

section Bootstrap

variable {om : Service} {s : Setup} {st st' : Store} {meterID : GoString}

/-- A feature for each of some resources. -/
def HasFeatures (st : Store) (rs : List Resource) : Prop :=
  ∀ r ∈ rs, r.name ∈ st.features.map Feature.resource

private theorem newFeature_resource (r : Resource) (id : GoString) :
    ((newFeature meterID r).kept id).resource = r.name := by
  simp [NewFeature.kept, newFeature, Feature.resource, GoMap.ofList]

/-- A call that creates a feature, where OpenMeter answers it. -/
theorem eval_createFeature (r : Resource) {result : Except Failure Unit}
    (h : om st (.createFeature (newFeature meterID r)) = (result, st')) :
    (Fallible.mapError (forResource r) (createFeature (newFeature meterID r))).run.eval om st =
      (result.mapError (forResource r), st') := by
  show Program.eval om (om st (.createFeature (newFeature meterID r))).2 _ = _
  rw [h]
  cases result <;> rfl

/-- Creating features for resources that have none succeeds exactly when no key comes twice. -/
theorem bootstrapFeatures_new (h : om.Keeps) (rs : List Resource) (st : Store) :
    (((bootstrapFeatures meterID [] rs).run.eval om st).1 = .ok () ↔
      (rs.map (fun r => featureKey r.name)).Nodup ∧
      ∀ r ∈ rs, featureKey r.name ∉ st.features.map Feature.key) ∧
    (((bootstrapFeatures meterID [] rs).run.eval om st).1 = .ok () →
      ((bootstrapFeatures meterID [] rs).run.eval om st).2.features.map Feature.resource =
        st.features.map Feature.resource ++ rs.map Resource.name) := by
  induction rs generalizing st with
  | nil => exact ⟨by simp [bootstrapFeatures, Program.eval], fun _ => by simp [bootstrapFeatures, Program.eval]⟩
  | cons r rest ih =>
    have hstep : bootstrapFeatures meterID [] (r :: rest) =
        (Fallible.mapError (forResource r) (createFeature (newFeature meterID r)) >>= fun _ =>
          bootstrapFeatures meterID [] rest) := by
      simp only [bootstrapFeatures, List.filter_nil, updateFeatures, pure_then, if_true]
    rw [hstep, List.map_cons, List.nodup_cons, List.forall_mem_cons]
    by_cases hused : featureKey r.name ∈ st.features.map Feature.key
    · obtain ⟨e, hrefused⟩ := h.refused st (newFeature meterID r) hused
      rw [eval_bind_error (eval_createFeature r hrefused)]
      exact ⟨⟨fun h => (by cases h), fun h => absurd hused h.2.1⟩, fun h => (by cases h)⟩
    · obtain ⟨id, hcreated⟩ := h.created st (newFeature meterID r) hused
      rw [eval_bind_ok (eval_createFeature r hcreated)]
      obtain ⟨hok, hfeatures⟩ :=
        ih { st with features := st.features ++ [(newFeature meterID r).kept id] }
      have hkey : ((newFeature meterID r).kept id).key = featureKey r.name := rfl
      constructor
      · rw [hok]
        simp only [List.map_append, List.map_cons, List.map_nil, List.mem_append,
          List.mem_singleton, hkey, not_or]
        constructor
        · rintro ⟨hnodup, hfree⟩
          refine ⟨⟨fun hmem => ?_, hnodup⟩, hused, fun r' hr' => (hfree r' hr').1⟩
          obtain ⟨r', hr', hsame⟩ := List.mem_map.mp hmem
          exact (hfree r' hr').2 hsame
        · rintro ⟨⟨hnot, hnodup⟩, _, hfree⟩
          refine ⟨hnodup, fun r' hr' => ⟨hfree r' hr', fun hsame => hnot ?_⟩⟩
          rw [← hsame]
          exact List.mem_map.mpr ⟨r', hr', rfl⟩
      · intro h
        rw [hfeatures h, List.map_append, List.map_singleton, newFeature_resource,
          List.append_assoc, List.map_cons, List.singleton_append]

/-- A call that creates an override. -/
theorem eval_createOverride (h : om.Keeps) (describe : Failure → Failure) (p : NewPrice) :
    (Fallible.mapError describe (createOverride p)).run.eval om st = (.ok (), { st with
      overrides := st.overrides ++
        [{ provider := p.provider, model := p.model, pricing := p.pricing }] }) := by
  show Program.eval om (om st (.createOverride p)).2 _ = _
  rw [h.override]
  rfl

private theorem eval_now (h : om.Keeps) : now.run.eval om st = (.ok st.clock, st) := by
  show Program.eval om (om st .now).2 _ = _
  rw [h.now]
  rfl

/-- The prices leave the features as they are. -/
theorem bootstrapPrices_features (h : om.Keeps) (ov : List Price) (prices : List ManualPrice)
    (st : Store) :
    ((bootstrapPrices s ov prices).run.eval om st).1 = .ok () ∧
      ((bootstrapPrices s ov prices).run.eval om st).2.features = st.features := by
  induction prices generalizing st with
  | nil => exact ⟨rfl, rfl⟩
  | cons p rest ih =>
    rw [bootstrapPrices]
    obtain ⟨provider, model⟩ := s.normalizeModelID p.provider p.model
    dsimp only
    split_ifs
    · exact ih st
    · rw [eval_bind_ok (eval_now h), eval_bind_ok (eval_createOverride h _ _)]
      exact ih _

/-- On an OpenMeter with no features, the setup succeeds with a feature for every
resource exactly when no two of their names have the same words. -/
theorem bootstrap_features_iff (h : om.Keeps) {cfg : BootstrapConfig}
    (hmeter : ∃ m ∈ st.meters, m.key = tokensMeter)
    (hid : ∀ m ∈ st.meters, m.id ≠ []) (hnone : st.features = []) :
    (((bootstrap s cfg).run.eval om st).1 = .ok () ∧
      HasFeatures ((bootstrap s cfg).run.eval om st).2 cfg.resources) ↔
      cfg.resources.Pairwise (fun r r' => ¬SameWords r.name r'.name) := by
  have hmeterID : st.meters.foldl (fun id m => if m.key = tokensMeter then m.id else id) [] ≠
      [] := by
    have hfold : ∀ (l : List Meter) (id : GoString), (∀ m ∈ l, m.id ≠ []) →
      (id ≠ [] ∨ ∃ m ∈ l, m.key = tokensMeter) →
        l.foldl (fun id m => if m.key = tokensMeter then m.id else id) id ≠ [] := by
      intro l
      induction l with
      | nil => exact fun id _ h => h.resolve_right (by simp)
      | cons m rest ih =>
        intro id hids h
        obtain ⟨hm, hrest⟩ := List.forall_mem_cons.mp hids
        apply ih _ hrest
        by_cases hkey : m.key = tokensMeter
        · exact .inl (by simpa [hkey] using hm)
        · simpa [hkey] using h
    exact hfold st.meters [] hid (.inr hmeter)
  have hrun : (bootstrap s cfg).run.eval om st =
      ((bootstrapFeatures (st.meters.foldl (fun id m => if m.key = tokensMeter then m.id else id)
        []) [] cfg.resources >>=
        fun _ => listOverrides >>= fun ov => bootstrapPrices s ov cfg.prices).run).eval om st := by
    rw [bootstrap, eval_bind_ok (eval_listMeters h)]
    dsimp only
    rw [if_neg hmeterID, eval_bind_ok (eval_listFeatures h), hnone]
  rw [hrun]
  generalize st.meters.foldl (fun id m => if m.key = tokensMeter then m.id else id) [] = meterID
  obtain ⟨hok, hfeatures⟩ := @bootstrapFeatures_new om meterID h cfg.resources st
  have hkeys : (cfg.resources.map (fun r => featureKey r.name)).Nodup ↔
      cfg.resources.Pairwise (fun r r' => ¬SameWords r.name r'.name) := by
    rw [List.Nodup, List.pairwise_map]
    simp only [ne_eq, featureKey_eq_iff]
  rw [hnone, List.map_nil] at hok
  simp only [List.not_mem_nil, not_false_eq_true, implies_true, and_true, hkeys] at hok
  cases hfirst : (bootstrapFeatures meterID [] cfg.resources).run.eval om st with
  | mk result mid =>
    rw [hfirst] at hok hfeatures
    rw [← hok]
    cases result with
    | error e =>
      rw [eval_bind_error hfirst]
      exact ⟨fun h => (by cases h.1), fun h => (by cases h)⟩
    | ok value =>
      rw [eval_bind_ok hfirst, eval_bind_ok (eval_listOverrides h)]
      obtain ⟨hprices, hsame⟩ := @bootstrapPrices_features om s h mid.overrides cfg.prices mid
      refine ⟨fun _ => rfl, fun _ => ⟨hprices, fun r hr => ?_⟩⟩
      rw [hsame, hfeatures rfl]
      exact List.mem_append_right _ (List.mem_map_of_mem hr)

/-- An OpenMeter with the meter, and nothing else. -/
def freshStore : Store where
  meters := [{ id := "m-req", key := "llm_requests" }, { id := "m-tok", key := "llm_tokens" }]

/-- An OpenMeter that numbers its features. -/
def numbered : Service
  | st, .meters => (served st.meters, st)
  | st, .features => (served st.features, st)
  | st, .overrides => (served st.overrides, st)
  | st, .now => (st.clock, st)
  | st, .patchFeature id unitCost =>
    if id ∈ st.features.map Feature.id then
      (.ok (), { st with features := st.features.map (fun f => if f.id = id then { f with unitCost := unitCost } else f) })
    else (.error [], st)
  | st, .createFeature f =>
    if f.key ∈ st.features.map Feature.key then (.error [], st)
    else (.ok (), { st with features := st.features ++ [f.kept (itoa st.features.length)] })
  | st, .createOverride p =>
    (.ok (), { st with overrides := st.overrides ++
      [{ provider := p.provider, model := p.model, pricing := p.pricing }] })

private theorem numbered_keeps : numbered.Keeps where
  meters _ := rfl
  features _ := rfl
  overrides _ := rfl
  now _ := rfl
  created _ _ h := ⟨_, if_neg h⟩
  refused _ _ h := ⟨_, if_pos h⟩
  override _ _ := rfl

/-- A setup for prices in whole units. -/
def plainSetup : Setup where
  normalizeModelID := fun provider model => (provider, model)
  setString := fun text => some (atoi text)

def chatResources (first second : GoString) : BootstrapConfig where
  resources := [{ name := first, provider := "openai" }, { name := second, provider := "openai" }]
  prices := []

end Bootstrap

end openmetersetup
