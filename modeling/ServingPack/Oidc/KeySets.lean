import ServingPack.Oidc.Refresh

open golang concurrency

namespace oidc.keysets

variable {K : Type}

/-- The keys of the fetch that last succeeded, none before the first. -/
def lastStored : List (Effect K) → Fields K
  | [] => []
  | .stored keys :: _ => keys
  | _ :: earlier => lastStored earlier

/-- When the refresh for an unknown key was let through that has sent no request yet. -/
def pending : List (Effect K) → Option Int
  | [] => none
  | .admitted time :: _ => some time
  | .started .unknownKID _ :: _ => none
  | _ :: earlier => pending earlier

/-- Whether the requests of fetches for unknown keys start as far apart as the cooldown. -/
def StartsApart (log : List (Effect K)) : Prop :=
  AtEach (fun e earlier => ∀ time time', e = .started .unknownKID time →
    .started .unknownKID time' ∈ earlier →
    time' + unknownKIDCooldown ≤ time) log

/-- Whether the refreshes for unknown keys are let through as far apart as the cooldown,
and each of them is what one fetch starts for, and no earlier. -/
structure RateLimited (log : List (Effect K)) : Prop where
  apart : AtEach (fun e earlier => ∀ time time', e = .admitted time → .admitted time' ∈ earlier →
    time' + unknownKIDCooldown ≤ time) log
  admitted : AtEach (fun e earlier => ∀ time, e = .started .unknownKID time →
    ∃ time', pending earlier = some time' ∧ time' ≤ time) log

/-- Whether the cached keys are those of the fetch that last succeeded, some of them from
when the validator is ready, which it stays, and only keys it did not have are refused. -/
structure Current (v : Validator K) (log : List (Effect K)) : Prop where
  cached : v.publicKeys = lastStored log
  ready : v.ready = true ↔ .becameReady ∈ log
  nonempty : v.ready = true → v.publicKeys ≠ []
  absent : AtEach (fun e earlier => ∀ call kid, e = .absent call kid →
    (lastStored earlier).get kid = none) log
  refused : ∀ call kid unavailable, v.lookups call = .refused kid unavailable →
    .absent call kid ∈ log

/-- The function in flight that is about to send its request was let through. -/
def Admitted (v : Validator K) (log : List (Effect K)) : Prop :=
  ∀ c, v.refreshGroup.flight = some c → c.stage = ⟨.unknownKID, .fetching .called⟩ →
    ∃ time, pending log = some time ∧ time ≤ v.now

/-- The cooldown is counted from the refresh that was let through last. -/
structure Stamped (v : Validator K) (log : List (Effect K)) : Prop where
  clock : 0 < v.now
  past : v.lastKIDRefresh ≤ v.now
  none : v.lastKIDRefresh = 0 → ∀ time, .admitted time ∉ log
  latest : ∀ time, .admitted time ∈ log → time ≤ v.lastKIDRefresh

/-- What every step keeps. -/
structure Inv (v : Validator K) (log : List (Effect K)) : Prop where
  limited : RateLimited log
  current : Current v log
  admitted : Admitted v log
  stamped : Stamped v log
  /-- Once a fetch of the background goroutine has succeeded there are keys. -/
  fetched : v.background = .fetched ∨ v.background = .fetching (.answered none) → v.publicKeys ≠ []
  /-- `ValidateToken` refuses after it did not find the key. -/
  absent : ∀ call kid, v.lookups call = .absent kid → .absent call kid ∈ log

section Neutral

variable {log noted : List (Effect K)}

/-- Whether an effect is about none of the keys, the cooldown and refusals. -/
def neutral : Effect K → Bool
  | .admitted _ | .started .unknownKID _ | .stored _ | .becameReady | .absent _ _ => false
  | _ => true

private theorem lastStored_neutral (h : ∀ e ∈ noted, neutral e = true) :
    lastStored (noted ++ log) = lastStored log := by
  induction noted with
  | nil => rfl
  | cons e rest ih =>
    have hrest := ih (fun e' he' => h e' (List.mem_cons_of_mem _ he'))
    have he := h e List.mem_cons_self
    cases e with
    | stored keys => cases he
    | admitted | started | finished | becameReady | refreshBegan | refreshed | absent => exact hrest

private theorem pending_neutral (h : ∀ e ∈ noted, neutral e = true) :
    pending (noted ++ log) = pending log := by
  induction noted with
  | nil => rfl
  | cons e rest ih =>
    have hrest := ih (fun e' he' => h e' (List.mem_cons_of_mem _ he'))
    have he := h e List.mem_cons_self
    cases e with
    | admitted time => cases he
    | started trigger time =>
      cases trigger with
      | unknownKID => cases he
      | initial | periodic => exact hrest
    | stored | finished | becameReady | refreshBegan | refreshed | absent => exact hrest

/-- What is not neutral was noted before. -/
theorem mem_neutral (h : ∀ e ∈ noted, neutral e = true) {e : Effect K} (he : neutral e = false) :
    e ∈ noted ++ log ↔ e ∈ log := by
  rw [List.mem_append, or_iff_right]
  intro hmem
  rw [h e hmem] at he
  cases he

private theorem RateLimited.neutral (h : RateLimited log) (hnoted : ∀ e ∈ noted, neutral e = true) :
    RateLimited (noted ++ log) where
  apart := by
    apply h.apart.append
    intro e hmem _ time _ he
    have hneutral := hnoted e hmem
    rw [he] at hneutral
    cases hneutral
  admitted := by
    apply h.admitted.append
    intro e hmem _ time he
    have hneutral := hnoted e hmem
    rw [he] at hneutral
    cases hneutral

end Neutral

section Steps

variable {v v' : Validator K} {log noted : List (Effect K)} {parse : Jwk → Option K}

private theorem Inv.init {now : Int} (h : 0 < now) : Inv ({ now := now } : Validator K) [] where
  limited := ⟨atEach_nil, atEach_nil⟩
  current := {
    cached := rfl
    ready := by simp
    nonempty := fun hready => (by cases hready)
    absent := atEach_nil
    refused := fun _ _ _ hrefused => (by cases hrefused) }
  admitted c hc := by cases hc
  stamped := {
    clock := h
    past := h.le
    none := fun _ _ => List.not_mem_nil
    latest := fun _ hmem => absurd hmem List.not_mem_nil }
  fetched hfetched := by
    obtain hfetched | hfetched := hfetched
    · cases hfetched
    · cases hfetched
  absent _ _ habsent := by cases habsent

/-- A step that touches neither the keys nor the cooldown and refuses nothing. -/
theorem Inv.quiet (h : Inv v log) (hnoted : ∀ e ∈ noted, neutral e = true) (hnow : v.now ≤ v'.now)
    (hkeys : v'.publicKeys = v.publicKeys) (hlast : v'.lastKIDRefresh = v.lastKIDRefresh)
    (hready : v'.ready = v.ready)
    (hflight : ∀ c, v'.refreshGroup.flight = some c → c.stage = ⟨.unknownKID, .fetching .called⟩ →
      ∃ c', v.refreshGroup.flight = some c' ∧ c'.stage = c.stage)
    (hfetched : v'.background = .fetched ∨ v'.background = .fetching (.answered none) →
      v.publicKeys ≠ [])
    (habsent : ∀ call kid, v'.lookups call = .absent kid → v.lookups call = .absent kid)
    (hrefused : ∀ call kid unavailable, v'.lookups call = .refused kid unavailable →
      v.lookups call = .absent kid ∨ v.lookups call = .refused kid unavailable) :
      Inv v' (noted ++ log) where
  limited := h.limited.neutral hnoted
  current := {
    cached := by rw [hkeys, lastStored_neutral hnoted, h.current.cached]
    ready := by rw [hready, mem_neutral hnoted rfl, h.current.ready]
    nonempty := by
      rw [hready, hkeys]
      exact h.current.nonempty
    absent := by
      apply h.current.absent.append
      intro e hmem _ call kid he
      have hneutral := hnoted e hmem
      rw [he] at hneutral
      cases hneutral
    refused := by
      intro call kid unavailable hcall
      rw [mem_neutral hnoted rfl]
      obtain hold | hold := hrefused call kid unavailable hcall
      · exact h.absent call kid hold
      · exact h.current.refused call kid unavailable hold }
  admitted c hc hstage := by
    obtain ⟨c', hc', hsame⟩ := hflight c hc hstage
    obtain ⟨time, hpending, hle⟩ := h.admitted c' hc' (hsame.trans hstage)
    exact ⟨time, by rw [pending_neutral hnoted, hpending], hle.trans hnow⟩
  stamped := {
    clock := lt_of_lt_of_le h.stamped.clock hnow
    past := by
      rw [hlast]
      exact h.stamped.past.trans hnow
    none := by
      intro hzero time
      rw [mem_neutral hnoted rfl]
      exact h.stamped.none (hlast ▸ hzero) time
    latest := by
      intro time hmem
      rw [mem_neutral hnoted rfl] at hmem
      rw [hlast]
      exact h.stamped.latest time hmem }
  fetched := by
    rw [hkeys]
    exact hfetched
  absent call kid hcall := by
    rw [mem_neutral hnoted rfl]
    exact h.absent call kid (habsent call kid hcall)

/-- A step of the background goroutine alone. -/
theorem Inv.onBackground (h : Inv v log) (b : Background) (hnoted : ∀ e ∈ noted, neutral e = true)
    (hb : b = .fetched ∨ b = .fetching (.answered none) → v.publicKeys ≠ []) :
    Inv { v with background := b } (noted ++ log) :=
  h.quiet hnoted le_rfl rfl rfl rfl (fun c hc _ => ⟨c, hc, rfl⟩) hb (fun _ _ hcall => hcall)
    (fun _ _ _ hcall => .inr hcall)

/-- A step of the refresh group alone. -/
theorem Inv.onGroup (h : Inv v log) (g : Group Callback (Option Err))
    (hnoted : ∀ e ∈ noted, neutral e = true)
    (hg : ∀ c, g.flight = some c → c.stage = ⟨.unknownKID, .fetching .called⟩ →
      ∃ c', v.refreshGroup.flight = some c' ∧ c'.stage = c.stage) :
    Inv { v with refreshGroup := g } (noted ++ log) :=
  h.quiet hnoted le_rfl rfl rfl rfl hg h.fetched (fun _ _ hcall => hcall)
    (fun _ _ _ hcall => .inr hcall)

/-- A step of one call of `ValidateToken` alone. -/
theorem Inv.onLookup (h : Inv v log) (call : Nat) (l : Lookup K) (habsent : ∀ kid, l ≠ .absent kid)
    (hrefused : ∀ kid unavailable, l = .refused kid unavailable → v.lookups call = .absent kid) :
    Inv (v.setLookup call l) log := by
  rw [← List.nil_append log]
  apply h.quiet
  · exact fun _ hmem => absurd hmem List.not_mem_nil
  · exact le_rfl
  · rfl
  · rfl
  · rfl
  · exact fun c hc _ => ⟨c, hc, rfl⟩
  · exact h.fetched
  · intro call' kid hcall
    by_cases hsame : call' = call
    · rw [hsame, Validator.lookups_setLookup] at hcall
      exact absurd hcall (habsent kid)
    · rwa [Validator.lookups_setLookup_ne hsame] at hcall
  · intro call' kid unavailable hcall
    by_cases hsame : call' = call
    · rw [hsame, Validator.lookups_setLookup] at hcall
      rw [hsame]
      exact .inl (hrefused kid unavailable hcall)
    · rw [Validator.lookups_setLookup_ne hsame] at hcall
      exact .inr hcall

private theorem advance_flight {stage : Stage} {c : Flight Callback}
    (h : (v.advance stage).refreshGroup.flight = some c) :
    c.stage.stage = stage := by
  obtain ⟨c', -, rfl⟩ := Group.advance_cases h
  rfl

/-- Joining a call in flight leaves its function where it is, and a call that begins has
asked nothing yet. -/
theorem doChan_called {trigger : Trigger} {c : Flight Callback}
    (hc : (v.refreshGroup.doChan { trigger := trigger }).flight = some c)
    (hstage : c.stage = ⟨.unknownKID, .fetching .called⟩) : ∃ c', v.refreshGroup.flight = some c' ∧
      c'.stage = c.stage := by
  obtain ⟨-, rfl⟩ | ⟨c', hc', hsame, -⟩ := Group.doChan_cases hc
  · cases congrArg Callback.stage hstage
  · exact ⟨c', hc', hsame.symm⟩

/-- A step within a fetch that is neither its request nor a success. -/
theorem Inv.setFetch (h : Inv v log) (w : Validator.Fetcher) (f : Fetch)
    (hnoted : ∀ e ∈ noted, neutral e = true)
    (hf : f ≠ .called ∧ f ≠ .answered none) : Inv (v.setFetch f w) (noted ++ log) := by
  cases w with
  | background =>
    apply h.onBackground _ hnoted
    intro hb
    obtain hb | hb := hb
    · cases hb
    · exact absurd (Background.fetching.inj hb) hf.2
  | flight =>
    apply h.onGroup _ hnoted
    intro c hc hstage
    have hcalled := (advance_flight hc).symm.trans (congrArg Callback.stage hstage)
    exact absurd (Stage.fetching.inj hcalled) hf.1

/-- A fetch that keys are asked of does not answer without any. -/
theorem keysOf_ne_nil {response : Except GoString (List Jwk)} {keys : Fields K}
    (h : keysOf parse response = .ok keys) : keys ≠ [] := by
  cases response with
  | error text => cases h
  | ok set =>
    rw [keysOf] at h
    split_ifs at h with hempty
    obtain rfl := Except.ok.inj h
    rintro hnil
    rw [hnil] at hempty
    exact hempty rfl

/-- The request of a fetch. -/
theorem Inv.request (h : Inv v log) {w : Validator.Fetcher}
    (hstep : v.request w = some (v', noted)) :
    Inv v' (noted ++ log) := by
  obtain ⟨trigger, hfetch, rfl, rfl⟩ := request_inv hstep
  have hquiet : neutral (.started trigger v.now : Effect K) = true → Inv (v.setFetch .requested w)
      ([.started trigger v.now] ++ log) := by
    intro hneutral
    apply h.setFetch
    · simpa using hneutral
    · simp
  cases trigger with
  | initial | periodic => exact hquiet rfl
  | unknownKID =>
    cases w with
    | background => cases (fetch_background hfetch).2
    | flight =>
      obtain ⟨chans, hflight⟩ := fetch_flight hfetch
      obtain ⟨time, hpending, hle⟩ := h.admitted _ hflight rfl
      exact {
        limited := {
          apart := atEach_cons.mpr ⟨fun _ _ he => (by cases he), h.limited.apart⟩
          admitted := by
            refine atEach_cons.mpr ⟨fun time' he => ?_, h.limited.admitted⟩
            obtain ⟨-, rfl⟩ := Effect.started.inj he
            exact ⟨time, hpending, hle⟩ }
        current := {
          cached := h.current.cached
          ready := by
            rw [List.singleton_append, List.mem_cons, or_iff_right (by simp)]
            exact h.current.ready
          nonempty := h.current.nonempty
          absent := atEach_cons.mpr ⟨fun _ _ he => (by cases he), h.current.absent⟩
          refused := fun call kid unavailable hcall =>
            List.mem_cons_of_mem _ (h.current.refused call kid unavailable hcall) }
        admitted := by
          intro c hc hstage
          have hcalled := (advance_flight hc).symm.trans (congrArg Callback.stage hstage)
          cases hcalled
        stamped := {
          clock := h.stamped.clock
          past := h.stamped.past
          none := by
            intro hzero time' hmem
            exact h.stamped.none hzero time' (by simpa using hmem)
          latest := by
            intro time' hmem
            exact h.stamped.latest time' (by simpa using hmem) }
        fetched := h.fetched
        absent := fun call kid hcall => List.mem_cons_of_mem _ (h.absent call kid hcall) }

/-- A fetch that succeeds stores its keys. -/
theorem Inv.stored (h : Inv v log) (w : Validator.Fetcher) {keys : Fields K} (hkeys : keys ≠ []) :
    Inv ({ v with publicKeys := keys }.setFetch (.answered none) w) (.stored keys :: log) where
  limited := {
    apart := atEach_cons.mpr ⟨fun _ _ he => (by cases he), h.limited.apart⟩
    admitted := atEach_cons.mpr ⟨fun _ he => (by cases he), h.limited.admitted⟩ }
  current := {
    cached := Validator.publicKeys_setFetch ..
    ready := by
      have hready : ({ v with publicKeys := keys }.setFetch (.answered none) w).ready =
          v.ready := by
        cases w with
        | background => rfl
        | flight => rfl
      rw [hready, List.mem_cons, or_iff_right (by simp)]
      exact h.current.ready
    nonempty := by
      rw [Validator.publicKeys_setFetch]
      exact fun _ => hkeys
    absent := atEach_cons.mpr ⟨fun _ _ he => (by cases he), h.current.absent⟩
    refused := by
      intro call kid unavailable hcall
      apply List.mem_cons_of_mem
      apply h.current.refused call kid unavailable
      cases w with
      | background => exact hcall
      | flight => exact hcall }
  admitted := by
    intro c hc hstage
    cases w with
    | background => exact h.admitted c hc hstage
    | flight => cases (advance_flight hc).symm.trans (congrArg Callback.stage hstage)
  stamped := by
    have hstamped : Stamped v (.stored keys :: log) := {
      clock := h.stamped.clock
      past := h.stamped.past
      none := fun hzero time hmem => h.stamped.none hzero time (by simpa using hmem)
      latest := fun time hmem => h.stamped.latest time (by simpa using hmem) }
    cases w with
    | background => exact ⟨hstamped.clock, hstamped.past, hstamped.none, hstamped.latest⟩
    | flight => exact ⟨hstamped.clock, hstamped.past, hstamped.none, hstamped.latest⟩
  fetched := by
    rw [Validator.publicKeys_setFetch]
    exact fun _ => hkeys
  absent call kid hcall := by
    apply List.mem_cons_of_mem
    apply h.absent call kid
    cases w with
    | background => exact hcall
    | flight => exact hcall

private theorem Inv.respond (h : Inv v log) {w : Validator.Fetcher}
    {response : Except GoString (List Jwk)}
    (hstep : v.respond parse w response = some (v', noted)) : Inv v' (noted ++ log) := by
  obtain ⟨trigger, f, -, ⟨err, -, rfl, rfl⟩ | ⟨keys, hkeys, rfl, rfl⟩⟩ := respond_inv hstep
  · apply h.setFetch
    · simp
    · simp
  · exact h.stored w (keysOf_ne_nil hkeys)

/-- The end of a fetch. -/
theorem Inv.settle (h : Inv v log) {w : Validator.Fetcher} (hstep : v.settle w = some (v', noted)) :
    Inv v' (noted ++ log) := by
  obtain ⟨trigger, err, hfetch, rfl, ⟨rfl, rfl⟩ | ⟨rfl, rfl⟩⟩ := settle_inv hstep
  · apply h.quiet
    · simp [neutral]
    · exact le_rfl
    · rfl
    · rfl
    · rfl
    · exact fun c hc _ => ⟨c, hc, rfl⟩
    · intro hb
      cases err with
      | none => exact h.fetched (.inr (fetch_background hfetch).1)
      | some err =>
        obtain hb | hb := hb
        · cases hb
        · cases hb
    · exact fun _ _ hcall => hcall
    · exact fun _ _ _ hcall => .inr hcall
  · apply h.quiet
    · simp [neutral]
    · exact le_rfl
    · rfl
    · rfl
    · rfl
    · intro c hc hstage
      cases (advance_flight hc).symm.trans (congrArg Callback.stage hstage)
    · exact h.fetched
    · exact fun _ _ hcall => hcall
    · exact fun _ _ _ hcall => .inr hcall

/-- The validator becomes ready with the keys of the fetch that has succeeded. -/
theorem Inv.markReady (h : Inv v log) (hfetched : v.background = .fetched) :
    Inv { v with ready := true, background := .idle } (.becameReady :: log) where
  limited := {
    apart := atEach_cons.mpr ⟨fun _ _ he => (by cases he), h.limited.apart⟩
    admitted := atEach_cons.mpr ⟨fun _ he => (by cases he), h.limited.admitted⟩ }
  current := {
    cached := h.current.cached
    ready := iff_of_true rfl List.mem_cons_self
    nonempty := fun _ => h.fetched (.inl hfetched)
    absent := atEach_cons.mpr ⟨fun _ _ he => (by cases he), h.current.absent⟩
    refused := fun call kid unavailable hcall =>
      List.mem_cons_of_mem _ (h.current.refused call kid unavailable hcall) }
  admitted := h.admitted
  stamped := {
    clock := h.stamped.clock
    past := h.stamped.past
    none := fun hzero time hmem => h.stamped.none hzero time (by simpa using hmem)
    latest := fun time hmem => h.stamped.latest time (by simpa using hmem) }
  fetched := by simp
  absent call kid hcall := List.mem_cons_of_mem _ (h.absent call kid hcall)

/-- A refresh for an unknown key that is not suppressed comes the cooldown after the last. -/
theorem Inv.admit (h : Inv v log) (hopen : v.suppressed = false) :
    Inv ({ v with lastKIDRefresh := v.now }.advance (.fetching .called))
      (.admitted v.now :: log) where
  limited := {
    apart := by
      refine atEach_cons.mpr ⟨fun time time' he hmem => ?_, h.limited.apart⟩
      obtain rfl := Effect.admitted.inj he
      have hlatest := h.stamped.latest time' hmem
      have hnonzero : v.lastKIDRefresh ≠ 0 := fun hzero => h.stamped.none hzero time' hmem
      simp only [Validator.suppressed, ne_eq, hnonzero, not_false_eq_true, true_and,
        decide_eq_false_iff_not, not_lt] at hopen
      omega
    admitted := atEach_cons.mpr ⟨fun _ he => (by cases he), h.limited.admitted⟩ }
  current := {
    cached := h.current.cached
    ready := by
      rw [List.mem_cons, or_iff_right (by simp)]
      exact h.current.ready
    nonempty := h.current.nonempty
    absent := atEach_cons.mpr ⟨fun _ _ he => (by cases he), h.current.absent⟩
    refused := fun call kid unavailable hcall =>
      List.mem_cons_of_mem _ (h.current.refused call kid unavailable hcall) }
  admitted _ _ _ := ⟨v.now, rfl, le_rfl⟩
  stamped := {
    clock := h.stamped.clock
    past := le_rfl
    none := fun hzero => absurd hzero h.stamped.clock.ne'
    latest := by
      intro time hmem
      obtain he | hmem := List.mem_cons.mp hmem
      · obtain rfl := Effect.admitted.inj he
        exact le_rfl
      · exact (h.stamped.latest time hmem).trans h.stamped.past }
  fetched := h.fetched
  absent call kid hcall := List.mem_cons_of_mem _ (h.absent call kid hcall)

/-- A step of the function in flight to its fetch, or to the cooldown's error. -/
theorem Inv.callback (h : Inv v log) (hstep : v.callback = some (v', noted)) :
    Inv v' (noted ++ log) := by
  obtain ⟨c, hflight, hbegun, hcases⟩ := callback_inv hstep
  obtain ⟨-, -, rfl, rfl⟩ | ⟨-, hopen, rfl, rfl⟩ | ⟨hperiodic, rfl, rfl⟩ := hcases
  · apply h.onGroup
    · simp
    · intro c' hc' hstage
      cases (advance_flight hc').symm.trans (congrArg Callback.stage hstage)
  · exact h.admit hopen
  · apply h.onGroup
    · simp
    · intro c' hc' hstage
      obtain ⟨c₁, hc₁, rfl⟩ := Group.advance_cases hc'
      obtain rfl := Option.some.inj (hflight.symm.trans hc₁)
      exact absurd (congrArg Callback.trigger hstage) hperiodic

/-- A call of `ValidateToken` that does not find its key in the last fetch's. -/
theorem Inv.missed (h : Inv v log) (call : Nat) {kid : GoString}
    (hnone : v.publicKeys.get kid = none) :
    Inv (v.setLookup call (.absent kid)) (.absent call kid :: log) where
  limited := {
    apart := atEach_cons.mpr ⟨fun _ _ he => (by cases he), h.limited.apart⟩
    admitted := atEach_cons.mpr ⟨fun _ he => (by cases he), h.limited.admitted⟩ }
  current := {
    cached := h.current.cached
    ready := by
      rw [List.mem_cons, or_iff_right (by simp)]
      exact h.current.ready
    nonempty := h.current.nonempty
    absent := by
      refine atEach_cons.mpr ⟨fun call' kid' he => ?_, h.current.absent⟩
      obtain ⟨-, rfl⟩ := Effect.absent.inj he
      rw [← h.current.cached]
      exact hnone
    refused := by
      intro call' kid' unavailable hcall
      by_cases hsame : call' = call
      · rw [hsame, Validator.lookups_setLookup] at hcall
        cases hcall
      · rw [Validator.lookups_setLookup_ne hsame] at hcall
        exact List.mem_cons_of_mem _ (h.current.refused call' kid' unavailable hcall) }
  admitted := h.admitted
  stamped := {
    clock := h.stamped.clock
    past := h.stamped.past
    none := fun hzero time hmem => h.stamped.none hzero time (by simpa using hmem)
    latest := fun time hmem => h.stamped.latest time (by simpa using hmem) }
  fetched := h.fetched
  absent call' kid' hcall := by
    by_cases hsame : call' = call
    · rw [hsame, Validator.lookups_setLookup] at hcall
      obtain rfl := Lookup.absent.inj hcall
      rw [hsame]
      exact List.mem_cons_self
    · rw [Validator.lookups_setLookup_ne hsame] at hcall
      exact List.mem_cons_of_mem _ (h.absent call' kid' hcall)

/-- A step of the clock or of the context. -/
theorem Inv.outside (h : Inv v log) (hnow : v.now ≤ v'.now)
    (hsame : v' = { v with now := v'.now, stopped := v'.stopped }) : Inv v' log := by
  rw [← List.nil_append log, hsame]
  apply h.quiet
  · simp
  · exact hnow
  · rfl
  · rfl
  · rfl
  · exact fun c hc _ => ⟨c, hc, rfl⟩
  · exact h.fetched
  · exact fun _ _ hcall => hcall
  · exact fun _ _ _ hcall => .inr hcall

private theorem Inv.step (h : Inv v log) {a : Action}
    (hstep : oidc.step parse v a = some (v', noted)) :
    Inv v' (noted ++ log) := by
  cases a with
  | tick nanoseconds =>
    obtain ⟨rfl, rfl⟩ := Prod.mk.inj (Option.some.inj hstep)
    exact h.outside (by simp) rfl
  | stop =>
    obtain ⟨rfl, rfl⟩ := Prod.mk.inj (Option.some.inj hstep)
    exact h.outside le_rfl rfl
  | attempt =>
    obtain ⟨-, rfl, rfl⟩ := attempt_inv hstep
    exact h.onBackground _ (by simp) (by simp)
  | request w => exact h.request hstep
  | respond w response => exact h.respond hstep
  | settle w => exact h.settle hstep
  | markReady =>
    obtain ⟨hfetched, rfl, rfl⟩ := markReady_inv hstep
    exact h.markReady hfetched
  | refreshKeys =>
    obtain ⟨-, rfl, rfl⟩ := refreshKeys_inv hstep
    apply h.quiet
    · simp [neutral]
    · exact le_rfl
    · rfl
    · rfl
    · rfl
    · exact fun c hc hstage => doChan_called hc hstage
    · simp
    · exact fun _ _ hcall => hcall
    · exact fun _ _ _ hcall => .inr hcall
  | receiveRefresh =>
    obtain ⟨ch, err, -, -, rfl, rfl⟩ := receiveRefresh_inv hstep
    exact h.onBackground _ (by simp [neutral]) (by simp)
  | abandonRefresh =>
    obtain ⟨ch, -, rfl, rfl⟩ := abandonRefresh_inv hstep
    exact h.onBackground _ (by simp) (by simp)
  | halt =>
    obtain ⟨-, rfl, rfl⟩ := halt_inv hstep
    exact h.onBackground _ (by simp) (by simp)
  | callback => exact h.callback hstep
  | doCall =>
    obtain ⟨c, err, hflight, -, rfl, rfl⟩ := doCall_inv hstep
    apply h.onGroup
    · simp
    · intro c' hc'
      rw [Group.doCall_flight hflight] at hc'
      cases hc'
  | validateToken call kid =>
    obtain ⟨rfl, rfl⟩ := validateToken_inv hstep
    apply h.onLookup
    · intro kid'
      split_ifs <;> simp
    · intro kid' unavailable
      split_ifs <;> simp
  | lookup call =>
    obtain ⟨kid, -, rfl, ⟨key, rfl⟩ | rfl⟩ := lookup_inv hstep
    · exact h.onLookup _ _ (by simp) (by simp)
    · exact h.onLookup _ _ (by simp) (by simp)
  | refreshForUnknownKID call =>
    obtain ⟨kid, -, rfl, rfl⟩ := refreshForUnknownKID_inv hstep
    have hjoined : Inv { v with refreshGroup := v.refreshGroup.doChan { trigger := .unknownKID } }
        log := by
      rw [← List.nil_append log]
      exact h.onGroup _ (by simp) (fun c hc hstage => doChan_called hc hstage)
    exact hjoined.onLookup _ _ (by simp) (by simp)
  | receive call cancelled =>
    obtain ⟨kid, ch, -, rfl, rfl⟩ := receive_inv hstep
    exact h.onLookup _ _ (by simp) (by simp)
  | lookupAgain call =>
    obtain ⟨kid, -, ⟨key, rfl, rfl⟩ | ⟨hnone, rfl, rfl⟩⟩ := lookupAgain_inv hstep
    · exact h.onLookup _ _ (by simp) (by simp)
    · exact h.missed call hnone
  | refuse call =>
    obtain ⟨kid, habsent, rfl, rfl⟩ := refuse_inv hstep
    apply h.onLookup
    · simp
    · intro kid' unavailable heq
      obtain ⟨rfl, -⟩ := Lookup.refused.inj heq
      exact habsent

end Steps

/-- In every run the refreshes for unknown keys are let through as far apart as the
cooldown, each for one fetch, and the cached keys are those of the fetch that last
succeeded, so that only keys it did not have are refused. -/
theorem keys_current {parse : Jwk → Option K} {now : Int} (hnow : 0 < now) {v : Validator K}
    {log : List (Effect K)}
    (h : Run (step parse) { now := now } v log) : RateLimited log ∧ Current v log := by
  have hinv : Inv v log := by
    refine h.invariant (Inv.init hnow) ?_
    intro v log a v' noted hinv hstep
    exact hinv.step hstep
  exact ⟨hinv.limited, hinv.current⟩

section Concrete

open refreshes

/-- Two refreshes for forged tokens, let through the cooldown apart, the first of which
sends its request a nanosecond after. -/
def delayed : List Action :=
  becomesReady ++ forgedToken 0 ++ [.callback, .tick 1] ++
    [.request .flight, .respond .flight (.ok [providerKey]), .settle .flight, .doCall] ++
      [.tick 29999999999] ++
    forgedToken 1 ++ [.callback, .request .flight]

/-- What it notes. -/
def delayedLog : List (Effect GoString) :=
  [.started .unknownKID 30000000001, .admitted 30000000001, .finished .unknownKID none,
    .stored [("current", "AQAB")],
    .started .unknownKID 2, .admitted 1, .becameReady, .finished .initial none,
      .stored [("current", "AQAB")],
    .started .initial 1]

/-- The two requests are a nanosecond less than the cooldown apart. -/
theorem delayed_request_unspaced : ∃ (v : Validator GoString) (log : List (Effect GoString)),
    Run (step modulus) { now := 1 } v log ∧ ¬StartsApart log := by
  refine ⟨_, delayedLog, @Run.take _ _ _ _ _ _ _ delayed _ _ .start rfl, fun hstarts => ?_⟩
  have hapart := hstarts [] _ _ rfl _ 2 rfl (by simp)
  revert hapart
  decide

/-- A call that is refused its forged key, after a refresh. -/
def refusedForged : List Action :=
  becomesReady ++ forgedToken 0 ++ fetches ++ [.receive 0 false, .lookupAgain 0, .refuse 0]

/-- A token with an unknown key is refused after one fetch, which finds no such key. -/
theorem forged_token_refused : ∃ (v : Validator GoString) (log : List (Effect GoString)),
    Run (step modulus) { now := 1 } v log ∧ v.lookups 0 = .refused "forged" false ∧
    RateLimited log ∧ Current v log := by
  have hrun : ∃ (v : Validator GoString) (log : List (Effect GoString)),
      Run (step modulus) { now := 1 } v log ∧ v.lookups 0 = .refused "forged" false :=
    ⟨_, _, @Run.take _ _ _ _ _ _ _ refusedForged _ _ .start rfl, rfl⟩
  obtain ⟨v, log, hrun, hrefused⟩ := hrun
  exact ⟨v, log, hrun, hrefused, keys_current Int.one_pos hrun⟩

end Concrete

end oidc.keysets
