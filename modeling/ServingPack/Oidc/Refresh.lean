import ServingPack.Oidc.Validator

open golang concurrency

namespace oidc.refreshes

variable {K : Type}

/-- Whether a fetch has finished with this result since a call of `refreshKeys` began. -/
def Answered (log : List (Effect K)) (ch : Nat) (err : Option Err) : Prop :=
  ∃ later trigger earlier, log = later ++ .finished trigger err :: earlier ∧
    .refreshBegan ch ∈ earlier

/-- Whether every call of `refreshKeys` that was not cancelled has returned the result
of such a fetch. -/
def Refreshes (log : List (Effect K)) : Prop :=
  AtEach (fun e earlier => ∀ ch err, e = .refreshed ch err → Answered earlier ch err) log

/-- Whether the background goroutine waits on one of these channels. -/
def waitsOn (v : Validator K) (chans : List Nat) : Bool :=
  match v.background with
  | .refreshing ch => chans.contains ch
  | _ => false

/-- Whether a step does not let a periodic refresh miss its fetch: it joins no call whose
function has returned, and no refresh that it waits for is suppressed. -/
def lets (v : Validator K) : Action → Bool
  | .refreshKeys =>
    match v.refreshGroup.flight with
    | some ⟨⟨_, .returned _⟩, _⟩ => false
    | _ => true
  | .callback =>
    match v.refreshGroup.flight with
    | some ⟨⟨.unknownKID, .begun⟩, chans⟩ => !(v.suppressed && waitsOn v chans)
    | _ => true
  | _ => true

section Logs

variable {log noted : List (Effect K)} {ch : Nat} {err : Option Err}

private theorem Answered.append (h : Answered log ch err) (noted : List (Effect K)) :
    Answered (noted ++ log) ch err := by
  obtain ⟨later, trigger, earlier, rfl, hbegan⟩ := h
  exact ⟨noted ++ later, trigger, earlier, (List.append_assoc ..).symm, hbegan⟩

private theorem Refreshes.append (h : Refreshes log)
    (hnoted : ∀ ch err, .refreshed ch err ∉ noted) :
    Refreshes (noted ++ log) := by
  apply AtEach.append h
  intro e hmem _ ch err he
  exact absurd (he ▸ hmem) (hnoted ch err)

end Logs

/-- What is kept where every step lets the periodic refreshes have their fetch. -/
structure Inv (v : Validator K) (log : List (Effect K)) : Prop where
  consistent : v.refreshGroup.Consistent
  began : ∀ ch, v.background = .refreshing ch → ch < v.refreshGroup.made ∧ .refreshBegan ch ∈ log
  returned : ∀ ch c err, v.background = .refreshing ch → v.refreshGroup.flight = some c →
    ch ∈ c.chans →
    c.stage.stage = .returned err → Answered log ch err
  sent : ∀ ch err, v.background = .refreshing ch → v.refreshGroup.sent ch = some err →
    Answered log ch err
  refreshed : Refreshes log

section Steps

variable {v v' : Validator K} {log noted : List (Effect K)} {parse : Jwk → Option K}

private theorem Inv.init (now : Int) : Inv ({ now := now } : Validator K) [] where
  consistent := Group.empty_consistent
  began ch h := by cases h
  returned ch c err h := by cases h
  sent ch err h := by cases h
  refreshed := atEach_nil

/-- A step at which the background goroutine begins no refresh and ends none. -/
theorem Inv.keep (h : Inv v log) (hconsistent : v'.refreshGroup.Consistent)
    (hbackground : ∀ ch, v'.background = .refreshing ch → v.background = .refreshing ch)
    (hmade : v.refreshGroup.made ≤ v'.refreshGroup.made)
    (hsent : v'.refreshGroup.sent = v.refreshGroup.sent)
    (hreturned : ∀ ch c err, v'.background = .refreshing ch → v'.refreshGroup.flight = some c →
      ch ∈ c.chans →
      c.stage.stage = .returned err → Answered (noted ++ log) ch err)
    (hnoted : ∀ ch err, .refreshed ch err ∉ noted) : Inv v' (noted ++ log) where
  consistent := hconsistent
  began ch hch := by
    obtain ⟨hlt, hmem⟩ := h.began ch (hbackground ch hch)
    exact ⟨lt_of_lt_of_le hlt hmade, List.mem_append_right _ hmem⟩
  returned := hreturned
  sent ch err hch herr := by
    rw [hsent] at herr
    exact (h.sent ch err (hbackground ch hch) herr).append noted
  refreshed := h.refreshed.append hnoted

/-- A step that leaves the refresh group as it is. -/
theorem Inv.apart (h : Inv v log) (hgroup : v'.refreshGroup = v.refreshGroup)
    (hbackground : ∀ ch, v'.background = .refreshing ch → v.background = .refreshing ch)
    (hnoted : ∀ ch err, .refreshed ch err ∉ noted) : Inv v' (noted ++ log) := by
  apply h.keep
  · rw [hgroup]
    exact h.consistent
  · exact hbackground
  · rw [hgroup]
  · rw [hgroup]
  · intro ch c err hch hc hmem hstage
    rw [hgroup] at hc
    exact (h.returned ch c err (hbackground ch hch) hc hmem hstage).append noted
  · exact hnoted

/-- A step of the function in flight. -/
theorem Inv.moved (h : Inv v log) (stage : Stage)
    (hgroup : v'.refreshGroup = (v.advance stage).refreshGroup)
    (hbackground : v'.background = v.background)
    (hreturned : ∀ ch c err, v.background = .refreshing ch → v.refreshGroup.flight = some c →
      ch ∈ c.chans →
      stage = .returned err → Answered (noted ++ log) ch err)
    (hnoted : ∀ ch err, .refreshed ch err ∉ noted) : Inv v' (noted ++ log) := by
  apply h.keep
  · rw [hgroup]
    exact Group.Consistent.advance h.consistent (fun callback => { callback with stage := stage })
  · intro ch hch
    rw [← hbackground]
    exact hch
  · rw [hgroup]
    exact le_rfl
  · rw [hgroup]
    rfl
  · intro ch c err hch hc hmem hstage
    rw [hgroup] at hc
    obtain ⟨c', hc', rfl⟩ := Group.advance_cases hc
    rw [hbackground] at hch
    exact hreturned ch c' err hch hc' hmem hstage
  · exact hnoted

/-- A step within a fetch. -/
theorem Inv.setFetch (h : Inv v log) {w : Validator.Fetcher} {f f' : Fetch} {trigger : Trigger}
    (hfetch : v.fetch w = some (trigger, f)) (hgroup : v'.refreshGroup = v.refreshGroup)
    (hbackground : v'.background = v.background) (hnoted : ∀ ch err, .refreshed ch err ∉ noted) :
    Inv (v'.setFetch f' w) (noted ++ log) := by
  cases w with
  | background => exact h.apart hgroup (fun ch hch => (by cases hch)) hnoted
  | flight =>
    apply h.moved (.fetching f')
    · simp only [Validator.setFetch, Validator.advance, hgroup]
    · exact hbackground
    · intro ch c err _ _ _ hstage
      cases hstage
    · exact hnoted

/-- A call of `ValidateToken` that joins the call in flight, or begins one. -/
theorem Inv.join (h : Inv v log) (call : Nat) (l : Lookup K) :
    Inv ({ v with refreshGroup := v.refreshGroup.doChan { trigger := .unknownKID } }.setLookup call
      l) log := by
  rw [← List.nil_append log]
  apply h.keep
  · exact h.consistent.doChan _
  · exact fun _ hch => hch
  · exact Nat.le_succ _
  · rfl
  · intro ch c err hch hc hmem hstage
    obtain ⟨-, rfl⟩ | ⟨c', hc', hsame, hchans⟩ := Group.doChan_cases hc
    · cases hstage
    · obtain hold | hnew := (hchans ch).mp hmem
      · rw [hsame] at hstage
        exact (h.returned ch c' err hch hc' hold hstage).append []
      · exact absurd (h.began ch hch).1 (by omega)
  · exact fun _ _ => List.not_mem_nil

/-- A call of `refreshKeys` that joins no call whose function has returned. -/
theorem Inv.refreshKeys (h : Inv v log)
    (hlets : ∀ c err, v.refreshGroup.flight = some c → c.stage.stage ≠ .returned err) :
    Inv { v with
      refreshGroup := v.refreshGroup.doChan { trigger := .periodic }
      background := .refreshing v.refreshGroup.made }
        (.refreshBegan v.refreshGroup.made :: log) where
  consistent := h.consistent.doChan _
  began ch hch := by
    obtain rfl := Background.refreshing.inj hch
    exact ⟨Nat.lt_succ_self _, List.mem_cons_self⟩
  returned ch c err _ hc _ hstage := by
    obtain ⟨-, rfl⟩ | ⟨c', hc', hsame, -⟩ := Group.doChan_cases hc
    · cases hstage
    · rw [hsame] at hstage
      exact absurd hstage (hlets c' err hc')
  sent ch err hch herr := by
    obtain rfl := Background.refreshing.inj hch
    cases (h.consistent.unmade _ le_rfl).symm.trans herr
  refreshed := atEach_cons.mpr ⟨fun _ _ he => (by cases he), h.refreshed⟩

/-- A call of `refreshKeys` that returns what its channel was sent. -/
theorem Inv.receiveRefresh (h : Inv v log) {ch : Nat} {err : Option Err}
    (hbackground : v.background = .refreshing ch) (hsent : v.refreshGroup.sent ch = some err) :
    Inv { v with background := .idle } (.refreshed ch err :: log) where
  consistent := h.consistent
  began _ hch := by cases hch
  returned _ _ _ hch := by cases hch
  sent _ _ hch := by cases hch
  refreshed := by
    refine atEach_cons.mpr ⟨fun ch' err' he => ?_, h.refreshed⟩
    obtain ⟨rfl, rfl⟩ := Effect.refreshed.inj he
    exact h.sent ch err hbackground hsent

/-- The end of a call in flight: the background goroutine is sent what the function returned. -/
theorem Inv.doCall (h : Inv v log) {c : Flight Callback} {err : Option Err}
    (hflight : v.refreshGroup.flight = some c) (hreturned : c.stage.stage = .returned err) :
    Inv { v with refreshGroup := v.refreshGroup.doCall err } log where
  consistent := h.consistent.doCall hflight err
  began ch hch := by
    have hmade : (v.refreshGroup.doCall err).made = v.refreshGroup.made := Group.doCall_made
    rw [hmade]
    exact h.began ch hch
  returned _ c' _ _ hc' := by
    rw [Group.doCall_flight hflight] at hc'
    cases hc'
  sent ch err' hch herr := by
    rw [Group.doCall_sent hflight] at herr
    split_ifs at herr with hmem
    · obtain rfl := Option.some.inj herr
      exact h.returned ch c err hch hflight hmem hreturned
    · exact h.sent ch err' hch herr
  refreshed := h.refreshed

/-- A step of the function in flight to its fetch. -/
theorem Inv.callback (h : Inv v log) (hlets : lets v .callback = true)
    (hstep : v.callback = some (v', noted)) :
    Inv v' (noted ++ log) := by
  obtain ⟨c, hflight, hbegun, hcases⟩ := callback_inv hstep
  obtain ⟨hunknown, hsuppressed, rfl, rfl⟩ | ⟨-, -, rfl, rfl⟩ | ⟨-, rfl, rfl⟩ := hcases
  · apply h.moved (.returned (some .kidRefreshCooldown))
    · rfl
    · rfl
    · -- The refresh is suppressed, so the background goroutine does not wait for it.
      intro ch c' err hch hc' hmem _
      obtain rfl := Option.some.inj (hflight.symm.trans hc')
      obtain ⟨⟨trigger, stage⟩, chans⟩ := c
      obtain rfl : trigger = .unknownKID := hunknown
      obtain rfl : stage = .begun := hbegun
      simp only [lets, hflight, hsuppressed, Bool.true_and, Bool.not_eq_true', waitsOn, hch]
        at hlets
      have hcontains : chans.contains ch = true := List.contains_iff_mem.mpr hmem
      rw [hlets] at hcontains
      cases hcontains
    · exact fun _ _ => List.not_mem_nil
  · apply h.moved (.fetching .called)
    · rfl
    · rfl
    · intro ch c' err _ _ _ hstage
      cases hstage
    · simp
  · apply h.moved (.fetching .called)
    · rfl
    · rfl
    · intro ch c' err _ _ _ hstage
      cases hstage
    · simp

/-- The end of a fetch. -/
theorem Inv.settle (h : Inv v log) {w : Validator.Fetcher} (hstep : v.settle w = some (v', noted)) :
    Inv v' (noted ++ log) := by
  obtain ⟨trigger, err, hfetch, rfl, ⟨rfl, rfl⟩ | ⟨rfl, rfl⟩⟩ := settle_inv hstep
  · apply h.apart
    · rfl
    · intro ch hch
      split_ifs at hch
    · simp
  · apply h.moved (.returned err)
    · rfl
    · rfl
    · -- The calls that wait for the fetch began before it ended.
      intro ch c err' hch _ _ hstage
      obtain rfl := Stage.returned.inj hstage
      exact ⟨[], trigger, log, rfl, (h.began ch hch).2⟩
    · simp

private theorem Inv.step (h : Inv v log) {a : Action} (hlets : lets v a = true)
    (hstep : oidc.step parse v a = some (v', noted)) : Inv v' (noted ++ log) := by
  cases a with
  | tick | stop =>
    obtain ⟨rfl, rfl⟩ := Prod.mk.inj (Option.some.inj hstep)
    exact h.apart rfl (fun _ hch => hch) (by simp)
  | attempt =>
    obtain ⟨-, rfl, rfl⟩ := attempt_inv hstep
    exact h.apart rfl (fun _ hch => (by cases hch)) (by simp)
  | request w =>
    obtain ⟨trigger, hfetch, rfl, rfl⟩ := request_inv hstep
    exact h.setFetch hfetch rfl rfl (by simp)
  | respond w response =>
    obtain ⟨trigger, f, hfetch, ⟨err, -, rfl, rfl⟩ | ⟨keys, -, rfl, rfl⟩⟩ := respond_inv hstep
    · exact h.setFetch hfetch rfl rfl (by simp)
    · exact h.setFetch hfetch rfl rfl (by simp)
  | settle w => exact h.settle hstep
  | markReady =>
    obtain ⟨-, rfl, rfl⟩ := markReady_inv hstep
    exact h.apart rfl (fun _ hch => (by cases hch)) (by simp)
  | refreshKeys =>
    obtain ⟨-, rfl, rfl⟩ := refreshKeys_inv hstep
    apply h.refreshKeys
    intro c err hflight hreturned
    obtain ⟨⟨trigger, stage⟩, chans⟩ := c
    obtain rfl : stage = .returned err := hreturned
    simp only [lets, hflight] at hlets
    cases hlets
  | receiveRefresh =>
    obtain ⟨ch, err, hbackground, hsent, rfl, rfl⟩ := receiveRefresh_inv hstep
    exact h.receiveRefresh hbackground hsent
  | abandonRefresh =>
    obtain ⟨ch, -, rfl, rfl⟩ := abandonRefresh_inv hstep
    exact h.apart rfl (fun _ hch => (by cases hch)) (by simp)
  | halt =>
    obtain ⟨-, rfl, rfl⟩ := halt_inv hstep
    exact h.apart rfl (fun _ hch => (by cases hch)) (by simp)
  | callback => exact h.callback hlets hstep
  | doCall =>
    obtain ⟨c, err, hflight, hreturned, rfl, rfl⟩ := doCall_inv hstep
    exact h.doCall hflight hreturned
  | validateToken call kid =>
    obtain ⟨rfl, rfl⟩ := validateToken_inv hstep
    exact h.apart rfl (fun _ hch => hch) (by simp)
  | lookup call =>
    obtain ⟨kid, -, rfl, ⟨key, rfl⟩ | rfl⟩ := lookup_inv hstep
    · exact h.apart rfl (fun _ hch => hch) (by simp)
    · exact h.apart rfl (fun _ hch => hch) (by simp)
  | refreshForUnknownKID call =>
    obtain ⟨kid, -, rfl, rfl⟩ := refreshForUnknownKID_inv hstep
    exact h.join call _
  | receive call cancelled =>
    obtain ⟨kid, ch, -, rfl, rfl⟩ := receive_inv hstep
    exact h.apart rfl (fun _ hch => hch) (by simp)
  | lookupAgain call =>
    obtain ⟨kid, -, ⟨key, rfl, rfl⟩ | ⟨-, rfl, rfl⟩⟩ := lookupAgain_inv hstep
    · exact h.apart rfl (fun _ hch => hch) (by simp)
    · exact h.apart rfl (fun _ hch => hch) (by simp)
  | refuse call =>
    obtain ⟨kid, -, rfl, rfl⟩ := refuse_inv hstep
    exact h.apart rfl (fun _ hch => hch) (by simp)

end Steps

/-- In every run in which no periodic refresh joins a call whose function has returned,
and none waits for a refresh that is suppressed, every periodic refresh that is not
cancelled returns the result of a fetch that finished after the refresh began. -/
theorem refreshes_fetch {parse : Jwk → Option K} {now : Int} {v : Validator K}
    {log : List (Effect K)}
    (h : Run (guarded (step parse) lets) { now := now } v log) : Refreshes log := by
  have hinv : Inv v log := by
    refine h.invariant (Inv.init now) ?_
    intro v log a v' noted hinv hstep
    obtain ⟨hlets, hstep⟩ := guarded_inv hstep
    exact hinv.step hlets hstep
  exact hinv.refreshed

section Concrete

/-- A provider's one key, which is its modulus here. -/
def providerKey : Jwk := { kty := "RSA", kid := "current", n := "AQAB", e := "AQAB" }

def modulus (k : Jwk) : Option GoString := some k.n

/-- The initial fetch, up to a validator that is ready. -/
def becomesReady : List Action :=
  [.attempt, .request .background, .respond .background (.ok [providerKey]), .settle .background,
    .markReady]

/-- A fetch of the function in flight, up to the end of the call. -/
def fetches : List Action :=
  [.callback, .request .flight, .respond .flight (.ok [providerKey]), .settle .flight, .doCall]

/-- A call of `ValidateToken` for a key the provider does not have, up to its refresh. -/
def forgedToken (call : Nat) : List Action :=
  [.validateToken call "forged", .lookup call, .refreshForUnknownKID call]

/-- A periodic refresh that joins the refresh for a forged token within the cooldown. -/
def joined : List Action :=
  becomesReady ++ forgedToken 0 ++ fetches ++ forgedToken 1 ++
    [.refreshKeys, .callback, .doCall, .receiveRefresh]

/-- The periodic refresh returns the cooldown's error, and nothing was fetched for it. -/
theorem forged_token_suppresses_refresh : ∃ (v : Validator GoString) (log : List (Effect GoString)),
    Run (step modulus) { now := 1 } v log ∧ ¬Refreshes log := by
  refine ⟨_, _, @Run.take _ _ _ _ _ _ _ joined _ _ .start rfl, fun hrefreshes => ?_⟩
  obtain ⟨later, trigger, earlier, hlog, -⟩ := hrefreshes [] _ _ rfl _ _ rfl
  have hmem : Effect.finished trigger (some .kidRefreshCooldown) ∈
      later ++ .finished trigger (some .kidRefreshCooldown) :: earlier :=
    List.mem_append_right _ List.mem_cons_self
  rw [← hlog] at hmem
  simp at hmem

/-- A periodic refresh that joins the fetch for a forged token, and one of its own after
another forged token within the cooldown. -/
def shared : List Action :=
  becomesReady ++ forgedToken 0 ++ [.refreshKeys] ++ fetches ++ [.receiveRefresh] ++
    forgedToken 1 ++ [.callback, .doCall] ++ [.refreshKeys] ++ fetches ++ [.receiveRefresh]

/-- What it notes. -/
def sharedLog : List (Effect GoString) :=
  [.refreshed 3 none, .finished .periodic none, .stored [("current", "AQAB")], .started .periodic 1,
    .refreshBegan 3,
    .refreshed 1 none, .finished .unknownKID none, .stored [("current", "AQAB")],
      .started .unknownKID 1, .admitted 1,
    .refreshBegan 1, .becameReady, .finished .initial none, .stored [("current", "AQAB")],
      .started .initial 1]

/-- Both return the results of fetches. -/
theorem shared_refreshes_fetch : ∃ (v : Validator GoString) (log : List (Effect GoString)),
    Run (guarded (step modulus) lets) { now := 1 } v log ∧ .refreshed 1 none ∈ log ∧
    .refreshed 3 none ∈ log ∧
      Refreshes log := by
  have hrun : ∃ v : Validator GoString,
      Run (guarded (step modulus) lets) { now := 1 } v sharedLog :=
    ⟨_, @Run.take _ _ _ _ _ _ _ shared _ _ .start rfl⟩
  obtain ⟨v, hrun⟩ := hrun
  exact ⟨v, sharedLog, hrun, by simp [sharedLog], by simp [sharedLog], refreshes_fetch hrun⟩

end Concrete

end oidc.refreshes
