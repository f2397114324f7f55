import ServingPack.Oidc.Validation

open golang concurrency

namespace oidc.Gate

/-- What a step of the validator does to a lookup. -/
inductive Looked (v : Validator PublicKey) : Lookup PublicKey → Lookup PublicKey → Prop where
  | same {l : Lookup PublicKey} : Looked v l l
  | found {kid : GoString} {key : PublicKey} {l : Lookup PublicKey} (hlooks : l = .begun kid ∨
    l = .refreshed kid)
      (hkey : v.publicKeys.get kid = some key) : Looked v l (.found kid key)
  | missing {kid : GoString} : Looked v (.begun kid) (.missing kid)
  | refreshing {kid : GoString} {ch : Nat} : Looked v (.missing kid) (.refreshing kid ch)
  | refreshed {kid : GoString} {ch : Nat} : Looked v (.refreshing kid ch) (.refreshed kid)
  | absent {kid : GoString} (hnone : v.publicKeys.get kid = none) :
    Looked v (.refreshed kid) (.absent kid)
  | refused {kid : GoString} : Looked v (.absent kid) (.refused kid v.fetchFailed)

/-- What a step of the validator does, with what there is to note of it. -/
structure Moved (v v' : Validator PublicKey) (notes : List Note) : Prop where
  clock : v.now ≤ v'.now
  keys : v'.publicKeys = (lastSet notes).elim v.publicKeys
    (fun set => set.foldl (addKey parseRSAPublicKey) [])
  fetchFailed : v'.fetchFailed = (lastFetch notes).getD v.fetchFailed
  ready : v'.ready = true ↔ v.ready = true ∨ .ready ∈ notes
  lookups : ∀ i, Looked v (v.lookups i) (v'.lookups i)
  arrivals : ∀ i header time, .arrived i header time ∉ notes

section Steps

variable {v v' : Validator PublicKey} {effects : List (Effect PublicKey)} {call : Nat}
  {l : Lookup PublicKey}

/-- A step that leaves the keys and what is known of them. -/
theorem Moved.quiet (hclock : v.now ≤ v'.now) (hkeys : v'.publicKeys = v.publicKeys)
    (hfetch : v'.fetchFailed = v.fetchFailed) (hready : v'.ready = v.ready)
    (hlookups : ∀ i, Looked v (v.lookups i) (v'.lookups i)) : Moved v v' [] where
  clock := hclock
  keys := hkeys
  fetchFailed := hfetch
  ready := by simp [hready]
  lookups := hlookups
  arrivals := by simp

/-- A step of one lookup. -/
theorem Moved.setLookup (hlooked : Looked v (v.lookups call) l) :
    Moved v (v.setLookup call l) [] := by
  apply Moved.quiet
  · exact le_rfl
  · rfl
  · rfl
  · rfl
  · intro i
    by_cases hi : i = call
    · rw [hi, Validator.lookups_setLookup]
      exact hlooked
    · rw [Validator.lookups_setLookup_ne hi]
      exact .same

private theorem looked_of_lookup (h : v.lookup call = some (v', effects)) :
    effects = [] ∧ Moved v v' [] := by
  rw [Validator.lookup] at h
  split at h
  · next kid hbegun =>
    split at h
    · next key hkey =>
      obtain ⟨rfl, rfl⟩ := Prod.mk.inj (Option.some.inj h)
      exact ⟨rfl, .setLookup (.found (.inl hbegun) hkey)⟩
    · obtain ⟨rfl, rfl⟩ := Prod.mk.inj (Option.some.inj h)
      refine ⟨rfl, .setLookup ?_⟩
      rw [hbegun]
      exact .missing
  · cases h

private theorem looked_of_lookupAgain (h : v.lookupAgain call = some (v', effects)) :
    (∀ a, effects.filterMap (Note.of a) = []) ∧ Moved v v' [] := by
  rw [Validator.lookupAgain] at h
  split at h
  · next kid hrefreshed =>
    split at h
    · next key hkey =>
      obtain ⟨rfl, rfl⟩ := Prod.mk.inj (Option.some.inj h)
      exact ⟨fun _ => rfl, .setLookup (.found (.inr hrefreshed) hkey)⟩
    · next hnone =>
      obtain ⟨rfl, rfl⟩ := Prod.mk.inj (Option.some.inj h)
      refine ⟨?_, .setLookup ?_⟩
      · intro a
        simp [Note.of]
      · rw [hrefreshed]
        exact .absent hnone
  · cases h

/-- A fetch moves on. -/
theorem Moved.setFetch (w : Validator.Fetcher) (f : Fetch) : Moved v (v.setFetch f w) [] := by
  cases w with
  | background => exact .quiet le_rfl rfl rfl rfl (fun _ => .same)
  | flight => exact .quiet le_rfl rfl rfl rfl (fun _ => .same)

private theorem moved_of_respond {w : Validator.Fetcher} {response : Except GoString (List Jwk)}
    (h : v.respond parseRSAPublicKey w response = some (v', effects)) :
    Moved v v' (effects.filterMap (Note.of (.respond w response))) := by
  obtain ⟨trigger, f, hfetch, ⟨err, herr, rfl, rfl⟩ | ⟨keys, hkeys, rfl, rfl⟩⟩ := respond_inv h
  · exact .setFetch w _
  cases response with
  | error text => cases hkeys
  | ok set =>
    have hset : keys = set.foldl (addKey parseRSAPublicKey) [] := by
      rw [keysOf] at hkeys
      split_ifs at hkeys
      exact (Except.ok.inj hkeys).symm
    have hnotes : [Effect.stored keys].filterMap (Note.of (.respond w (.ok set))) = [.stored set] :=
      rfl
    rw [hnotes]
    cases w with
    | background =>
      refine ⟨le_rfl, hset, rfl, ?_, fun _ => .same, by simp⟩
      simp [Validator.setFetch]
    | flight =>
      refine ⟨le_rfl, hset, rfl, ?_, fun _ => .same, by simp⟩
      simp [Validator.setFetch, Validator.advance]

private theorem moved_of_settle {w : Validator.Fetcher} (h : v.settle w = some (v', effects)) :
    Moved v v' (effects.filterMap (Note.of (.settle w))) := by
  obtain ⟨trigger, err, hfetch, rfl, ⟨-, rfl⟩ | ⟨-, rfl⟩⟩ := settle_inv h
  · have hnotes : [Effect.finished trigger err].filterMap (Note.of (.settle w)) =
      [.fetched err.isSome] := rfl
    rw [hnotes]
    exact ⟨le_rfl, rfl, rfl, by simp, fun _ => .same, by simp⟩
  · have hnotes : [Effect.finished trigger err].filterMap (Note.of (.settle w)) =
      [.fetched err.isSome] := rfl
    rw [hnotes]
    refine ⟨le_rfl, rfl, rfl, ?_, fun _ => .same, by simp⟩
    simp [Validator.advance]

private theorem moved_of_callback (h : v.callback = some (v', effects)) :
    (∀ a, effects.filterMap (Note.of a) = []) ∧ Moved v v' [] := by
  obtain ⟨c, -, -, ⟨-, -, rfl, rfl⟩ | ⟨-, -, rfl, rfl⟩ | ⟨-, rfl, rfl⟩⟩ := callback_inv h
  · exact ⟨fun _ => rfl, .quiet le_rfl rfl rfl rfl (fun _ => .same)⟩
  · refine ⟨?_, .quiet le_rfl rfl rfl rfl (fun _ => .same)⟩
    intro a
    simp [Note.of]
  · exact ⟨fun _ => rfl, .quiet le_rfl rfl rfl rfl (fun _ => .same)⟩

/-- Every step but the begin of a call. -/
theorem moved_of_step {a : Action} (h : oidc.step parseRSAPublicKey v a = some (v', effects))
    (hbegins : a.begins = false) :
    Moved v v' (effects.filterMap (Note.of a)) := by
  cases a with
  | tick nanoseconds =>
    obtain ⟨rfl, rfl⟩ := Prod.mk.inj (Option.some.inj h)
    exact .quiet (by simp) rfl rfl rfl (fun _ => .same)
  | stop =>
    obtain ⟨rfl, rfl⟩ := Prod.mk.inj (Option.some.inj h)
    exact .quiet le_rfl rfl rfl rfl (fun _ => .same)
  | attempt =>
    obtain ⟨-, rfl, rfl⟩ := attempt_inv h
    exact .quiet le_rfl rfl rfl rfl (fun _ => .same)
  | request w =>
    obtain ⟨trigger, -, rfl, rfl⟩ := request_inv h
    exact .setFetch w _
  | respond w response => exact moved_of_respond h
  | settle w => exact moved_of_settle h
  | markReady =>
    obtain ⟨-, rfl, rfl⟩ := markReady_inv h
    have hnotes : [(.becameReady : Effect PublicKey)].filterMap (Note.of .markReady) =
      [Note.ready] := rfl
    rw [hnotes]
    exact ⟨le_rfl, rfl, rfl, by simp, fun _ => .same, by simp⟩
  | refreshKeys =>
    obtain ⟨-, rfl, rfl⟩ := refreshKeys_inv h
    exact .quiet le_rfl rfl rfl rfl (fun _ => .same)
  | receiveRefresh =>
    obtain ⟨ch, err, -, -, rfl, rfl⟩ := receiveRefresh_inv h
    exact .quiet le_rfl rfl rfl rfl (fun _ => .same)
  | abandonRefresh =>
    obtain ⟨ch, -, rfl, rfl⟩ := abandonRefresh_inv h
    exact .quiet le_rfl rfl rfl rfl (fun _ => .same)
  | halt =>
    obtain ⟨-, rfl, rfl⟩ := halt_inv h
    exact .quiet le_rfl rfl rfl rfl (fun _ => .same)
  | callback =>
    obtain ⟨hnotes, hmoved⟩ := moved_of_callback h
    rw [hnotes]
    exact hmoved
  | doCall =>
    obtain ⟨c, err, -, -, rfl, rfl⟩ := doCall_inv h
    exact .quiet le_rfl rfl rfl rfl (fun _ => .same)
  | validateToken call kid => cases hbegins
  | lookup call =>
    obtain ⟨rfl, hmoved⟩ := looked_of_lookup h
    exact hmoved
  | refreshForUnknownKID call =>
    obtain ⟨kid, hmissing, rfl, rfl⟩ := refreshForUnknownKID_inv h
    apply Moved.quiet
    · exact le_rfl
    · rfl
    · rfl
    · rfl
    · refine (Moved.setLookup ?_).lookups
      rw [hmissing]
      exact .refreshing
  | receive call cancelled =>
    obtain ⟨kid, ch, hrefreshing, rfl, rfl⟩ := receive_inv h
    refine .setLookup ?_
    rw [hrefreshing]
    exact .refreshed
  | lookupAgain call =>
    obtain ⟨hnotes, hmoved⟩ := looked_of_lookupAgain h
    rw [hnotes]
    exact hmoved
  | refuse call =>
    obtain ⟨kid, habsent, rfl, rfl⟩ := refuse_inv h
    refine .setLookup ?_
    rw [habsent]
    exact .refused

end Steps

section Logs

variable {log notes : List Note} {arrival : Note} {P : List Note → Prop}

private theorem lastSet_append (notes log : List Note) :
    lastSet (notes ++ log) = (lastSet notes).or (lastSet log) := by
  induction notes with
  | nil => rfl
  | cons note rest ih =>
    cases note with
    | stored set => rfl
    | arrived i header time => exact ih
    | fetched failed => exact ih
    | ready => exact ih

private theorem lastFetch_append (notes log : List Note) :
    lastFetch (notes ++ log) = (lastFetch notes).or (lastFetch log) := by
  induction notes with
  | nil => rfl
  | cons note rest ih =>
    cases note with
    | fetched failed => rfl
    | arrived i header time => exact ih
    | stored set => exact ih
    | ready => exact ih

private theorem Since.append (h : Since log arrival P) (notes : List Note) :
    Since (notes ++ log) arrival P := by
  obtain ⟨later, earlier, rfl, harrived, hP⟩ := h
  exact ⟨notes ++ later, earlier, (List.append_assoc ..).symm, harrived, hP⟩

/-- What holds now holds at a moment since a request that has arrived. -/
theorem Since.now (harrived : arrival ∈ log) (hP : P log) : Since log arrival P :=
  ⟨[], log, rfl, harrived, hP⟩

end Logs

section Invariant

variable {U R : Type} (jwt : Jwt) (x : Expected) (mw : Middleware U R)

/-- What the lookup of a key knows of it. -/
def Knows (log : List Note) (arrival : Note) (kid : GoString) : Lookup PublicKey → Prop
  | .idle => False
  | .notReady => False
  | .begun kid' => kid' = kid
  | .missing kid' => kid' = kid
  | .refreshing kid' _ => kid' = kid
  | .refreshed kid' => kid' = kid
  | .absent kid' => kid' = kid ∧ Since log arrival (Lacks kid)
  | .found kid' key => kid' = kid ∧ Since log arrival (Serves kid key)
  | .refused kid' unavailable => kid' = kid ∧ Since log arrival (Lacks kid) ∧
      Since log arrival (fun earlier => (lastFetch earlier).getD false = unavailable)

/-- A request whose token is being checked. -/
structure Checking (g : Gate U R) (log : List Note) (i : Nat) (raw : GoString) (claims : Claims)
    (header : GoString) (began : Int) (token : Token) (kid : GoString) : Prop where
  arrived : .arrived i header began ∈ log
  enter : mw.enter header = .validate raw
  parsed : jwt.parse raw = .ok token
  claims : token.claims = claims
  keyID : keyID token = .ok kid
  knows : Knows log (.arrived i header began) kid (g.validator.lookups i)

/-- What every step keeps. -/
structure Inv (g : Gate U R) (log : List Note) : Prop where
  keys : g.validator.publicKeys = ((lastSet log).getD []).foldl (addKey parseRSAPublicKey) []
  fetchFailed : g.validator.fetchFailed = (lastFetch log).getD false
  ready : g.validator.ready = true ↔ .ready ∈ log
  clock : ∀ i header time, .arrived i header time ∈ log → time ≤ g.validator.now
  looking : ∀ i raw claims, g.passages i = .looking raw claims →
    ∃ header began token kid, Checking jwt mw g log i raw claims header began token kid
  ended : ∀ i result, g.passages i = .ended result → ∃ header began, .arrived i header began ∈ log ∧
    Outcome jwt x mw log g.validator.now i header began result

variable {jwt x mw} {g g' : Gate U R} {log notes : List Note} {i : Nat} {arrival : Note}
  {kid : GoString}

private theorem Inv.init (now : Int) :
    Inv jwt x mw ({ validator := { now := now } } : Gate U R) [] where
  keys := rfl
  fetchFailed := rfl
  ready := by simp
  clock := by simp
  looking i raw claims h := by cases h
  ended i result h := by cases h

private theorem serves_of_get (h : Inv jwt x mw g log) {key : PublicKey}
    (hkey : g.validator.publicKeys.get kid = some key) :
    Serves kid key log := by
  rw [h.keys] at hkey
  cases hset : lastSet log with
  | none =>
    rw [hset] at hkey
    cases hkey
  | some set =>
    rw [hset, Option.getD_some] at hkey
    obtain ⟨-, hget⟩ | ⟨entry, hlast, hget⟩ := publickeys.get_addKeys parseRSAPublicKey kid set []
    · rw [hget] at hkey
      cases hkey
    · exact ⟨set, entry, hset, hlast, hget.symm.trans hkey⟩

private theorem lacks_of_get (h : Inv jwt x mw g log)
    (hnone : g.validator.publicKeys.get kid = none) : Lacks kid log := by
  intro set hset
  rw [h.keys, hset, Option.getD_some] at hnone
  obtain ⟨hall, -⟩ | ⟨entry, hlast, hget⟩ := publickeys.get_addKeys parseRSAPublicKey kid set []
  · exact hall
  · have hgives := hlast.holds.2.2
    rw [← hget, hnone] at hgives
    cases hgives

private theorem Knows.append {l : Lookup PublicKey} (h : Knows log arrival kid l)
    (notes : List Note) :
    Knows (notes ++ log) arrival kid l := by
  cases l with
  | idle => exact h
  | notReady => exact h
  | begun kid' => exact h
  | missing kid' => exact h
  | refreshing kid' ch => exact h
  | refreshed kid' => exact h
  | absent kid' => exact ⟨h.1, h.2.append notes⟩
  | found kid' key => exact ⟨h.1, h.2.append notes⟩
  | refused kid' unavailable => exact ⟨h.1, h.2.1.append notes, h.2.2.append notes⟩

/-- A lookup knows what it has just seen. -/
theorem Knows.looked (h : Inv jwt x mw g log) (harrived : arrival ∈ log) {l l' : Lookup PublicKey}
    (hknows : Knows log arrival kid l) (hlooked : Looked g.validator l l') :
    Knows log arrival kid l' := by
  cases hlooked with
  | same => exact hknows
  | found hlooks hkey =>
    obtain rfl | rfl := hlooks
    · obtain rfl := hknows
      exact ⟨rfl, .now harrived (serves_of_get h hkey)⟩
    · obtain rfl := hknows
      exact ⟨rfl, .now harrived (serves_of_get h hkey)⟩
  | missing => exact hknows
  | refreshing => exact hknows
  | refreshed => exact hknows
  | absent hnone =>
    obtain rfl := hknows
    exact ⟨rfl, .now harrived (lacks_of_get h hnone)⟩
  | refused => exact ⟨hknows.1, hknows.2, .now harrived h.fetchFailed.symm⟩

private theorem Accounted.append {now now' began : Int} {header raw : GoString}
    {result : Except TokenError Claims}
    (h : Accounted jwt x log now i header began raw result) (notes : List Note)
    (hnow : now ≤ now') :
    Accounted jwt x (notes ++ log) now' i header began raw result := by
  cases h with
  | notReady hlog hready =>
    rw [hlog, ← List.append_assoc]
    exact .notReady rfl hready
  | unreadable hparse => exact .unreadable hparse
  | unusable hparse hkeyID => exact .unusable hparse hkeyID
  | unknown hparse hkeyID hlacks hfetch =>
    exact .unknown hparse hkeyID (hlacks.append notes) (hfetch.append notes)
  | checked hparse hkeyID hserves hbegan hle =>
    exact .checked hparse hkeyID (hserves.append notes) hbegan (hle.trans hnow)

private theorem Outcome.append {now now' began : Int} {header : GoString} {result : Except R U}
    (h : Outcome jwt x mw log now i header began result) (notes : List Note) (hnow : now ≤ now') :
    Outcome jwt x mw (notes ++ log) now' i header began result := by
  cases h with
  | admitted henter => exact .admitted henter
  | refused henter => exact .refused henter
  | validated henter haccounted => exact .validated henter (haccounted.append notes hnow)

private theorem Inv.moved (h : Inv jwt x mw g log) {v' : Validator PublicKey}
    (hmoved : Moved g.validator v' notes) :
    Inv jwt x mw { g with validator := v' } (notes ++ log) where
  keys := by
    rw [hmoved.keys, lastSet_append]
    cases lastSet notes with
    | none => exact h.keys
    | some set => rfl
  fetchFailed := by
    rw [hmoved.fetchFailed, lastFetch_append]
    cases lastFetch notes with
    | none => exact h.fetchFailed
    | some failed => rfl
  ready := by
    rw [hmoved.ready, h.ready, List.mem_append, or_comm]
  clock := by
    intro i header time harrived
    obtain hnew | hold := List.mem_append.mp harrived
    · exact absurd hnew (hmoved.arrivals i header time)
    · exact (h.clock i header time hold).trans hmoved.clock
  looking := by
    intro i raw claims hlooking
    obtain ⟨header, began, token, kid, hchecking⟩ := h.looking i raw claims hlooking
    refine ⟨header, began, token, kid, ?_, hchecking.enter, hchecking.parsed, hchecking.claims,
      hchecking.keyID, ?_⟩
    · exact List.mem_append_right _ hchecking.arrived
    · exact (hchecking.knows.looked h hchecking.arrived (hmoved.lookups i)).append notes
  ended := by
    intro i result hended
    obtain ⟨header, began, harrived, houtcome⟩ := h.ended i result hended
    exact ⟨header, began, List.mem_append_right _ harrived, houtcome.append notes hmoved.clock⟩

/-- A request arrives, or its check ends, and the others stay as they are. -/
theorem Inv.setPassage (h : Inv jwt x mw g log) (i : Nat) (note : Option Note) (p : Passage U R)
    (l : Lookup PublicKey)
    (hnote : ∀ note' ∈ note, ∃ header, note' = .arrived i header g.validator.now)
    (hlooking : ∀ raw claims, p = .looking raw claims → ∃ header began token kid,
      .arrived i header began ∈ note.toList ++ log ∧ mw.enter header = .validate raw ∧
      jwt.parse raw = .ok token ∧
        token.claims = claims ∧ keyID token = .ok kid ∧
        Knows (note.toList ++ log) (.arrived i header began) kid l)
    (hended : ∀ result, p = .ended result →
      ∃ header began, .arrived i header began ∈ note.toList ++ log ∧
      Outcome jwt x mw (note.toList ++ log) g.validator.now i header began result) :
    Inv jwt x mw ({ g with validator := g.validator.setLookup i l }.setPassage i p)
      (note.toList ++ log) := by
  have harrivals : ∀ note' ∈ note.toList, ∃ header, note' = .arrived i header g.validator.now := by
    intro note' hmem
    exact hnote note' (Option.mem_toList.mp hmem)
  have hset : lastSet (note.toList ++ log) = lastSet log := by
    cases note with
    | none => rfl
    | some note' =>
      obtain ⟨header, rfl⟩ := hnote note' rfl
      rfl
  have hfetch : lastFetch (note.toList ++ log) = lastFetch log := by
    cases note with
    | none => rfl
    | some note' =>
      obtain ⟨header, rfl⟩ := hnote note' rfl
      rfl
  refine ⟨?_, ?_, ?_, ?_, ?_, ?_⟩
  · rw [hset]
    exact h.keys
  · rw [hfetch]
    exact h.fetchFailed
  · rw [List.mem_append]
    refine h.ready.trans ⟨.inr, fun hready => hready.resolve_left (fun hnew => ?_)⟩
    obtain ⟨header, heq⟩ := harrivals _ hnew
    cases heq
  · intro j header time harrived
    obtain hnew | hold := List.mem_append.mp harrived
    · obtain ⟨header', heq⟩ := harrivals _ hnew
      obtain ⟨-, -, rfl⟩ := Note.arrived.inj heq
      exact le_rfl
    · exact h.clock j header time hold
  · intro j raw claims hj
    by_cases hji : j = i
    · subst j
      obtain rfl : p = .looking raw claims := by simpa [Gate.setPassage] using hj
      obtain ⟨header, began, token, kid, harrived, henter, hparse, hclaims, hkeyID, hknows⟩ :=
        hlooking raw claims rfl
      refine ⟨header, began, token, kid, harrived, henter, hparse, hclaims, hkeyID, ?_⟩
      simpa [Gate.setPassage] using hknows
    · have hold : g.passages j = .looking raw claims := by
        simpa [Gate.setPassage, Function.update_of_ne hji] using hj
      obtain ⟨header, began, token, kid, hchecking⟩ := h.looking j raw claims hold
      refine ⟨header, began, token, kid, ?_, hchecking.enter, hchecking.parsed, hchecking.claims,
        hchecking.keyID, ?_⟩
      · exact List.mem_append_right _ hchecking.arrived
      · have hsame : (g.validator.setLookup i l).lookups j = g.validator.lookups j :=
          Validator.lookups_setLookup_ne hji
        simp only [Gate.setPassage, hsame]
        exact hchecking.knows.append _
  · intro j result hj
    by_cases hji : j = i
    · subst j
      obtain rfl : p = .ended result := by simpa [Gate.setPassage] using hj
      exact hended result rfl
    · have hold : g.passages j = .ended result := by
        simpa [Gate.setPassage, Function.update_of_ne hji] using hj
      obtain ⟨header, began, harrived, houtcome⟩ := h.ended j result hold
      exact ⟨header, began, List.mem_append_right _ harrived, houtcome.append _ le_rfl⟩

private theorem setLookup_self (g : Gate U R) (i : Nat) :
    { g with validator := g.validator.setLookup i (g.validator.lookups i) } = g := by
  rw [Validator.setLookup, Function.update_eq_self]

/-- A request arrives whose check ends with it. -/
theorem Inv.turned (h : Inv jwt x mw g log) {header : GoString} {result : Except R U}
    (houtcome : Outcome jwt x mw (.arrived i header g.validator.now :: log) g.validator.now i header
      g.validator.now result) :
    Inv jwt x mw (g.setPassage i (.ended result)) (.arrived i header g.validator.now :: log) := by
  rw [← setLookup_self g i]
  refine h.setPassage i (some (.arrived i header g.validator.now)) (.ended result) _ (by simp)
    (by simp) ?_
  intro result' heq
  obtain rfl := Passage.ended.inj heq
  exact ⟨header, g.validator.now, List.mem_cons_self, houtcome⟩

/-- What `ValidateToken` refuses without a lookup. -/
theorem accounted_of_begin (h : Inv jwt x mw g log) {header raw : GoString} {e : TokenError}
    (hbegin : beginValidation jwt g.validator.ready raw = .error e) :
    Accounted jwt x (.arrived i header g.validator.now :: log) g.validator.now i header
      g.validator.now raw (.error e) := by
  rw [beginValidation] at hbegin
  split_ifs at hbegin with hready
  · cases hparse : jwt.parse raw with
    | error text =>
      rw [hparse] at hbegin
      obtain rfl := Except.error.inj hbegin
      exact .unreadable hparse
    | ok token =>
      rw [hparse] at hbegin
      cases hkeyID : keyID token with
      | error text =>
        simp only [hkeyID] at hbegin
        obtain rfl := Except.error.inj hbegin
        exact .unusable hparse hkeyID
      | ok kid =>
        simp only [hkeyID] at hbegin
        cases hbegin
  · obtain rfl := Except.error.inj hbegin
    refine .notReady (List.nil_append _).symm ?_
    rw [← h.ready]
    exact hready

/-- A token whose key is looked up. -/
theorem begins_of_begin {ready : Bool} {raw : GoString} {token : Token}
    (hbegin : beginValidation jwt ready raw = .ok (token, kid)) :
    ready = true ∧ jwt.parse raw = .ok token ∧ keyID token = .ok kid := by
  rw [beginValidation] at hbegin
  split_ifs at hbegin with hready
  cases hparse : jwt.parse raw with
  | error text =>
    rw [hparse] at hbegin
    cases hbegin
  | ok token' =>
    rw [hparse] at hbegin
    cases hkeyID : keyID token' with
    | error text =>
      simp only [hkeyID] at hbegin
      cases hbegin
    | ok kid' =>
      simp only [hkeyID] at hbegin
      obtain ⟨rfl, rfl⟩ := Prod.mk.inj (Except.ok.inj hbegin)
      exact ⟨hready, rfl, hkeyID⟩

private theorem Inv.arrive (h : Inv jwt x mw g log) {header : GoString}
    (hstep : g.arrive jwt mw i header = some (g', notes)) :
    Inv jwt x mw g' (notes ++ log) := by
  rw [Gate.arrive] at hstep
  split at hstep
  swap
  · cases hstep
  cases henter : mw.enter header with
  | admitted user =>
    simp only [henter] at hstep
    obtain ⟨rfl, rfl⟩ := Prod.mk.inj (Option.some.inj hstep)
    exact h.turned (.admitted henter)
  | refused response =>
    simp only [henter] at hstep
    obtain ⟨rfl, rfl⟩ := Prod.mk.inj (Option.some.inj hstep)
    exact h.turned (.refused henter)
  | validate raw =>
    simp only [henter] at hstep
    cases hbegin : beginValidation jwt g.validator.ready raw with
    | error e =>
      simp only [hbegin] at hstep
      obtain ⟨rfl, rfl⟩ := Prod.mk.inj (Option.some.inj hstep)
      exact h.turned (.validated henter (accounted_of_begin h hbegin))
    | ok found =>
      obtain ⟨token, kid⟩ := found
      obtain ⟨hready, hparse, hkeyID⟩ := begins_of_begin hbegin
      simp only [hbegin] at hstep
      obtain ⟨⟨v', effects⟩, hvalidate, heq⟩ := Option.map_eq_some_iff.mp hstep
      obtain ⟨rfl, rfl⟩ := Prod.mk.inj heq
      obtain ⟨rfl, -⟩ := validateToken_inv hvalidate
      rw [if_pos hready]
      refine h.setPassage i (some (.arrived i header g.validator.now)) _ (.begun kid) (by simp) ?_
        (by simp)
      intro raw' claims heq
      obtain ⟨rfl, rfl⟩ := Passage.looking.inj heq
      exact ⟨header, g.validator.now, token, kid, List.mem_cons_self, henter, hparse, rfl, hkeyID,
        rfl⟩

private theorem Inv.conclude (h : Inv jwt x mw g log)
    (hstep : g.conclude jwt x mw i = some (g', notes)) :
    Inv jwt x mw g' (notes ++ log) := by
  rw [Gate.conclude] at hstep
  split at hstep
  swap
  · cases hstep
  next raw claims hlooking =>
    obtain ⟨result, hend, heq⟩ := Option.map_eq_some_iff.mp hstep
    obtain ⟨rfl, rfl⟩ := Prod.mk.inj heq
    obtain ⟨header, began, token, kid, hchecking⟩ := h.looking i raw claims hlooking
    have haccounted : Accounted jwt x log g.validator.now i header began raw result := by
      have hknows := hchecking.knows
      unfold endValidation at hend
      split at hend
      · next kid' key hfound =>
        obtain rfl := Option.some.inj hend
        rw [hfound] at hknows
        rw [← hchecking.claims]
        exact .checked hchecking.parsed hchecking.keyID hknows.2
          (h.clock i header began hchecking.arrived) le_rfl
      · next kid' unavailable hrefused =>
        obtain rfl := Option.some.inj hend
        rw [hrefused] at hknows
        obtain ⟨rfl, hlacks, hfetch⟩ := hknows
        exact .unknown hchecking.parsed hchecking.keyID hlacks hfetch
      · cases hend
    rw [← setLookup_self g i]
    refine h.setPassage i none (.ended (mw.leave result)) _ (by simp) (by simp) ?_
    intro result' heq
    obtain rfl := Passage.ended.inj heq
    exact ⟨header, began, hchecking.arrived, .validated hchecking.enter haccounted⟩

private theorem Inv.step (h : Inv jwt x mw g log) {a : Act}
    (hstep : g.step jwt x mw a = some (g', notes)) :
    Inv jwt x mw g' (notes ++ log) := by
  cases a with
  | validator a =>
    rw [Gate.step] at hstep
    split_ifs at hstep with hbegins
    obtain ⟨⟨v', effects⟩, hvalidator, heq⟩ := Option.map_eq_some_iff.mp hstep
    obtain ⟨rfl, rfl⟩ := Prod.mk.inj heq
    exact h.moved (moved_of_step hvalidator (Bool.eq_false_iff.mpr hbegins))
  | arrive i header => exact h.arrive hstep
  | conclude i => exact h.conclude hstep

/-- What a request has ended with is final. -/
theorem ended_of_step {result : Except R U} {a : Act} (hstep : g.step jwt x mw a = some (g', notes))
    (hended : g.passages i = .ended result) : g'.passages i = .ended result := by
  have hother {j : Nat} {v : Validator PublicKey} {p : Passage U R}
    (hj : g.passages j ≠ .ended result) :
      ({ g with validator := v }.setPassage j p).passages i = .ended result := by
    have hij : i ≠ j := by
      intro heq
      rw [← heq] at hj
      exact hj hended
    simp only [Gate.setPassage, Function.update_of_ne hij]
    exact hended
  cases a with
  | validator a =>
    rw [Gate.step] at hstep
    split_ifs at hstep with hbegins
    obtain ⟨⟨v', effects⟩, -, heq⟩ := Option.map_eq_some_iff.mp hstep
    obtain ⟨rfl, rfl⟩ := Prod.mk.inj heq
    exact hended
  | arrive j header =>
    rw [Gate.step, Gate.arrive] at hstep
    cases hpassage : g.passages j with
    | looking raw claims => simp [hpassage] at hstep
    | ended result' => simp [hpassage] at hstep
    | idle =>
      have hj : g.passages j ≠ .ended result := by simp [hpassage]
      simp only [hpassage] at hstep
      split at hstep
      · obtain ⟨rfl, rfl⟩ := Prod.mk.inj (Option.some.inj hstep)
        exact hother hj
      · obtain ⟨rfl, rfl⟩ := Prod.mk.inj (Option.some.inj hstep)
        exact hother hj
      · split at hstep
        · obtain ⟨rfl, rfl⟩ := Prod.mk.inj (Option.some.inj hstep)
          exact hother hj
        · obtain ⟨r, -, heq⟩ := Option.map_eq_some_iff.mp hstep
          obtain ⟨rfl, rfl⟩ := Prod.mk.inj heq
          exact hother hj
  | conclude j =>
    rw [Gate.step, Gate.conclude] at hstep
    cases hpassage : g.passages j with
    | idle => simp [hpassage] at hstep
    | ended result' => simp [hpassage] at hstep
    | looking raw claims =>
      have hj : g.passages j ≠ .ended result := by simp [hpassage]
      simp only [hpassage] at hstep
      obtain ⟨result', -, heq⟩ := Option.map_eq_some_iff.mp hstep
      obtain ⟨rfl, rfl⟩ := Prod.mk.inj heq
      exact hother hj

/-- In every run each request that has ended is accounted for. -/
theorem Inv.of_run {now : Int}
    (h : Run (fun g a => g.step jwt x mw a) { validator := { now := now } } g log) :
    Inv jwt x mw g log := by
  refine h.invariant (Inv.init now) ?_
  intro g log a g' notes hinv hstep
  exact hinv.step hstep

end Invariant

section Accounts

variable {jwt : Jwt} {x : Expected} {log : List Note} {i : Nat} {header raw : GoString}
  {began now : Int}

/-- The claims of a token that passes all checks. -/
theorem checkToken_ok {claims claims' : Claims} {key : PublicKey} {time : Int}
    (h : checkToken jwt x raw claims key time = .ok claims') :
    claims' = claims ∧ jwt.verify raw key = .ok () ∧
      jwt.validate clockLeeway time claims = .ok () ∧ claims.text "iss" = x.issuer ∧
      (x.clientID ≠ [] → claims.text "azp" = x.clientID ∨ x.acceptAudience = true ∧
        x.clientID ∈ jwt.audience claims) := by
  rw [checkToken] at h
  split at h
  · cases h
  · next hverify =>
    split at h
    · cases h
    · next hvalidate =>
      rw [checkClaims] at h
      split_ifs at h with hissuer hclient
      refine ⟨(Except.ok.inj h).symm, hverify, hvalidate, not_not.mp hissuer, fun hpinned => ?_⟩
      by_cases hazp : claims.text "azp" = x.clientID
      · exact .inl hazp
      · right
        have haudience : ¬(x.acceptAudience = false ∨ x.clientID ∉ jwt.audience claims) := by
          intro hnot
          exact hclient ⟨hpinned, hazp, hnot⟩
        rw [not_or, not_not, Bool.not_eq_false] at haudience
        exact haudience

/-- The check that a token does not pass. -/
theorem checkToken_error {claims : Claims} {key : PublicKey} {time : Int} {e : TokenError}
    (h : checkToken jwt x raw claims key time = .error e) :
    e.wraps = none ∧ (jwt.verify raw key ≠ .ok () ∨
      jwt.validate clockLeeway time claims ≠ .ok () ∨ claims.text "iss" ≠ x.issuer ∨
      (x.clientID ≠ [] ∧ claims.text "azp" ≠ x.clientID ∧
        (x.acceptAudience = false ∨ x.clientID ∉ jwt.audience claims))) := by
  rw [checkToken] at h
  split at h
  · next text hverify =>
    obtain rfl := Except.error.inj h
    refine ⟨rfl, .inl ?_⟩
    rw [hverify]
    simp
  · split at h
    · next text hvalidate =>
      obtain rfl := Except.error.inj h
      refine ⟨rfl, .inr (.inl ?_)⟩
      rw [hvalidate]
      simp
    · rw [checkClaims] at h
      split_ifs at h with hissuer hclient
      · obtain rfl := Except.error.inj h
        exact ⟨rfl, .inr (.inr (.inl hissuer))⟩
      · obtain rfl := Except.error.inj h
        exact ⟨rfl, .inr (.inr (.inr hclient))⟩

private theorem rsa_of_keyID {token : Token} {kid : GoString} (h : keyID token = .ok kid) :
    token.rsa = true := by
  rw [keyID] at h
  split_ifs at h with hrsa
  exact hrsa

/-- Claims are returned only for a token that is vouched for. -/
theorem Accounted.vouched (hdoc : jwt.AsDocumented) {claims : Claims}
    (h : Accounted jwt x log now i header began raw (.ok claims)) :
    Vouched jwt x log now i header began raw claims := by
  generalize hresult : (.ok claims : Except TokenError Claims) = result at h
  cases h with
  | notReady hlog hready => cases hresult
  | unreadable hparse => cases hresult
  | unusable hparse hkeyID => cases hresult
  | unknown hparse hkeyID hlacks hfetch => cases hresult
  | @checked token kid key time hparse hkeyID hserves hbegan hnow =>
    obtain ⟨rfl, hverify, hvalidate, hissuer, hclient⟩ := checkToken_ok hresult.symm
    obtain ⟨expiry, hexpiry, hexpires⟩ := hdoc.expires _ _ _ hvalidate
    refine ⟨?_, ⟨time, expiry, hbegan, hnow, hexpiry, hexpires⟩, hissuer, hclient⟩
    exact ⟨token, kid, key, hparse, rfl, rsa_of_keyID hkeyID, hkeyID, hserves, hverify⟩

/-- An error is returned for a token that is not acceptable, and one that wraps another only
while the keys cannot be had. -/
theorem Accounted.refused {e : TokenError}
    (h : Accounted jwt x log now i header began raw (.error e)) :
    (e.wraps = none ∧ Unacceptable jwt x log now i header began raw) ∨
      (e.wraps.isSome = true ∧ Unavailable jwt log i header began raw) := by
  generalize hresult : (.error e : Except TokenError Claims) = result at h
  cases h with
  | notReady hlog hready =>
    obtain rfl := Except.error.inj hresult
    exact .inr ⟨rfl, .notReady hlog hready⟩
  | unreadable hparse =>
    obtain rfl := Except.error.inj hresult
    exact .inl ⟨rfl, .unreadable hparse⟩
  | unusable hparse hkeyID =>
    obtain rfl := Except.error.inj hresult
    exact .inl ⟨rfl, .unusable hparse hkeyID⟩
  | @unknown token kid unavailable hparse hkeyID hlacks hfetch =>
    obtain rfl := Except.error.inj hresult
    obtain ⟨later, earlier, hlog, harrived, hlast⟩ := hfetch
    cases unavailable with
    | false =>
      refine .inl ⟨rfl, .unknown hparse hkeyID hlacks ⟨later, earlier, hlog, harrived, ?_⟩⟩
      intro hfailed
      rw [hfailed] at hlast
      cases hlast
    | true =>
      refine .inr ⟨rfl, .unknown hparse hkeyID hlacks ⟨later, earlier, hlog, harrived, ?_⟩⟩
      cases hfetched : lastFetch earlier with
      | none =>
        rw [hfetched] at hlast
        cases hlast
      | some failed =>
        rw [hfetched, Option.getD_some] at hlast
        rw [hfetched, hlast]
  | @checked token kid key time hparse hkeyID hserves hbegan hnow =>
    obtain ⟨hwraps, hinvalid⟩ := checkToken_error hresult.symm
    exact .inl ⟨hwraps, .invalid hparse hkeyID hserves hbegan hnow hinvalid⟩

end Accounts

end oidc.Gate

namespace oidc.realm

/-- The JWKS entry of a realm. -/
def entry : Jwk where
  kty := "RSA"
  kid := "a"
  n :=
    lit "8r5rxIt0aR6Z58ecA6Km2TbKjenKHD2QMz9tp-bnaVWt4JI7fJ6F6XQELVjGSm0DPIBtHbqeq4CWJaVzhjXVpEI5J1i58q-pID2Q" ++
    lit "b3FLwErhFtVTmlicPtW3lXaqfWxQjvIQ-a8yPYxwAvR2AJkKzEOA5tcE9yrwoHqZg4xtPEc"
  e := "AQAB"

def key : PublicKey where
  N := 170460515682236906101721285853196249722719198025210980589510893282577882025915214414949536715753963301902928649507442251788210436888300849351642321401075391478789130764447420949719708691862024384134023858836723023851408029463601113652700222173906948547107160939193773552458840418861081860033140112615141096519
  E := 65537

/-- A token for alice, signed with the realm's key. -/
def token : GoString :=
  lit "eyJhbGciOiJSUzI1NiIsImtpZCI6ImEifQ." ++
    lit "eyJleHAiOjMwMCwiaXNzIjoiaHR0cHM6Ly9pZC5leGFtcGxlL3JlYWxtcy9uZWJhcmkiLCJhenAiOiJsbG0ta2V5cyIsInN1YiI6" ++
    lit "IjBiOWUyZjZjIiwicHJlZmVycmVkX3VzZXJuYW1lIjoiYWxpY2UiLCJncm91cHMiOlsibGxtLXVzZXJzIl19" ++
      lit "." ++
    lit "SxVQzL1j6q9SwxfHxNoRVb3B4dJpMBQmrlQyRCG-pxBphEaPgjb6In_JeHzATYTJltrg5n0TnxVd8LRWHMXQSZzPD44qSPvpJiAL" ++
    lit "F-8-TdMQ26Ilu2ijM7xTMYMGd1LRBYMdLZHb6p1tjvXWEtumhPrgdtnJdxkMCLQKS-Fg6Rk"

/-- The payload of the token. -/
def claims : Claims := Fields.of [
  ("exp", .number "300"), ("iss", .string "https://id.example/realms/nebari"),
    ("azp", .string "llm-keys"),
  ("sub", .string "0b9e2f6c"), ("preferred_username", .string "alice"),
    ("groups", .array [.string "llm-users"])]

def expirationTime (claims : Claims) : Option Int :=
  match claims.get "exp" with
  | some (.number text) => (parseDigits 0 text).map (fun seconds => seconds * 1000000000)
  | _ => none

/-- The JWT library as far as the token goes. -/
def jwt : Jwt where
  parse raw :=
    if raw = token then .ok { alg := "RS256", rsa := true, header := [("alg", .string "RS256"), ("kid", .string "a")], claims := claims }
    else .error "token is malformed: token contains an invalid number of segments"
  unverifiable text := lit "token is unverifiable: error while executing keyfunc: " ++ text
  verify raw key' :=
    if raw = token ∧ key' = key then .ok ()
      else .error "token signature is invalid: crypto/rsa: verification error"
  validate leeway now claims :=
    match expirationTime claims with
    | none => .error "token has invalid claims: token is missing required claim: exp claim is required"
    | some expiry => if now < expiry + leeway then .ok ()
        else .error "token has invalid claims: token is expired"
  expirationTime := expirationTime
  audience _ := []
  quote s := lit "\"" ++ s ++ lit "\""

/-- The realm's tokens are judged as the library documents it. -/
theorem jwt_asDocumented : jwt.AsDocumented where
  expires leeway now claims h := by
    simp only [jwt] at h
    split at h
    · cases h
    · next expiry hexpiry =>
      split_ifs at h with hnow
      exact ⟨expiry, hexpiry, hnow⟩

/-- The entry is parsed as the key that the token was signed with. -/
example : parseRSAPublicKey entry = some key := by decide +kernel

end oidc.realm
