import ServingPack.KeyManager.KeyOwnerInvariant

open golang apiserver concurrency secrets

namespace identity

section Runs

variable {minInterval : Nat} {s s' : State} {φ : Nat → Phase} {i : Nat}

/-- A lookup answers from a read that it did not make itself only if that read has
succeeded: the lookup finds it began after its own arrival, and does not know the key. -/
def sharesCompleted (i : Nat) (s : State) (q : Request) (_ : Answer q) (_ : State) : Prop :=
  match q with
  | .lastRefresh => ((arrival s.log i).all (fun time => (asked s.log i).all (fun clientID =>
      decide (time < s.lastRefresh → clientID ∉ s.owners → s.completed = true)))) = true
  | _ => True

instance (i : Nat) (s : State) (q : Request) (a : Answer q) (s' : State) :
    Decidable (sharesCompleted i s q a s') := by
  unfold sharesCompleted
  split <;> infer_instance

private theorem asked_called (log : List Event) (i : Nat) (clientID : GoString) :
    asked (.called i clientID :: log) i = some clientID := by
  simp [asked]

private theorem asked_called_ne (log : List Event) {i j : Nat} (h : j ≠ i) (clientID : GoString) :
    asked (.called i clientID :: log) j = asked log j := by
  simp [asked, h]

/-- No lookup has been made yet. -/
def Initial (s : State) : Prop :=
  s.owners = ∅ ∧ s.lastRefresh = 0 ∧ s.holder = none ∧ s.log = [] ∧ s.completed = false

private theorem inv_initial (h : Initial s) : Inv s (fun _ => .idle) := by
  obtain ⟨howners, hlast, _, hlog, hcompleted⟩ := h
  refine ⟨nofun, fun _ => trivial, fun _ hlocks => hlocks.elim, ?_, ?_, ?_, ?_, ?_, nofun, nofun⟩
  · rw [hlast]
    exact Nat.zero_le _
  · rw [hlog]
    exact nofun
  · rw [hlog]
    exact nofun
  · rw [howners]
    intro clientID o ho
    rw [Finmap.lookup_empty] at ho
    cases ho
  · rw [hcompleted]
    exact nofun

private theorem Inv.start (h : Inv s φ) (hidle : φ i = .idle) (clientID : GoString) :
    Inv (s.record (.called i clientID)) (Function.update φ i (.called clientID)) := by
  have hpush : Inv (s.record (.called i clientID)) φ := by
    refine h.push s.keys (fun _ => rfl) (fun j id hj => ?_) (fun _ hid => .inl hid)
    have hji : j ≠ i := by
      rintro rfl
      rw [hidle] at hj
      cases hj
    rw [asked_called_ne _ hji]
    exact h.asked j id hj
  refine hpush.move s.holder (fun id hid => ?_) trivial (fun hlocks => hlocks.elim)
    (fun j _ hj => h.lock j hj) nofun nofun
  obtain rfl := Option.some.inj hid
  exact asked_called ..

private theorem Inv.env (h : Inv s φ) (henv : Env s s') : Inv s' φ := by
  have hkeys {keys : List KeyInfo}
    (hsub : ∀ clientID ∈ clientIDs s.keys, clientID ∈ clientIDs keys) :
      Inv { s with keys := keys } φ :=
    ⟨h.asked, fun j => (h.holds j).congr rfl rfl, h.lock, h.clock, h.arrived,
      fun j clientID hid => (h.known j clientID hid).imp_left (hsub clientID), h.told, h.completed,
        h.reading, h.read⟩
  cases henv with
  | tick d =>
    exact ⟨h.asked, fun j => (h.holds j).congr rfl rfl, h.lock, Nat.le_add_right_of_le h.clock,
      fun j time htime => Nat.le_add_right_of_le (h.arrived j time htime), h.known, h.told,
        h.completed, h.reading, h.read⟩
  | mint info => exact hkeys (fun clientID hid => List.mem_cons_of_mem _ hid)
  | @revoke before after info heq now =>
    refine hkeys (fun clientID hid => ?_)
    rw [heq] at hid
    simpa [clientIDs, Manager.tombstone] using hid
  | @drop before after info heq hrevoked =>
    refine h.push _ (fun _ => rfl) (fun j id hj => h.asked j id hj) (fun clientID hid => ?_)
    rw [heq] at hid
    simp only [clientIDs, List.map_append, List.map_cons, List.mem_append, List.mem_cons] at hid ⊢
    rcases hid with hid | rfl | hid
    · exact .inl (.inl hid)
    · exact .inr rfl
    · exact .inl (.inr hid)

/-- What is remembered of a key can be answered. -/
theorem Inv.justified (h : Inv s φ) {clientID : GoString}
    (hnone : s.owners.lookup clientID = none → ReadWithout s.log i clientID) :
    Justified s.log i clientID (.ok (s.owners.lookup clientID)) :=
  ⟨fun heq => hnone (Except.ok.inj heq), fun o heq => h.told clientID o (Except.ok.inj heq)⟩

private theorem justified_error (log : List Event) (i : Nat) (clientID : GoString)
    (e : StatusError) :
    Justified log i clientID (.error e) := ⟨nofun, nofun⟩

private theorem Inv.exec (h : Inv s φ) {q : Request} {a : Answer q} (hallowed : Allowed (φ i) q)
    (hexec : Respond i s q a s')
    (hgood : sharesCompleted i s q a s') : Inv s' (Function.update φ i (next (φ i) q a)) := by
  have hasked := h.asked i
  have hholds := h.holds i
  have hlock := h.lock i
  have hothers : ∀ j, j ≠ i → (φ j).Locks → s.holder = some j := fun j _ hj => h.lock j hj
  generalize hi : φ i = ψ at hallowed hasked hholds hlock
  cases hallowed with
  | @look clientID =>
    cases hexec
    cases ho : s.owners.lookup clientID with
    | some o =>
      refine h.move s.holder hasked ⟨by rintro ⟨⟩, fun o' ho' => ?_⟩ (fun hψ => hψ.elim) hothers
        (by rintro _ ⟨⟩) (by rintro _ _ ⟨⟩)
      obtain rfl := Option.some.inj (Except.ok.inj ho')
      exact h.told clientID o ho
    | none => exact h.move s.holder hasked trivial (fun hψ => hψ.elim) hothers (by rintro _ ⟨⟩) (by rintro _ _ ⟨⟩)
  | @arrive clientID =>
    cases hexec
    exact h.arrive hi
  | @lock clientID time =>
    cases hexec with
    | lock hnone =>
      refine h.move (some i) hasked hholds (fun _ => rfl) (fun j hji hj => ?_) (by rintro _ ⟨⟩)
        (by rintro _ _ ⟨⟩)
      have hheld := hothers j hji hj
      rw [hnone] at hheld
      cases hheld
  | @compare clientID time =>
    cases hexec
    by_cases hread : time < s.lastRefresh
    · simp only [next, hread, if_true]
      -- the last read began after this lookup arrived, and has been remembered
      refine h.move s.holder hasked (fun hnone => ?_) (fun _ => hlock trivial) hothers
        (by rintro _ ⟨⟩) (by rintro _ _ ⟨⟩)
      have harrival : arrival s.log i = some time := hholds
      simp only [sharesCompleted, harrival, hasked clientID rfl, Option.all_some, decide_eq_true_eq]
        at hgood
      obtain ⟨j, keys, hsince, hkeys⟩ :=
        h.completed (hgood hread (Finmap.lookup_eq_none.mp hnone)) i time harrival hread
      refine ⟨j, keys, hsince, fun hmem => ?_⟩
      obtain ⟨k, hk, rfl⟩ := List.mem_map.mp hmem
      exact Finmap.lookup_eq_none.mp hnone (hkeys k hk)
    · simp only [next, hread, if_false]
      exact h.move s.holder hasked trivial (fun _ => hlock trivial) hothers (by rintro _ ⟨⟩)
        (by rintro _ _ ⟨⟩)
  | @share clientID =>
    cases hexec
    exact h.move s.holder hasked (h.justified hholds) (fun _ => hlock trivial) hothers
      (by rintro _ ⟨⟩) (by rintro _ _ ⟨⟩)
  | @now clientID =>
    cases hexec
    exact h.move s.holder hasked trivial (fun _ => hlock trivial) hothers (by rintro _ ⟨⟩)
      (by rintro _ _ ⟨⟩)
  | @wait clientID deadline =>
    cases hexec with
    | waited hover => exact h.move s.holder hasked trivial (fun _ => hlock trivial) hothers (by rintro _ ⟨⟩) (by rintro _ _ ⟨⟩)
    | cancelled e =>
      exact h.move s.holder hasked (justified_error ..) (fun _ => hlock trivial) hothers
        (by rintro _ ⟨⟩) (by rintro _ _ ⟨⟩)
  | @stamp clientID =>
    cases hexec
    exact h.stamp hi
  | @list clientID =>
    cases hexec with
    | @listed keys hkeys =>
      have hpush : Inv (s.record (.listed i keys)) φ :=
        h.push s.keys (fun _ => rfl) (fun j id hj => h.asked j id hj) (fun _ hid => .inl hid)
      -- the lookups that the read counts for are those that arrived before it began
      have hread (k : Nat) (hstarted : .started i ∈ since s.log k) :
          ReadSince (.listed i keys :: s.log) k i keys := by
        refine ⟨[], since s.log k, since_cons rfl, hstarted, fun id hid => ?_⟩
        rw [known_cons rfl] at hid
        refine (h.known k id hid).imp_left (fun hmem => ?_)
        exact (hkeys.map KeyInfo.clientID).mem_iff.mpr hmem
      refine hpush.move s.holder hasked (hread i hholds) (fun _ => hlock trivial) hothers
        (by rintro _ ⟨⟩) ?_
      intro _ keys' heq k time htime hlast
      obtain ⟨_, rfl⟩ := Phase.listed.inj heq
      exact hread k (h.reading i clientID hi k time htime hlast)
    | unlisted e => exact h.move s.holder hasked (justified_error ..) (fun _ => hlock trivial) hothers (by rintro _ ⟨⟩) (by rintro _ _ ⟨⟩)
  | @store clientID keys =>
    cases hexec
    exact h.store hi
  | @find clientID =>
    cases hexec
    exact h.move s.holder hasked (h.justified hholds) (fun _ => hlock trivial) hothers
      (by rintro _ ⟨⟩) (by rintro _ _ ⟨⟩)
  | @unlock clientID r =>
    cases hexec
    refine h.move none hasked hholds (fun hψ => hψ.elim) (fun j hji hj => ?_) (by rintro _ ⟨⟩)
      (by rintro _ _ ⟨⟩)
    exact absurd (h.alone hj (by rw [hi]; trivial)) hji

private theorem keeps :
    protocol.Keeps ((machine minInterval).restrict sharesCompleted (fun _ _ => True)) Initial .idle
    (fun r ψ => ∃ clientID, ψ = .answered clientID r) Inv where
  init s hs := inv_initial hs
  start i s φ p s' hinv hidle hstart := by
    obtain ⟨clientID, rfl, rfl⟩ := hstart
    exact ⟨.called clientID, hinv.start hidle clientID,
      (follows_owner minInterval).mono (fun r ψ hψ => ⟨clientID, hψ⟩)⟩
  exec i s φ q a s' hinv hallowed hexec := hinv.exec hallowed hexec.1 hexec.2
  finish i s φ r s' hinv hpost hfinish := by
    obtain rfl : s' = s := hfinish
    obtain ⟨clientID, hψ⟩ := hpost
    exact hinv.move s'.holder nofun trivial (fun hlocks => hlocks.elim)
      (fun j _ hj => hinv.lock j hj) nofun nofun
  env s φ s' hinv henv := hinv.env henv.1

/-- A lookup answers that a key has no owner only if a read of the key store that
began after the lookup arrived has ended without the key; an owner it answers was
read from the key store. -/
theorem unknown_only_after_read {c : Config State Request Answer Result Nat}
    (hreach : ((machine minInterval).restrict sharesCompleted (fun _ _ => True)).Reachable Initial
      c) {i : Nat}
    {clientID : GoString} (hasked : asked c.state.log i = some clientID) :
    (c.threads i = some (.pure (.ok none)) → ReadWithout c.state.log i clientID) ∧
    ∀ o, c.threads i = some (.pure (.ok (some o))) → Told c.state.log clientID o := by
  obtain ⟨φ, hinv, hthreads⟩ := keeps.reachable hreach
  have hjustified (r : Result)
      (hr : c.threads i = some (.pure r)) : Justified c.state.log i clientID r := by
    have hi := hthreads i
    rw [hr] at hi
    obtain ⟨id, hφ⟩ := hi
    have hasked' := hinv.asked i id (by rw [hφ]; rfl)
    obtain rfl := Option.some.inj (hasked'.symm.trans hasked)
    have hholds := hinv.holds i
    rwa [hφ] at hholds
  exact ⟨fun hr => (hjustified _ hr).1 rfl, fun o hr => (hjustified _ hr).2 o rfl⟩

end Runs

section Scripts

/-- How a scripted step is taken. -/
inductive Choice where
  | look (clientID : GoString)
  | go
  | fail (e : StatusError)
  | tick (d : Nat)

/-- The answer where nothing fails. -/
def respond (i : Nat) (s : State) : (q : Request) → Option (Answer q × State)
  | .cached clientID => some (s.owners.lookup clientID, s)
  | .arrived => some (s.clock, s.record (.arrived i s.clock (clientIDs s.keys)))
  | .lock => if s.holder = none then some ((), { s with holder := some i }) else none
  | .lastRefresh => some (s.lastRefresh, s)
  | .now => some (s.clock, s)
  | .wait deadline => if deadline ≤ s.clock then some (.ok (), s) else none
  | .stamp => some ((), { s.record (.started i) with lastRefresh := s.clock, completed := false })
  | .list => some (.ok s.keys, s.record (.listed i s.keys))
  | .store keys => some ((), { s with owners := remember s.owners keys, completed := true })
  | .unlock => some ((), { s with holder := none })

def runner (minInterval : Nat) : Machine.Runner State Request Answer Result Nat Choice where
  start
    | .look clientID, i, s => some (owner minInterval clientID, s.record (.called i clientID))
    | _, _, _ => none
  answer
    | .go, i, s, q => respond i s q
    | .fail e, _, s, .list => some (.error e, s)
    | .fail e, _, s, .wait _ => some (.error e, s)
    | _, _, _, _ => none
  finish _ s _ := some s
  env
    | .tick d, s => some { s with clock := s.clock + d }
    | _, _ => none

private theorem respond_sound {i : Nat} {s s' : State} {q : Request} {a : Answer q}
    (h : respond i s q = some (a, s')) :
    Respond i s q a s' := by
  cases q <;> simp only [respond, Option.ite_none_right_eq_some] at h
  case lock =>
    obtain ⟨hfree, h⟩ := h
    obtain ⟨rfl, rfl⟩ := Prod.mk.inj (Option.some.inj h)
    exact .lock hfree
  case wait deadline =>
    obtain ⟨hover, h⟩ := h
    obtain ⟨rfl, rfl⟩ := Prod.mk.inj (Option.some.inj h)
    exact .waited hover
  all_goals obtain ⟨rfl, rfl⟩ := Prod.mk.inj (Option.some.inj h)
  case list => exact .listed (List.Perm.refl _)
  all_goals constructor

private theorem runner_sound (minInterval : Nat) :
    (runner minInterval).Sound (machine minInterval) where
  start o i s p s' h := by
    cases o with
    | look clientID =>
      obtain ⟨rfl, rfl⟩ := Prod.mk.inj (Option.some.inj h)
      exact ⟨clientID, rfl, rfl⟩
    | go => cases h
    | fail e => cases h
    | tick d => cases h
  answer o i s q a s' h := by
    unfold runner at h
    simp only at h
    split at h
    · exact respond_sound h
    · obtain ⟨rfl, rfl⟩ := Prod.mk.inj (Option.some.inj h)
      exact .unlisted _
    · obtain ⟨rfl, rfl⟩ := Prod.mk.inj (Option.some.inj h)
      exact .cancelled _
    · cases h
  finish i s r s' h := (Option.some.inj h).symm
  env o s s' h := by
    cases o with
    | tick d =>
      obtain rfl := Option.some.inj h
      exact .tick d
    | look clientID => cases h
    | go => cases h
    | fail e => cases h

/-- Whether a lookup has answered that the key is unknown. -/
def answersUnknown : Option Lookup → Bool
  | some (.pure (.ok none)) => true
  | _ => false

private theorem answersUnknown_iff {thread : Option Lookup} (h : answersUnknown thread = true) :
    thread = some (.pure (.ok none)) := by
  unfold answersUnknown at h
  split at h
  · rfl
  · cases h

def steps (i n : Nat) : List (Machine.Move Nat Choice) := List.replicate n (.answer i .go)

/-- A key store with one key, at some time after the start. -/
def aliceStore : State where
  clock := 5
  keys := [{ clientID := "user-alice-1", creator := "alice", createdAt := 0, modelName := "chat", «namespace» := "llm-serving" }]

private theorem aliceStore_initial : Initial aliceStore := ⟨rfl, rfl, rfl, rfl, rfl⟩

/-- Two lookups of keys that do not exist arrive, and the second one takes its answer from
the read of the first. -/
def sharedRun : Option (Config State Request Answer Result Nat) :=
  ((runner 1).guard sharesCompleted (fun _ _ => True)).run
    ([.start 0 (.look "user-nobody-1"), .start 1 (.look "user-nobody-2")] ++ steps 0 2 ++
      steps 1 2 ++ steps 0 1 ++
      [.env (.tick 1)] ++ steps 0 7 ++ steps 1 4) ⟨aliceStore, fun _ => none⟩

private theorem sharedRun_ends : sharedRun.any (fun c =>
    answersUnknown (c.threads 1) && decide (asked c.state.log 1 = some "user-nobody-2") &&
    decide ((c.state.log.filter (fun | .listed _ _ => true | _ => false)).length = 1)) = true := by
  decide +kernel

/-- The second lookup's answer is that of the one read of the key store, which began after
the lookup had arrived. -/
theorem shared_read_unknown : ∃ c : Config State Request Answer Result Nat,
    c.threads 1 = some (.pure (.ok none)) ∧ ReadWithout c.state.log 1 "user-nobody-2" := by
  obtain ⟨c, hrun, hends⟩ := (Option.any_eq_true _ _).mp sharedRun_ends
  simp only [Bool.and_eq_true] at hends
  have hthread := answersUnknown_iff hends.1.1
  exact ⟨c, hthread, (unknown_only_after_read
    (((runner_sound 1).guard _ _).reachable (.init aliceStore_initial) hrun)
    (of_decide_eq_true hends.1.2)).1 hthread⟩

/-- Two lookups arrive; the first one's read of the key store fails, and the second
one takes its answer from it. -/
def failedRun : Option (Config State Request Answer Result Nat) :=
  (runner 1).run ([.start 0 (.look "user-nobody-1"), .start 1 (.look "user-alice-1")] ++
    steps 0 2 ++ steps 1 2 ++
    steps 0 1 ++ [.env (.tick 1)] ++ steps 0 3 ++ [.answer 0 (.fail ⟨.other, "timeout"⟩)] ++
      steps 0 1 ++ steps 1 4)
    ⟨aliceStore, fun _ => none⟩

private theorem failedRun_ends : failedRun.any (fun c =>
    answersUnknown (c.threads 1) && decide (asked c.state.log 1 = some "user-alice-1") &&
    decide (lit "user-alice-1" ∈ clientIDs c.state.keys) &&
    c.state.log.all (fun | .listed _ _ => false | _ => true)) = true := by
  decide +kernel

/-- A key that is in the key store all the time is reported as unknown, and no read
of the key store has succeeded. -/
theorem known_key_unknown :
    ∃ c : Config State Request Answer Result Nat, (machine 1).Reachable Initial c ∧
    asked c.state.log 1 = some "user-alice-1" ∧ c.threads 1 = some (.pure (.ok none)) ∧
    lit "user-alice-1" ∈ clientIDs c.state.keys ∧ ¬ReadWithout c.state.log 1 "user-alice-1" := by
  obtain ⟨c, hrun, hends⟩ := (Option.any_eq_true _ _).mp failedRun_ends
  simp only [Bool.and_eq_true] at hends
  obtain ⟨⟨⟨hthread, hasked⟩, hkey⟩, hlog⟩ := hends
  refine ⟨c, (runner_sound 1).reachable (.init aliceStore_initial) hrun, of_decide_eq_true hasked,
    answersUnknown_iff hthread, of_decide_eq_true hkey, ?_⟩
  rintro ⟨j, keys, hread, _⟩
  have hlisted := List.all_eq_true.mp hlog _ hread.mem
  cases hlisted

end Scripts

end identity
