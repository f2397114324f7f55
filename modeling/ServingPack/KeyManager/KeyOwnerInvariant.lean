import ServingPack.KeyManager.KeyOwners

open golang apiserver concurrency secrets

namespace identity

/-- How far a lookup has come. -/
inductive Phase where
  | idle
  | called (clientID : GoString)
  | missed (clientID : GoString)
  | arrived (clientID : GoString) (time : Nat)
  | locked (clientID : GoString) (time : Nat)
  | shared (clientID : GoString)
  | due (clientID : GoString)
  | stamped (clientID : GoString)
  | listed (clientID : GoString) (keys : List KeyInfo)
  | stored (clientID : GoString)
  | answering (clientID : GoString) (r : Result)
  | answered (clientID : GoString) (r : Result)

/-- What a lookup does in each phase. -/
inductive Allowed : Phase → Request → Prop where
  | look {clientID : GoString} : Allowed (.called clientID) (.cached clientID)
  | arrive {clientID : GoString} : Allowed (.missed clientID) .arrived
  | lock {clientID : GoString} {time : Nat} : Allowed (.arrived clientID time) .lock
  | compare {clientID : GoString} {time : Nat} : Allowed (.locked clientID time) .lastRefresh
  | share {clientID : GoString} : Allowed (.shared clientID) (.cached clientID)
  | now {clientID : GoString} : Allowed (.due clientID) .now
  | wait {clientID : GoString} {deadline : Nat} : Allowed (.due clientID) (.wait deadline)
  | stamp {clientID : GoString} : Allowed (.due clientID) .stamp
  | list {clientID : GoString} : Allowed (.stamped clientID) .list
  | store {clientID : GoString} {keys : List KeyInfo} :
    Allowed (.listed clientID keys) (.store keys)
  | find {clientID : GoString} : Allowed (.stored clientID) (.cached clientID)
  | unlock {clientID : GoString} {r : Result} : Allowed (.answering clientID r) .unlock

def next : Phase → (q : Request) → Answer q → Phase
  | .called clientID, .cached _, o => match (o : Option Owner) with
    | some o => .answered clientID (.ok (some o))
    | none => .missed clientID
  | .missed clientID, .arrived, time => .arrived clientID time
  | .arrived clientID time, .lock, _ => .locked clientID time
  | .locked clientID time, .lastRefresh, lastRefresh =>
    if time < (lastRefresh : Nat) then .shared clientID else .due clientID
  | .shared clientID, .cached _, o => .answering clientID (.ok o)
  | .due clientID, .wait _, .error e => .answering clientID (.error e)
  | .due clientID, .stamp, _ => .stamped clientID
  | .stamped clientID, .list, .ok keys => .listed clientID keys
  | .stamped clientID, .list, .error e => .answering clientID (.error e)
  | .listed clientID _, .store _, _ => .stored clientID
  | .stored clientID, .cached _, o => .answering clientID (.ok o)
  | .answering clientID r, .unlock, _ => .answered clientID r
  | φ, _, _ => φ

def protocol : Protocol Request Answer Phase where
  allowed := Allowed
  next := next

section Follows

variable {clientID : GoString}

private theorem follows_refresh :
    protocol.Follows (.due clientID) (refresh clientID) (fun r φ => φ = .answering clientID r) := by
  refine ⟨.stamp, fun _ => ⟨.list, ?_⟩⟩
  rintro (e | keys)
  · exact rfl
  · exact ⟨.store, fun _ => ⟨.find, fun o => rfl⟩⟩

private theorem follows_ownerLocked (minInterval time : Nat) :
    protocol.Follows (.locked clientID time)
    (ownerLocked minInterval clientID time) (fun r φ => φ = .answering clientID r) := by
  refine ⟨.compare, fun lastRefresh => ?_⟩
  change Nat at lastRefresh
  by_cases hread : time < lastRefresh
  · simp only [protocol, next, hread, if_true]
    exact ⟨.share, fun o => rfl⟩
  · simp only [protocol, next, hread, if_false]
    refine ⟨.now, fun now => ?_⟩
    change Nat at now
    by_cases hwait : now < lastRefresh + minInterval
    · simp only [hwait, if_true]
      refine ⟨.wait, ?_⟩
      rintro (e | _)
      · exact rfl
      · exact follows_refresh
    · simp only [hwait, if_false]
      exact follows_refresh

/-- A lookup asks for the lock, the clock and the list in the order the protocol has them, and
answers with what it found. -/
theorem follows_owner (minInterval : Nat) :
    protocol.Follows (.called clientID) (owner minInterval clientID)
    (fun r φ => φ = .answered clientID r) := by
  refine ⟨.look, fun o => ?_⟩
  match o with
  | some o => exact rfl
  | none =>
    refine ⟨.arrive, fun time => ⟨.lock, fun _ => (follows_ownerLocked minInterval time).bind ?_⟩⟩
    rintro r φ rfl
    exact ⟨.unlock, fun _ => rfl⟩

end Follows

section Invariant

/-- The phases in which a lookup holds the lock. -/
def Phase.Locks : Phase → Prop
  | .locked _ _ => True
  | .shared _ => True
  | .due _ => True
  | .stamped _ => True
  | .listed _ _ => True
  | .stored _ => True
  | .answering _ _ => True
  | _ => False

def Phase.clientID : Phase → Option GoString
  | .idle => none
  | .called clientID => some clientID
  | .missed clientID => some clientID
  | .arrived clientID _ => some clientID
  | .locked clientID _ => some clientID
  | .shared clientID => some clientID
  | .due clientID => some clientID
  | .stamped clientID => some clientID
  | .listed clientID _ => some clientID
  | .stored clientID => some clientID
  | .answering clientID _ => some clientID
  | .answered clientID _ => some clientID

/-- An answer that can be given: no owner only after a read without the key. -/
def Justified (log : List Event) (i : Nat) (clientID : GoString) (r : Result) : Prop :=
  (r = .ok none → ReadWithout log i clientID) ∧ ∀ o, r = .ok (some o) → Told log clientID o

/-- What a lookup knows in its phase. -/
def Phase.Holds (s : State) (i : Nat) : Phase → Prop
  | .arrived _ time => arrival s.log i = some time
  | .locked _ time => arrival s.log i = some time
  | .shared clientID => s.owners.lookup clientID = none → ReadWithout s.log i clientID
  | .stamped _ => .started i ∈ since s.log i
  | .listed _ keys => ReadSince s.log i i keys
  | .stored clientID => s.owners.lookup clientID = none → ReadWithout s.log i clientID
  | .answering clientID r => Justified s.log i clientID r
  | .answered clientID r => Justified s.log i clientID r
  | _ => True

structure Inv (s : State) (φ : Nat → Phase) : Prop where
  asked : ∀ i clientID, (φ i).clientID = some clientID → asked s.log i = some clientID
  holds : ∀ i, (φ i).Holds s i
  lock : ∀ i, (φ i).Locks → s.holder = some i
  clock : s.lastRefresh ≤ s.clock
  arrived : ∀ i time, arrival s.log i = some time → time ≤ s.clock
  known : ∀ i, ∀ clientID ∈ known s.log i, clientID ∈ clientIDs s.keys ∨
    .dropped clientID ∈ since s.log i
  told : ∀ clientID o, s.owners.lookup clientID = some o → Told s.log clientID o
  completed : s.completed = true → ∀ i time, arrival s.log i = some time → time < s.lastRefresh →
    ∃ j keys, ReadSince s.log i j keys ∧ ∀ k ∈ keys, k.clientID ∈ s.owners
  reading : ∀ j clientID, φ j = .stamped clientID → ∀ i time, arrival s.log i = some time →
    time < s.lastRefresh →
    .started j ∈ since s.log i
  read : ∀ j clientID keys, φ j = .listed clientID keys → ∀ i time, arrival s.log i = some time →
    time < s.lastRefresh → ReadSince s.log i j keys

variable {s : State} {φ : Nat → Phase} {log : List Event} {e : Event} {i j : Nat}
  {clientID : GoString}

private theorem ReadSince.cons {keys : List KeyInfo} (h : ReadSince log i j keys)
    (he : e.arrives i = false) :
    ReadSince (e :: log) i j keys := by
  obtain ⟨later, before, hsince, hstarted, hknown⟩ := h
  refine ⟨e :: later, before, ?_, hstarted, ?_⟩
  · rw [since_cons he, hsince, List.cons_append]
  · rwa [known_cons he]

private theorem ReadWithout.cons (h : ReadWithout log i clientID) (he : e.arrives i = false) :
    ReadWithout (e :: log) i clientID := by
  obtain ⟨j, keys, hread, hnot⟩ := h
  exact ⟨j, keys, hread.cons he, hnot⟩

private theorem Told.cons {o : Owner} (h : Told log clientID o) : Told (e :: log) clientID o := by
  obtain ⟨j, keys, hlisted, hkey⟩ := h
  exact ⟨j, keys, List.mem_cons_of_mem _ hlisted, hkey⟩

private theorem Justified.cons {r : Result} (h : Justified log i clientID r)
    (he : e.arrives i = false) :
    Justified (e :: log) i clientID r :=
  ⟨fun hr => (h.1 hr).cons he, fun o hr => (h.2 o hr).cons⟩

/-- What a lookup knows stays true when something else happens. -/
theorem Phase.Holds.cons {ψ : Phase} {s' : State} (h : ψ.Holds s i) (he : e.arrives i = false)
    (hlog : s'.log = e :: s.log) (howners : s'.owners = s.owners) : ψ.Holds s' i := by
  cases ψ with
  | arrived clientID time => rwa [Phase.Holds, hlog, arrival_cons he]
  | locked clientID time => rwa [Phase.Holds, hlog, arrival_cons he]
  | shared clientID =>
    rw [Phase.Holds, hlog, howners]
    exact fun hnone => (h hnone).cons he
  | stamped clientID =>
    rw [Phase.Holds, hlog, since_cons he]
    exact List.mem_cons_of_mem _ h
  | listed clientID keys =>
    rw [Phase.Holds, hlog]
    exact ReadSince.cons h he
  | stored clientID =>
    rw [Phase.Holds, hlog, howners]
    exact fun hnone => (h hnone).cons he
  | answering clientID r =>
    rw [Phase.Holds, hlog]
    exact Justified.cons h he
  | answered clientID r =>
    rw [Phase.Holds, hlog]
    exact Justified.cons h he
  | idle => trivial
  | called clientID => trivial
  | missed clientID => trivial
  | due clientID => trivial

/-- Two lookups do not hold the lock at once. -/
theorem Inv.alone (h : Inv s φ) (hi : (φ i).Locks) (hj : (φ j).Locks) : i = j :=
  Option.some.inj ((h.lock i hi).symm.trans (h.lock j hj))

/-- What is known of a lookup rests on the log and on the owners read last. -/
theorem Phase.Holds.congr {ψ : Phase} {s' : State} (h : ψ.Holds s i) (hlog : s'.log = s.log)
    (howners : s'.owners = s.owners) : ψ.Holds s' i := by
  have hsame : ψ.Holds s' i = ψ.Holds s i := by
    cases ψ <;> simp only [Phase.Holds, hlog, howners]
  rwa [hsame]

/-- A lookup moves on, while the others' state stays as it was but for who holds the lock. -/
theorem Inv.move (h : Inv s φ) {ψ : Phase} (holder : Option Nat)
    (hasked : ∀ clientID, ψ.clientID = some clientID → identity.asked s.log i = some clientID)
    (hholds : ψ.Holds s i)
    (hlock : ψ.Locks → holder = some i) (hothers : ∀ j, j ≠ i → (φ j).Locks → holder = some j)
    (hreading : ∀ clientID, ψ = .stamped clientID → ∀ k time, arrival s.log k = some time →
      time < s.lastRefresh →
      .started i ∈ since s.log k)
    (hread : ∀ clientID keys, ψ = .listed clientID keys → ∀ k time, arrival s.log k = some time →
      time < s.lastRefresh → ReadSince s.log k i keys) :
    Inv { s with holder := holder } (Function.update φ i ψ) where
  asked j clientID hj := by
    by_cases hji : j = i
    · subst j
      rw [Function.update_self] at hj
      exact hasked clientID hj
    · rw [Function.update_of_ne hji] at hj
      exact h.asked j clientID hj
  holds j := by
    by_cases hji : j = i
    · subst j
      rw [Function.update_self]
      exact hholds.congr rfl rfl
    · rw [Function.update_of_ne hji]
      exact (h.holds j).congr rfl rfl
  lock j hj := by
    by_cases hji : j = i
    · subst j
      rw [Function.update_self] at hj
      exact hlock hj
    · rw [Function.update_of_ne hji] at hj
      exact hothers j hji hj
  clock := h.clock
  arrived := h.arrived
  known := h.known
  told := h.told
  completed := h.completed
  reading j clientID hj := by
    by_cases hji : j = i
    · subst j
      rw [Function.update_self] at hj
      exact hreading clientID hj
    · rw [Function.update_of_ne hji] at hj
      exact h.reading j clientID hj
  read j clientID keys hj := by
    by_cases hji : j = i
    · subst j
      rw [Function.update_self] at hj
      exact hread clientID keys hj
    · rw [Function.update_of_ne hji] at hj
      exact h.read j clientID keys hj

/-- Something else happens, and the key store may change. -/
theorem Inv.push (h : Inv s φ) (keys : List KeyInfo) (harrives : ∀ i, e.arrives i = false)
    (hasked : ∀ i clientID, (φ i).clientID = some clientID →
      identity.asked (e :: s.log) i = some clientID)
    (hknown : ∀ clientID ∈ clientIDs s.keys, clientID ∈ clientIDs keys ∨ e = .dropped clientID) :
    Inv { s.record e with keys := keys } φ where
  asked := hasked
  holds i := (h.holds i).cons (harrives i) rfl rfl
  lock := h.lock
  clock := h.clock
  arrived i time htime :=
    h.arrived i time (by rwa [State.record, arrival_cons (harrives i)] at htime)
  known i clientID hid := by
    rw [State.record, known_cons (harrives i)] at hid
    rw [State.record, since_cons (harrives i)]
    rcases h.known i clientID hid with hkey | hdropped
    · rcases hknown clientID hkey with hkey' | rfl
      · exact .inl hkey'
      · exact .inr (List.mem_cons_self ..)
    · exact .inr (List.mem_cons_of_mem _ hdropped)
  told clientID o ho := (h.told clientID o ho).cons
  completed hcompleted i time htime hlast := by
    rw [State.record, arrival_cons (harrives i)] at htime
    obtain ⟨j, keys, hread, hkeys⟩ := h.completed hcompleted i time htime hlast
    exact ⟨j, keys, hread.cons (harrives i), hkeys⟩
  reading j clientID hj i time htime hlast := by
    rw [State.record, arrival_cons (harrives i)] at htime
    rw [State.record, since_cons (harrives i)]
    exact List.mem_cons_of_mem _ (h.reading j clientID hj i time htime hlast)
  read j clientID keys hj i time htime hlast := by
    rw [State.record, arrival_cons (harrives i)] at htime
    exact (h.read j clientID keys hj i time htime hlast).cons (harrives i)

/-- A lookup arrives: whatever was read before does not count for it. -/
theorem Inv.arrive (h : Inv s φ) (hi : φ i = .missed clientID) :
    Inv (s.record (.arrived i s.clock (clientIDs s.keys)))
      (Function.update φ i (.arrived clientID s.clock)) := by
  have hne (j : Nat) (hji : j ≠ i) : Event.arrives j (.arrived i s.clock (clientIDs s.keys)) =
      false := by
    simpa [Event.arrives] using hji
  have hother (j : Nat) (hji : j ≠ i) : Function.update φ i (.arrived clientID s.clock) j = φ j :=
    Function.update_of_ne hji ..
  have hlate (k time : Nat)
    (htime : arrival (.arrived i s.clock (clientIDs s.keys) :: s.log) k = some time)
      (hlast : time < s.lastRefresh) : k ≠ i ∧ arrival s.log k = some time := by
    by_cases hki : k = i
    · subst k
      rw [arrival_arrived, Option.some.injEq] at htime
      have := h.clock
      omega
    · rw [arrival_cons (hne k hki)] at htime
      exact ⟨hki, htime⟩
  constructor
  · intro j id hj
    by_cases hji : j = i
    · subst j
      rw [Function.update_self] at hj
      exact h.asked i id (by rw [hi]; exact hj)
    · rw [hother j hji] at hj
      exact h.asked j id hj
  · intro j
    by_cases hji : j = i
    · subst j
      rw [Function.update_self]
      exact arrival_arrived ..
    · rw [hother j hji]
      exact (h.holds j).cons (hne j hji) rfl rfl
  · intro j hj
    by_cases hji : j = i
    · subst j
      rw [Function.update_self] at hj
      exact hj.elim
    · rw [hother j hji] at hj
      exact h.lock j hj
  · exact h.clock
  · intro j time htime
    by_cases hji : j = i
    · subst j
      rw [State.record, arrival_arrived, Option.some.injEq] at htime
      exact htime.ge
    · rw [State.record, arrival_cons (hne j hji)] at htime
      exact h.arrived j time htime
  · intro j id hid
    by_cases hji : j = i
    · subst j
      rw [State.record, known_arrived] at hid
      exact .inl hid
    · rw [State.record, known_cons (hne j hji)] at hid
      rw [State.record, since_cons (hne j hji)]
      exact (h.known j id hid).imp_right (List.mem_cons_of_mem _)
  · exact fun id o ho => (h.told id o ho).cons
  · intro hcompleted k time htime hlast
    obtain ⟨hki, htime⟩ := hlate k time htime hlast
    obtain ⟨j, keys, hread, hkeys⟩ := h.completed hcompleted k time htime hlast
    exact ⟨j, keys, hread.cons (hne k hki), hkeys⟩
  · intro j id hj k time htime hlast
    obtain ⟨hki, htime⟩ := hlate k time htime hlast
    have hji : j ≠ i := by
      rintro rfl
      rw [Function.update_self] at hj
      cases hj
    rw [hother j hji] at hj
    rw [State.record, since_cons (hne k hki)]
    exact List.mem_cons_of_mem _ (h.reading j id hj k time htime hlast)
  · intro j id keys hj k time htime hlast
    obtain ⟨hki, htime⟩ := hlate k time htime hlast
    have hji : j ≠ i := by
      rintro rfl
      rw [Function.update_self] at hj
      cases hj
    rw [hother j hji] at hj
    exact (h.read j id keys hj k time htime hlast).cons (hne k hki)

/-- A read begins: it counts for every lookup that has arrived. -/
theorem Inv.stamp (h : Inv s φ) (hi : φ i = .due clientID) :
    Inv { s.record (.started i) with lastRefresh := s.clock, completed := false }
      (Function.update φ i (.stamped clientID)) := by
  have hlocks : (φ i).Locks := by
    rw [hi]
    trivial
  have hother (j : Nat) (hji : j ≠ i) : Function.update φ i (.stamped clientID) j = φ j :=
    Function.update_of_ne hji ..
  have hstarted (k : Nat) : .started i ∈ since (.started i :: s.log) k := by
    rw [since_cons rfl]
    exact List.mem_cons_self ..
  constructor
  · intro j id hj
    by_cases hji : j = i
    · subst j
      rw [Function.update_self] at hj
      exact h.asked i id (by rw [hi]; exact hj)
    · rw [hother j hji] at hj
      exact h.asked j id hj
  · intro j
    by_cases hji : j = i
    · subst j
      rw [Function.update_self]
      exact hstarted i
    · rw [hother j hji]
      exact (h.holds j).cons rfl rfl rfl
  · intro j hj
    by_cases hji : j = i
    · subst j
      exact h.lock i hlocks
    · rw [hother j hji] at hj
      exact h.lock j hj
  · exact Nat.le_refl _
  · exact fun j time htime => h.arrived j time htime
  · intro j id hid
    exact (h.known j id hid).imp_right (fun hmem => by
      rw [State.record, since_cons rfl]
      exact List.mem_cons_of_mem _ hmem)
  · exact fun id o ho => (h.told id o ho).cons
  · exact nofun
  · intro j id hj k time _ _
    by_cases hji : j = i
    · subst j
      exact hstarted k
    · rw [hother j hji] at hj
      exact absurd (h.alone (by rw [hj]; trivial) hlocks) hji
  · intro j id keys hj
    by_cases hji : j = i
    · subst j
      rw [Function.update_self] at hj
      cases hj
    · rw [hother j hji] at hj
      exact absurd (h.alone (by rw [hj]; trivial) hlocks) hji

private theorem mem_remember {owners : GoMap Owner} {keys : List KeyInfo} :
    clientID ∈ remember owners keys ↔ clientID ∈ owners ∨ clientID ∈ clientIDs keys := by
  induction keys generalizing owners with
  | nil => simp [remember, clientIDs]
  | cons k keys ih =>
    have hstep : remember owners (k :: keys) =
      remember (owners.insert k.clientID (ownerOf k)) keys := rfl
    rw [hstep, ih, Finmap.mem_insert]
    simp only [clientIDs, List.map_cons, List.mem_cons]
    tauto

private theorem lookup_remember {owners : GoMap Owner} {keys : List KeyInfo} {o : Owner}
    (h : (remember owners keys).lookup clientID = some o) :
    owners.lookup clientID = some o ∨ ∃ k ∈ keys, k.clientID = clientID ∧ o = ownerOf k := by
  induction keys generalizing owners with
  | nil => exact .inl h
  | cons k keys ih =>
    have hrest : (remember (owners.insert k.clientID (ownerOf k)) keys).lookup clientID = some o :=
      h
    rcases ih hrest with hold | ⟨k', hk', hsame, rfl⟩
    · rw [GoMap.lookup_insert_eq] at hold
      split_ifs at hold with heq
      · exact .inr ⟨k, List.mem_cons_self .., heq.symm, (Option.some.inj hold).symm⟩
      · exact .inl hold
    · exact .inr ⟨k', List.mem_cons_of_mem _ hk', hsame, rfl⟩

/-- A read after an arrival is a read of the log. -/
theorem ReadSince.mem {keys : List KeyInfo} (h : ReadSince log i j keys) :
    .listed j keys ∈ log := by
  obtain ⟨later, before, hsince, _⟩ := h
  have hmem : Event.listed j keys ∈ since log i := by
    rw [hsince]
    exact List.mem_append_right _ (List.mem_cons_self ..)
  exact (List.takeWhile_sublist _).subset hmem

/-- A read is remembered: it answers every lookup that arrived before it began. -/
theorem Inv.store (h : Inv s φ) {keys : List KeyInfo} (hi : φ i = .listed clientID keys) :
    Inv { s with owners := remember s.owners keys, completed := true }
      (Function.update φ i (.stored clientID)) := by
  have hlocks : (φ i).Locks := by
    rw [hi]
    trivial
  have hread : ReadSince s.log i i keys := by
    have hholds := h.holds i
    rwa [hi] at hholds
  have hother (j : Nat) (hji : j ≠ i) : Function.update φ i (.stored clientID) j = φ j :=
    Function.update_of_ne hji ..
  have hnone (id : GoString) (hid : (remember s.owners keys).lookup id = none) :
      s.owners.lookup id = none ∧ id ∉ clientIDs keys := by
    rw [Finmap.lookup_eq_none, mem_remember, not_or] at hid
    exact ⟨Finmap.lookup_eq_none.mpr hid.1, hid.2⟩
  constructor
  · intro j id hj
    by_cases hji : j = i
    · subst j
      rw [Function.update_self] at hj
      exact h.asked i id (by rw [hi]; exact hj)
    · rw [hother j hji] at hj
      exact h.asked j id hj
  · intro j
    by_cases hji : j = i
    · subst j
      rw [Function.update_self]
      exact fun hid => ⟨i, keys, hread, (hnone clientID hid).2⟩
    · rw [hother j hji]
      have hholds := h.holds j
      match hφ : φ j with
      | .shared id | .stored id =>
        rw [hφ] at hholds
        exact fun hid => hholds (hnone id hid).1
      | .arrived _ _ | .locked _ _ | .stamped _ | .listed _ _ | .answering _ _ | .answered _ _ =>
        rw [hφ] at hholds
        exact hholds
      | .idle | .called _ | .missed _ | .due _ => trivial
  · intro j hj
    by_cases hji : j = i
    · subst j
      exact h.lock i hlocks
    · rw [hother j hji] at hj
      exact h.lock j hj
  · exact h.clock
  · exact h.arrived
  · exact h.known
  · intro id o ho
    rcases lookup_remember ho with hold | ⟨k, hk, hsame, rfl⟩
    · exact h.told id o hold
    · exact ⟨i, keys, hread.mem, k, hk, hsame, rfl⟩
  · intro _ k time htime hlast
    refine ⟨i, keys, h.read i clientID keys hi k time htime hlast, fun key hkey => ?_⟩
    exact mem_remember.mpr (.inr (List.mem_map_of_mem hkey))
  · intro j id hj
    by_cases hji : j = i
    · subst j
      rw [Function.update_self] at hj
      cases hj
    · rw [hother j hji] at hj
      exact h.reading j id hj
  · intro j id keys' hj
    by_cases hji : j = i
    · subst j
      rw [Function.update_self] at hj
      cases hj
    · rw [hother j hji] at hj
      exact h.read j id keys' hj

end Invariant

end identity
