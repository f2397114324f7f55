import ServingPack.Console.Hub

open golang concurrency

namespace openmeter

open hub

namespace Hub

variable {h h' : Hub} {noted : List Effect} {p sub : Nat}

/-! What each step can do. -/

/-- A new subscriber takes the next number and an open channel, and its poller starts if none
runs. -/
theorem subscribe_cases {f : ReceiptFilter} (hstep : h.subscribe f = some (h', noted)) :
    h.mu = none ∧
    noted = (if h.baselined then [.closed h.subscribers.length] else []) ∧
    ∃ stop, ∃ pollers : List Poller,
      h' = { h with
        subs := h.subs ++ [h.subscribers.length]
        subscribers := h.subscribers ++ [{ filter := f, ready := h.baselined }]
        stop := stop
        pollers := pollers } ∧
      ((h.stop ≠ none ∧ stop = h.stop ∧ pollers = h.pollers) ∨
        (h.stop = none ∧ stop = some h.pollers.length ∧
          pollers = h.pollers ++ [({} : Poller)])) := by
  unfold subscribe at hstep
  split at hstep
  · cases hstep
  · next hmu =>
    simp only at hstep
    split at hstep
    · next hstop =>
      obtain ⟨rfl, rfl⟩ := Prod.mk.inj (Option.some.inj hstep)
      exact ⟨Option.not_isSome_iff_eq_none.mp hmu, rfl, h.stop, h.pollers, rfl,
        .inl ⟨Option.isSome_iff_ne_none.mp hstop, rfl, rfl⟩⟩
    · next hstop =>
      obtain ⟨rfl, rfl⟩ := Prod.mk.inj (Option.some.inj hstep)
      exact ⟨Option.not_isSome_iff_eq_none.mp hmu, rfl, _, _, rfl,
        .inr ⟨Option.not_isSome_iff_eq_none.mp hstop, rfl, rfl⟩⟩

/-- What leaving does: the last one out stops the poller and takes the baseline along; any other
is just taken off the list. -/
theorem unsubscribe_cases (hstep : h.unsubscribe sub = some (h', noted)) :
    h.mu = none ∧ sub < h.subscribers.length ∧
      ((∃ p, h.stop = some p ∧ h.subs.filter (· ≠ sub) = [] ∧ noted = [.unsubscribed sub] ∧
        h' = { h with
          subs := []
          stop := none
          baselined := false
          pollers := h.pollers.modify p (fun q => { q with cancelled := true }) }) ∨
      ((h.stop = none ∨ h.subs.filter (· ≠ sub) ≠ []) ∧ noted = [.unsubscribed sub] ∧
        h' = { h with subs := h.subs.filter (· ≠ sub) })) := by
  unfold unsubscribe at hstep
  split_ifs at hstep with hfree
  rw [not_or, Nat.not_le] at hfree
  refine ⟨Option.not_isSome_iff_eq_none.mp hfree.1, hfree.2, ?_⟩
  split at hstep
  · next p hstop =>
    simp only at hstep
    split_ifs at hstep with hnone
    · obtain ⟨rfl, rfl⟩ := Prod.mk.inj (Option.some.inj hstep)
      exact .inl ⟨p, hstop, hnone, rfl, by rw [hnone]⟩
    · obtain ⟨rfl, rfl⟩ := Prod.mk.inj (Option.some.inj hstep)
      exact .inr ⟨.inr hnone, rfl, rfl⟩
  · next hstop =>
    obtain ⟨rfl, rfl⟩ := Prod.mk.inj (Option.some.inj hstep)
    exact .inr ⟨.inl hstop, rfl, rfl⟩

/-- Only the poller's own state changes; it returns only if it was ended. -/
def Moves (h h' : Hub) : Prop :=
  ∃ p f, h' = { h with pollers := h.pollers.modify p f } ∧
    ∀ q, h.pollers[p]? = some q → (f q).cancelled = q.cancelled ∧
      ((f q).place = .returned → q.cancelled = true)

/-- A read happens outside the lock: it notes nothing and moves its own poller only. -/
theorem read_cases {marshal : Receipt → GoString} {outcome : Option (List Receipt × Nat)}
    (hstep : h.read marshal p outcome = some (h', noted)) : noted = [] ∧ h.Moves h' := by
  unfold read at hstep
  split at hstep
  · next q hq =>
    split_ifs at hstep with hplace hcancelled
    · obtain ⟨rfl, rfl⟩ := Prod.mk.inj (Option.some.inj hstep)
      refine ⟨rfl, p, _, rfl, fun q' hq' => ⟨rfl, fun _ => ?_⟩⟩
      obtain rfl := Option.some.inj (hq.symm.trans hq')
      exact hcancelled
    · cases outcome with
      | none =>
        obtain ⟨rfl, rfl⟩ := Prod.mk.inj (Option.some.inj hstep)
        exact ⟨rfl, p, _, rfl, fun q' hq' => ⟨rfl, fun hreturned => by cases hreturned⟩⟩
      | some outcome =>
        obtain ⟨rfl, rfl⟩ := Prod.mk.inj (Option.some.inj hstep)
        exact ⟨rfl, p, _, rfl, fun q' hq' => ⟨rfl, fun hreturned => by cases hreturned⟩⟩
  · cases hstep

/-- A cancelled poller that takes the lock leaves again; any other begins to hand its poll to
each subscriber, in an order of its own. -/
theorem lock_cases {order : List Nat} (hstep : h.lock p order = some (h', noted)) :
    h.mu = none ∧ ((noted = [] ∧ h.Moves h') ∨
      ∃ q poll, h.pollers[p]? = some q ∧ q.cancelled = false ∧ order.Perm h.subs ∧
      noted = [.polled p poll] ∧
        h' = { h with
          pollers := h.pollers.modify p (fun q => { q with place := .handing })
          mu := some { poller := p, poll := poll, todo := order } }) := by
  unfold lock at hstep
  split at hstep
  · next poll cancelled hat =>
    obtain ⟨q, hq, hfields⟩ := Option.map_eq_some_iff.mp hat
    obtain ⟨hplace, rfl⟩ := Prod.mk.inj hfields
    split_ifs at hstep with hmu hcancelled horder
    · obtain ⟨rfl, rfl⟩ := Prod.mk.inj (Option.some.inj hstep)
      refine ⟨Option.not_isSome_iff_eq_none.mp hmu,
        .inl ⟨rfl, p, _, rfl, fun q' hq' => ⟨rfl, fun _ => ?_⟩⟩⟩
      obtain rfl := Option.some.inj (hq.symm.trans hq')
      exact hcancelled
    · obtain ⟨rfl, rfl⟩ := Prod.mk.inj (Option.some.inj hstep)
      exact ⟨Option.not_isSome_iff_eq_none.mp hmu,
        .inr ⟨q, poll, hq, Bool.eq_false_of_not_eq_true hcancelled, horder, rfl, rfl⟩⟩
  · cases hstep

/-- Requests that were missed are added to what the subscriber was not given, once the first
poll is past. -/
theorem tellMissed_cases (hstep : h.tellMissed = some (h', noted)) : ∃ poller poll sub rest,
    h.mu = some { poller := poller, poll := poll, todo := sub :: rest } ∧
    ((0 < poll.missed ∧ h.baselined = true ∧ noted = [.dropped sub poll.missed] ∧
        h' = { h with
          mu := some { poller := poller, poll := poll, todo := rest, stage := .missed sub }
          subscribers := h.subscribers.modify sub
            (fun s => { s with dropped := s.dropped + poll.missed }) }) ∨
      (¬(0 < poll.missed ∧ h.baselined = true) ∧ noted = [] ∧
        h' = { h with mu := some { poller := poller, poll := poll, todo := rest, stage := .missed sub } })) := by
  unfold tellMissed at hstep
  split at hstep
  · next poller poll sub rest hmu =>
    refine ⟨poller, poll, sub, rest, hmu, ?_⟩
    simp only at hstep
    split_ifs at hstep with hmissed
    · obtain ⟨rfl, rfl⟩ := Prod.mk.inj (Option.some.inj hstep)
      exact .inl ⟨hmissed.1, hmissed.2, rfl, rfl⟩
    · obtain ⟨rfl, rfl⟩ := Prod.mk.inj (Option.some.inj hstep)
      exact .inr ⟨hmissed, rfl, rfl⟩
  · cases hstep

/-- The first poll makes a subscriber ready and sends nothing; a later one's changes go to its
channel if there's room, and are left for the next step to count if there's none. -/
theorem deliver_cases (hstep : h.deliver = some (h', noted)) : ∃ poller poll todo sub s,
    h.mu = some { poller := poller, poll := poll, todo := todo, stage := .missed sub } ∧
    h.subscribers[sub]? = some s ∧
    ((h.baselined = false ∧ s.ready = false ∧ noted = [.closed sub] ∧
        h' = { h with
          mu := some { poller := poller, poll := poll, todo := todo }
          subscribers := h.subscribers.modify sub (fun s => { s with ready := true }) }) ∨
      ((h.baselined = false ∧ s.ready = true ∨ h.baselined = true ∧ poll.batch s.filter = []) ∧
        noted = [] ∧
        h' = { h with mu := some { poller := poller, poll := poll, todo := todo } }) ∨
      (h.baselined = true ∧ poll.batch s.filter ≠ [] ∧ s.changes.length < streamBuffer ∧
        noted = [.enqueued sub (poll.batch s.filter)] ∧
        h' = { h with
          mu := some { poller := poller, poll := poll, todo := todo }
          subscribers := h.subscribers.modify sub
            (fun s => { s with changes := s.changes ++ [poll.batch s.filter] }) }) ∨
      (h.baselined = true ∧ noted = [] ∧
        h' = { h with
          mu := some { poller := poller, poll := poll, todo := todo, stage := .full sub (poll.batch s.filter).length } })) := by
  unfold deliver at hstep
  split at hstep
  · next poller poll todo sub hmu =>
    split at hstep
    · next s hs =>
      refine ⟨poller, poll, todo, sub, s, hmu, hs, ?_⟩
      simp only [Bool.not_eq_true'] at hstep
      split_ifs at hstep with hbase hready hbatch hroom
      · obtain ⟨rfl, rfl⟩ := Prod.mk.inj (Option.some.inj hstep)
        exact .inr (.inl ⟨.inl ⟨hbase, hready⟩, rfl, rfl⟩)
      · obtain ⟨rfl, rfl⟩ := Prod.mk.inj (Option.some.inj hstep)
        exact .inl ⟨hbase, Bool.eq_false_of_not_eq_true hready, rfl, rfl⟩
      · obtain ⟨rfl, rfl⟩ := Prod.mk.inj (Option.some.inj hstep)
        exact .inr (.inl ⟨.inr ⟨Bool.eq_true_of_not_eq_false hbase, hbatch⟩, rfl, rfl⟩)
      · obtain ⟨rfl, rfl⟩ := Prod.mk.inj (Option.some.inj hstep)
        exact .inr (.inr (.inl ⟨Bool.eq_true_of_not_eq_false hbase, hbatch, hroom, rfl, rfl⟩))
      · obtain ⟨rfl, rfl⟩ := Prod.mk.inj (Option.some.inj hstep)
        exact .inr (.inr (.inr ⟨Bool.eq_true_of_not_eq_false hbase, rfl, rfl⟩))
    · cases hstep
  · cases hstep

/-- What a full channel couldn't take is added to the subscriber's dropped count. -/
theorem tellFull_cases (hstep : h.tellFull = some (h', noted)) : ∃ poller poll todo sub n,
    h.mu = some { poller := poller, poll := poll, todo := todo, stage := .full sub n } ∧
    noted = [.dropped sub n] ∧
    h' = { h with
      mu := some { poller := poller, poll := poll, todo := todo }
      subscribers := h.subscribers.modify sub (fun s => { s with dropped := s.dropped + n }) } := by
  unfold tellFull at hstep
  split at hstep
  · next poller poll todo sub n hmu =>
    obtain ⟨rfl, rfl⟩ := Prod.mk.inj (Option.some.inj hstep)
    exact ⟨poller, poll, todo, sub, n, hmu, rfl, rfl⟩
  · cases hstep

/-- The lock is given back once nobody is left to tell. -/
theorem unlock_cases (hstep : h.unlock = some (h', noted)) : ∃ poller poll,
    h.mu = some { poller := poller, poll := poll, todo := [] } ∧ noted = [] ∧
    h' = { h with
      baselined := true
      mu := none
      pollers := h.pollers.modify poller (fun q => { q with place := .waiting }) } := by
  unfold unlock at hstep
  split at hstep
  · next poller poll hmu =>
    obtain ⟨rfl, rfl⟩ := Prod.mk.inj (Option.some.inj hstep)
    exact ⟨poller, poll, hmu, rfl, rfl⟩
  · cases hstep

/-- The timer moves its own poller only. -/
theorem tick_cases (hstep : h.tick p = some (h', noted)) : noted = [] ∧ h.Moves h' := by
  unfold tick at hstep
  split_ifs at hstep
  obtain ⟨rfl, rfl⟩ := Prod.mk.inj (Option.some.inj hstep)
  exact ⟨rfl, p, _, rfl, fun q _ => ⟨rfl, fun hreturned => by cases hreturned⟩⟩

/-- A cancelled poller ends without a trace in the hub. -/
theorem halt_cases (hstep : h.halt p = some (h', noted)) : noted = [] ∧ h.Moves h' := by
  unfold halt at hstep
  split_ifs at hstep with hat
  obtain ⟨rfl, rfl⟩ := Prod.mk.inj (Option.some.inj hstep)
  refine ⟨rfl, p, _, rfl, fun q hq => ⟨rfl, fun _ => ?_⟩⟩
  rw [hq] at hat
  exact (Prod.mk.inj (Option.some.inj hat)).2

/-- Receiving takes the oldest batch off the subscriber's own channel. -/
theorem receive_cases (hstep : h.receive sub = some (h', noted)) :
    ∃ s batch rest, h.subscribers[sub]? = some s ∧
    s.changes = batch :: rest ∧ noted = [.received sub batch] ∧
    h' = { h with subscribers := h.subscribers.modify sub (fun s => { s with changes := rest }) } := by
  unfold receive at hstep
  split at hstep
  · next batch rest hchanges =>
    obtain ⟨s, hs, hrest⟩ := Option.map_eq_some_iff.mp hchanges
    obtain ⟨rfl, rfl⟩ := Prod.mk.inj (Option.some.inj hstep)
    exact ⟨s, batch, rest, hs, hrest, rfl, rfl⟩
  · cases hstep

/-- Reading the dropped count resets it, so each missed receipt is reported once. -/
theorem takeDropped_cases (hstep : h.takeDropped sub = some (h', noted)) :
    ∃ s, h.subscribers[sub]? = some s ∧
    noted = [.reported sub s.dropped] ∧
    h' = { h with subscribers := h.subscribers.modify sub (fun s => { s with dropped := 0 }) } := by
  unfold takeDropped at hstep
  split at hstep
  · next s hs =>
    obtain ⟨rfl, rfl⟩ := Prod.mk.inj (Option.some.inj hstep)
    exact ⟨s, hs, rfl, rfl⟩
  · cases hstep

end Hub

namespace hub

/-- The pollers that were not ended are the one that `stop` ends, and none of them has returned. -/
structure Pollers (stop : Option Nat) (pollers : List Poller) : Prop where
  known : ∀ p, stop = some p → p < pollers.length
  current : ∀ (p : Nat) (q : Poller), pollers[p]? = some q → (q.cancelled = false ↔ stop = some p)
  returned : ∀ (p : Nat) (q : Poller), pollers[p]? = some q → q.place = .returned →
    q.cancelled = true

namespace Pollers

variable {stop : Option Nat} {pollers : List Poller} {p : Nat}

private theorem modify {f : Poller → Poller} (h : Pollers stop pollers)
    (hf : ∀ q, pollers[p]? = some q → (f q).cancelled = q.cancelled ∧
      ((f q).place = .returned → q.cancelled = true)) :
    Pollers stop (pollers.modify p f) := by
  refine ⟨fun p' hp' => ?_, fun p' q' hq' => ?_, fun p' q' hq' hreturned => ?_⟩
  · rw [List.length_modify]
    exact h.known p' hp'
  · rw [List.getElem?_modify] at hq'
    obtain ⟨q, hq, rfl⟩ := Option.map_eq_some_iff.mp hq'
    split_ifs with heq
    · subst heq
      rw [(hf q hq).1]
      exact h.current p q hq
    · exact h.current p' q hq
  · rw [List.getElem?_modify] at hq'
    obtain ⟨q, hq, rfl⟩ := Option.map_eq_some_iff.mp hq'
    split_ifs at hreturned ⊢ with heq
    · subst heq
      rw [(hf q hq).1]
      exact (hf q hq).2 hreturned
    · exact h.returned p' q hq hreturned

private theorem start (h : Pollers none pollers) :
    Pollers (some pollers.length) (pollers ++ [({} : Poller)]) := by
  refine ⟨fun p hp => ?_, fun p q hq => ?_, fun p q hq hreturned => ?_⟩
  · rw [← Option.some.inj hp, List.length_append]
    exact Nat.lt_succ_self _
  · rcases Nat.lt_or_ge p pollers.length with hlt | hge
    · rw [List.getElem?_append_left hlt] at hq
      have hcurrent := h.current p q hq
      simp only [Option.some.injEq]
      constructor
      · intro hlive
        cases hcurrent.mp hlive
      · intro heq
        omega
    · obtain ⟨hlt, hq⟩ := List.getElem?_eq_some_iff.mp hq
      obtain rfl : p = pollers.length := by
        rw [List.length_append, List.length_singleton] at hlt
        omega
      rw [List.getElem_append_right (Nat.le_refl _)] at hq
      simp only [Nat.sub_self, List.getElem_cons_zero] at hq
      subst hq
      exact iff_of_true rfl rfl
  · rcases Nat.lt_or_ge p pollers.length with hlt | hge
    · rw [List.getElem?_append_left hlt] at hq
      exact h.returned p q hq hreturned
    · rw [List.getElem?_append_right hge] at hq
      obtain rfl : q = {} := List.mem_singleton.mp (List.mem_of_getElem? hq)
      cases hreturned

private theorem cancel (h : Pollers (some p) pollers) :
    Pollers none (pollers.modify p (fun q => { q with cancelled := true })) := by
  refine ⟨fun p' hp' => (by cases hp'), fun p' q' hq' => ?_, fun p' q' hq' hreturned => ?_⟩
  · rw [List.getElem?_modify] at hq'
    obtain ⟨q, hq, rfl⟩ := Option.map_eq_some_iff.mp hq'
    split_ifs with heq
    · simp
    · have hcurrent := h.current p' q hq
      simp only [Option.some.injEq, heq, iff_false] at hcurrent
      simp [hcurrent]
  · rw [List.getElem?_modify] at hq'
    obtain ⟨q, hq, rfl⟩ := Option.map_eq_some_iff.mp hq'
    split_ifs at hreturned ⊢ with heq
    · rfl
    · exact h.returned p' q hq hreturned

end Pollers

/-- The subscribers that a turn has still to do with. -/
def Turn.left (t : Turn) : List Nat :=
  match t.stage with
  | .next => t.todo
  | .missed sub => sub :: t.todo
  | .full sub _ => sub :: t.todo

end hub

/-- What holds of the hub, its pollers and the turn in progress in every run. -/
structure Hub.Valid (h : Hub) (log : List Effect) : Prop where
  nodup : h.subs.Nodup
  known : ∀ id ∈ h.subs, id < h.subscribers.length
  running : h.stop ≠ none ↔ h.subs ≠ []
  pollers : Pollers h.stop h.pollers
  turn : ∀ t, h.mu = some t → h.stop = some t.poller ∧ t.left.Nodup ∧ (∀ id ∈ t.left, id ∈ h.subs) ∧
    (∃ poll, .polled t.poller poll ∈ log) ∧ ∀ sub n, t.stage = .full sub n → h.baselined = true
  baseline : h.baselined = true → ∃ p, h.stop = some p ∧ ∃ poll, .polled p poll ∈ log

namespace Hub.Valid

variable {h h' : Hub} {log noted : List Effect} {p sub : Nat}

/-- The hub starts with no subscriber, no poller and a free lock. -/
theorem start : Hub.Valid {} [] where
  nodup := List.nodup_nil
  known _ hid := absurd hid List.not_mem_nil
  running := ⟨fun hstop => absurd rfl hstop, fun hsubs => absurd rfl hsubs⟩
  pollers := ⟨fun _ hp => (by cases hp), fun _ _ hq => (by cases hq), fun _ _ hq => (by cases hq)⟩
  turn _ ht := by cases ht
  baseline hbase := by cases hbase

private theorem moves (hvalid : h.Valid log) (hmoves : h.Moves h') : h'.Valid log := by
  obtain ⟨p, f, rfl, hf⟩ := hmoves
  exact { hvalid with pollers := hvalid.pollers.modify hf }

/-- A turn goes on, whatever it does to the subscribers. -/
theorem advance (hvalid : h.Valid log) {t t' : Turn} (ht : h.mu = some t)
    {subscribers : List Subscriber}
    (hpoller : t'.poller = t.poller) (hleft : t'.left.Sublist t.left)
    (hfull : ∀ sub n, t'.stage = .full sub n → h.baselined = true)
    (hlength : subscribers.length = h.subscribers.length) :
    Hub.Valid { h with mu := some t', subscribers := subscribers } (noted ++ log) := by
  obtain ⟨hstop, hnodup, hsubs, ⟨poll, hpolled⟩, _⟩ := hvalid.turn t ht
  refine
    { nodup := hvalid.nodup
      known := fun id hid => hlength ▸ hvalid.known id hid
      running := hvalid.running
      pollers := hvalid.pollers
      turn := fun t'' ht'' => ?_
      baseline := fun hbase => ?_ }
  · obtain rfl := Option.some.inj ht''
    refine ⟨hpoller ▸ hstop, hnodup.sublist hleft, fun id hid => hsubs id (hleft.subset hid),
      ⟨poll, ?_⟩, hfull⟩
    rw [hpoller]
    exact List.mem_append_right _ hpolled
  · obtain ⟨p, hp, poll', hpoll'⟩ := hvalid.baseline hbase
    exact ⟨p, hp, poll', List.mem_append_right _ hpoll'⟩

private theorem subscribe {f : ReceiptFilter} (hvalid : h.Valid log)
    (hstep : h.subscribe f = some (h', noted)) :
    h'.Valid (noted ++ log) := by
  obtain ⟨hmu, hnoted, stop, pollers, rfl, hstop⟩ := Hub.subscribe_cases hstep
  have hfresh : h.subscribers.length ∉ h.subs := fun hid => Nat.lt_irrefl _ (hvalid.known _ hid)
  have hpollers : Pollers stop pollers ∧ (∀ p, h.stop = some p → stop = some p) ∧ stop ≠ none := by
    rcases hstop with ⟨hsome, rfl, rfl⟩ | ⟨hnone, rfl, rfl⟩
    · exact ⟨hvalid.pollers, fun _ hp => hp, hsome⟩
    · refine ⟨?_, fun p hp => ?_, nofun⟩
      · have hpollers := hvalid.pollers
        rw [hnone] at hpollers
        exact hpollers.start
      · rw [hnone] at hp
        cases hp
  obtain ⟨hpollers, hsame, hsome⟩ := hpollers
  refine
    { nodup := List.nodup_append.mpr ⟨hvalid.nodup, List.nodup_singleton _, fun a ha b hb hab => ?_⟩
      known := fun id hid => ?_
      running := ?_
      pollers := hpollers
      turn := fun t ht => ?_
      baseline := fun hbase => ?_ }
  · rw [List.mem_singleton.mp hb] at hab
    exact hfresh (hab ▸ ha)
  · rw [List.length_append, List.length_singleton]
    rcases List.mem_append.mp hid with hid | hid
    · exact Nat.lt_succ_of_lt (hvalid.known id hid)
    · rw [List.mem_singleton.mp hid]
      exact Nat.lt_succ_self _
  · simp [hsome]
  · cases hmu.symm.trans ht
  · obtain ⟨p, hp, poll, hpoll⟩ := hvalid.baseline hbase
    exact ⟨p, hsame p hp, poll, List.mem_append_right _ hpoll⟩

private theorem unsubscribe (hvalid : h.Valid log) (hstep : h.unsubscribe sub = some (h', noted)) :
    h'.Valid (noted ++ log) := by
  obtain ⟨hmu, hsub, hcases⟩ := Hub.unsubscribe_cases hstep
  rcases hcases with ⟨p, hstop, hnone, rfl, rfl⟩ | ⟨hkept, rfl, rfl⟩
  · have hpollers := hvalid.pollers
    rw [hstop] at hpollers
    exact
      { nodup := List.nodup_nil
        known := fun id hid => absurd hid List.not_mem_nil
        running := ⟨fun hstop => absurd rfl hstop, fun hsubs => absurd rfl hsubs⟩
        pollers := hpollers.cancel
        turn := fun t ht => by cases hmu.symm.trans ht
        baseline := fun hbase => by cases hbase }
  · refine
      { nodup := hvalid.nodup.filter _
        known := fun id hid => hvalid.known id (List.mem_of_mem_filter hid)
        running := ?_
        pollers := hvalid.pollers
        turn := fun t ht => by cases hmu.symm.trans ht
        baseline := fun hbase => ?_ }
    · rcases hkept with hnone | hkept
      · have hempty : h.subs = [] := by
          by_contra hsubs
          exact hvalid.running.mpr hsubs hnone
        simp [hnone, hempty]
      · refine iff_of_true (hvalid.running.mpr fun hempty => hkept ?_) hkept
        rw [hempty]
        rfl
    · obtain ⟨p, hp, poll, hpoll⟩ := hvalid.baseline hbase
      exact ⟨p, hp, poll, List.mem_cons_of_mem _ hpoll⟩

private theorem lock {order : List Nat} (hvalid : h.Valid log)
    (hstep : h.lock p order = some (h', noted)) :
    h'.Valid (noted ++ log) := by
  obtain ⟨hmu, ⟨rfl, hmoves⟩ | ⟨q, poll, hq, hlive, horder, rfl, rfl⟩⟩ := Hub.lock_cases hstep
  · exact hvalid.moves hmoves
  · have hstop : h.stop = some p := (hvalid.pollers.current p q hq).mp hlive
    have hmoved : Pollers h.stop (h.pollers.modify p (fun q => { q with place := .handing })) :=
      hvalid.pollers.modify fun q _ => ⟨rfl, nofun⟩
    refine
      { nodup := hvalid.nodup
        known := hvalid.known
        running := hvalid.running
        pollers := hmoved
        turn := fun t ht => ?_
        baseline := fun hbase => ?_ }
    · obtain rfl := Option.some.inj ht
      exact ⟨hstop, horder.nodup_iff.mpr hvalid.nodup, fun id hid => horder.mem_iff.mp hid,
        ⟨poll, List.mem_cons_self⟩, nofun⟩
    · obtain ⟨p', hp', poll', hpoll'⟩ := hvalid.baseline hbase
      exact ⟨p', hp', poll', List.mem_cons_of_mem _ hpoll'⟩

private theorem tellMissed (hvalid : h.Valid log) (hstep : h.tellMissed = some (h', noted)) : h'.Valid (noted ++ log) := by
  obtain ⟨poller, poll, sub, rest, hmu, ⟨_, _, rfl, rfl⟩ | ⟨_, rfl, rfl⟩⟩ := Hub.tellMissed_cases hstep
  · exact hvalid.advance hmu rfl (List.Sublist.refl _) nofun (List.length_modify ..)
  · exact hvalid.advance hmu rfl (List.Sublist.refl _) nofun rfl

private theorem deliver (hvalid : h.Valid log) (hstep : h.deliver = some (h', noted)) : h'.Valid (noted ++ log) := by
  obtain ⟨poller, poll, todo, sub, s, hmu, hs, hcases⟩ := Hub.deliver_cases hstep
  have hleft : todo.Sublist (sub :: todo) := List.sublist_cons_self sub todo
  rcases hcases with ⟨_, _, rfl, rfl⟩ | ⟨_, rfl, rfl⟩ | ⟨_, _, _, rfl, rfl⟩ | ⟨hbase, rfl, rfl⟩
  · exact hvalid.advance hmu rfl hleft nofun (List.length_modify ..)
  · exact hvalid.advance hmu rfl hleft nofun rfl
  · exact hvalid.advance hmu rfl hleft nofun (List.length_modify ..)
  · exact hvalid.advance hmu rfl (List.Sublist.refl _) (fun _ _ _ => hbase) rfl

private theorem tellFull (hvalid : h.Valid log) (hstep : h.tellFull = some (h', noted)) :
    h'.Valid (noted ++ log) := by
  obtain ⟨poller, poll, todo, sub, n, hmu, rfl, rfl⟩ := Hub.tellFull_cases hstep
  exact hvalid.advance hmu rfl (List.sublist_cons_self sub todo) nofun (List.length_modify ..)

private theorem unlock (hvalid : h.Valid log) (hstep : h.unlock = some (h', noted)) :
    h'.Valid (noted ++ log) := by
  obtain ⟨poller, poll, hmu, rfl, rfl⟩ := Hub.unlock_cases hstep
  obtain ⟨hstop, _, _, hpolled, _⟩ := hvalid.turn _ hmu
  have hmoved : Pollers h.stop (h.pollers.modify poller (fun q => { q with place := .waiting })) :=
    hvalid.pollers.modify fun q _ => ⟨rfl, nofun⟩
  exact
    { nodup := hvalid.nodup
      known := hvalid.known
      running := hvalid.running
      pollers := hmoved
      turn := nofun
      baseline := fun _ => ⟨poller, hstop, hpolled⟩ }

/-- Something happens to a subscriber outside the turns. -/
theorem modifySub (hvalid : h.Valid log) {f : Subscriber → Subscriber} {e : Effect} :
    Hub.Valid { h with subscribers := h.subscribers.modify sub f } (e :: log) :=
  { nodup := hvalid.nodup
    known := fun id hid => by
      rw [List.length_modify]
      exact hvalid.known id hid
    running := hvalid.running
    pollers := hvalid.pollers
    turn := fun t ht => by
      obtain ⟨hstop, hnodup, hsubs, ⟨poll, hpoll⟩, hfull⟩ := hvalid.turn t ht
      exact ⟨hstop, hnodup, hsubs, ⟨poll, List.mem_cons_of_mem _ hpoll⟩, hfull⟩
    baseline := fun hbase => by
      obtain ⟨p, hp, poll, hpoll⟩ := hvalid.baseline hbase
      exact ⟨p, hp, poll, List.mem_cons_of_mem _ hpoll⟩ }

/-- Every step keeps the hub's bookkeeping, whichever party takes it. -/
theorem step {marshal : Receipt → GoString} {a : Action} (hvalid : h.Valid log)
    (hstep : hub.step marshal h a = some (h', noted)) : h'.Valid (noted ++ log) := by
  cases a with
  | subscribe f => exact hvalid.subscribe hstep
  | unsubscribe sub => exact hvalid.unsubscribe hstep
  | read p outcome =>
    obtain ⟨rfl, hmoves⟩ := Hub.read_cases hstep
    exact hvalid.moves hmoves
  | lock p order => exact hvalid.lock hstep
  | tellMissed => exact hvalid.tellMissed hstep
  | deliver => exact hvalid.deliver hstep
  | tellFull => exact hvalid.tellFull hstep
  | unlock => exact hvalid.unlock hstep
  | tick p =>
    obtain ⟨rfl, hmoves⟩ := Hub.tick_cases hstep
    exact hvalid.moves hmoves
  | halt p =>
    obtain ⟨rfl, hmoves⟩ := Hub.halt_cases hstep
    exact hvalid.moves hmoves
  | receive sub =>
    obtain ⟨s, batch, rest, _, _, rfl, rfl⟩ := Hub.receive_cases hstep
    exact hvalid.modifySub
  | takeDropped sub =>
    obtain ⟨s, _, rfl, rfl⟩ := Hub.takeDropped_cases hstep
    exact hvalid.modifySub

end Hub.Valid

end openmeter
