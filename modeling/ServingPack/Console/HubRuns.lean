import ServingPack.Console.HubInvariant

open golang concurrency

namespace openmeter

open hub

namespace hub

/-- Some polls were handed to a subscriber: what each missed is counted, and the changes that
its filter matches are enqueued in one batch, or counted. -/
inductive Handed (f : ReceiptFilter) : List Poll → List (List StreamChange) → Nat → Prop
  | nil : Handed f [] [] 0
  | enqueued {polls : List Poll} {batches : List (List StreamChange)} {n : Nat} (poll : Poll)
      (h : Handed f polls batches n) (hbatch : poll.batch f ≠ []) :
      Handed f (polls ++ [poll]) (batches ++ [poll.batch f]) (n + poll.missed)
  | counted {polls : List Poll} {batches : List (List StreamChange)} {n : Nat} (poll : Poll)
      (h : Handed f polls batches n) :
        Handed f (polls ++ [poll]) batches (n + poll.missed + (poll.batch f).length)

/-- The requests a poll has for a subscriber: the changes its filter matches, and what was
missed. -/
def Poll.weight (f : ReceiptFilter) (poll : Poll) : Nat := (poll.batch f).length + poll.missed

private theorem Handed.sum {f : ReceiptFilter} {polls : List Poll}
    {batches : List (List StreamChange)} {n : Nat} (h : Handed f polls batches n) :
    (batches.map List.length).sum + n = (polls.map (Poll.weight f)).sum := by
  induction h with
  | nil => rfl
  | enqueued poll _ _ ih =>
    simp only [List.map_append, List.sum_append, List.map_singleton, List.sum_singleton, ← ih,
      Poll.weight]
    omega
  | counted poll _ ih =>
    simp only [List.map_append, List.sum_append, List.map_singleton, List.sum_singleton, ← ih,
      Poll.weight]
    omega

/-- The batches come in the order of the polls. -/
theorem Handed.sublist {f : ReceiptFilter} {polls : List Poll} {batches : List (List StreamChange)}
    {n : Nat} (h : Handed f polls batches n) : batches.Sublist (polls.map (Poll.batch · f)) := by
  induction h with
  | nil => exact List.Sublist.refl _
  | enqueued poll _ _ ih =>
    rw [List.map_append]
    exact ih.append (List.Sublist.refl _)
  | counted poll _ ih =>
    rw [List.map_append]
    exact ih.trans (List.sublist_append_left _ _)

/-- What the turn in progress has still to hand to a subscriber. -/
inductive Due where
  | nothing
  | all (poll : Poll)
  /-- What was missed is counted. -/
  | changes (poll : Poll)
  /-- The channel had no room for so many changes. -/
  | full (poll : Poll) (n : Nat)

def Turn.due (t : Turn) (id : Nat) : Due :=
  if id ∈ t.todo then .all t.poll
  else
    match t.stage with
    | .next => .nothing
    | .missed sub => if sub = id then .changes t.poll else .nothing
    | .full sub n => if sub = id then .full t.poll n else .nothing

def Due.weight (f : ReceiptFilter) : Due → Nat
  | .nothing => 0
  | .all poll => poll.weight f
  | .changes poll => (poll.batch f).length
  | .full _ n => n

end hub

/-- Before the baseline nothing is handed to a subscriber. -/
def Hub.due (h : Hub) (id : Nat) : Due :=
  if h.baselined then
    match h.mu with
    | some t => t.due id
    | none => .nothing
  else .nothing

namespace hub

/-- A subscriber was handed every poll but what is due. -/
def Settled (f : ReceiptFilter) (a : Account) : Due → Prop
  | .nothing => Handed f a.polls a.enqueued a.dropped
  | .all poll => ∃ before, a.polls = before ++ [poll] ∧ Handed f before a.enqueued a.dropped
  | .changes poll => ∃ before n, a.polls = before ++ [poll] ∧ Handed f before a.enqueued n ∧
      a.dropped = n + poll.missed
  | .full poll n => ∃ before m, a.polls = before ++ [poll] ∧ Handed f before a.enqueued m ∧
      a.dropped = m + poll.missed ∧ n = (poll.batch f).length

section Settled

variable {f : ReceiptFilter} {a : Account} {due : Due}

private theorem Settled.sum (h : Settled f a due) :
    (a.enqueued.map List.length).sum + a.dropped + due.weight f =
    (a.polls.map (Poll.weight f)).sum := by
  cases due with
  | nothing => exact h.sum
  | all poll =>
    obtain ⟨before, hpolls, h⟩ := h
    simp only [hpolls, List.map_append, List.sum_append, List.map_singleton, List.sum_singleton,
      ← h.sum, Due.weight]
  | changes poll =>
    obtain ⟨before, n, hpolls, h, hdropped⟩ := h
    simp only [hpolls, hdropped, List.map_append, List.sum_append, List.map_singleton,
      List.sum_singleton, ← h.sum, Due.weight, Poll.weight]
    omega
  | full poll n =>
    obtain ⟨before, m, hpolls, h, hdropped, rfl⟩ := h
    simp only [hpolls, hdropped, List.map_append, List.sum_append, List.map_singleton,
      List.sum_singleton, ← h.sum, Due.weight, Poll.weight]
    omega

private theorem Settled.sublist (h : Settled f a due) :
    a.enqueued.Sublist (a.polls.map (Poll.batch · f)) := by
  have hbefore {before : List Poll} {poll : Poll} {n : Nat} (hpolls : a.polls = before ++ [poll])
      (h : Handed f before a.enqueued n) : a.enqueued.Sublist (a.polls.map (Poll.batch · f)) := by
    rw [hpolls, List.map_append]
    exact h.sublist.trans (List.sublist_append_left _ _)
  cases due with
  | nothing => exact h.sublist
  | all poll =>
    obtain ⟨before, hpolls, h⟩ := h
    exact hbefore hpolls h
  | changes poll =>
    obtain ⟨before, n, hpolls, h, _⟩ := h
    exact hbefore hpolls h
  | full poll n =>
    obtain ⟨before, m, hpolls, h, _⟩ := h
    exact hbefore hpolls h

end Settled

/-- The subscribers are ready from the baseline on, one after the other while it is handed out. -/
def Opens (h : Hub) (id : Nat) : Prop := h.baselined = true ∨ ∃ t, h.mu = some t ∧ id ∉ t.left

/-- What holds of a subscriber and what it has seen. -/
structure Stream (h : Hub) (id : Nat) (s : Subscriber) (a : Account) : Prop where
  left : a.left = true ↔ id ∉ h.subs
  closed : a.closed = if s.ready then 1 else 0
  ready : id ∈ h.subs → (s.ready = true ↔ Opens h id)
  queued : a.enqueued = a.received ++ s.changes
  told : a.dropped = a.reported + s.dropped
  room : s.changes.length ≤ streamBuffer
  settled : Settled s.filter a (h.due id)

structure Streams (h : Hub) (log : List Effect) : Prop where
  fresh : ∀ id, h.subscribers.length ≤ id → account id log = {}
  each : ∀ id s, h.subscribers[id]? = some s → Stream h id s (account id log)

section Stream

variable {h h' : Hub} {id : Nat} {s : Subscriber} {a : Account}

private theorem Stream.congr (hs : Stream h id s a) (hsubs : id ∈ h'.subs ↔ id ∈ h.subs)
    (hopens : id ∈ h.subs → (Opens h' id ↔ Opens h id)) (hdue : h'.due id = h.due id) :
    Stream h' id s a where
  left := hs.left.trans (not_congr hsubs).symm
  closed := hs.closed
  ready hid := (hs.ready (hsubs.mp hid)).trans (hopens (hsubs.mp hid)).symm
  queued := hs.queued
  told := hs.told
  room := hs.room
  settled := hdue ▸ hs.settled

private theorem due_of_free (hmu : h.mu = none) : h.due id = .nothing := by
  unfold Hub.due
  rw [hmu, ite_self]

private theorem settled_of_free {f : ReceiptFilter} (hmu : h.mu = none) :
    Settled f a (h.due id) ↔ Handed f a.polls a.enqueued a.dropped := by
  rw [due_of_free hmu]
  rfl

private theorem opens_of_free (hmu : h.mu = none) : Opens h id ↔ h.baselined = true := by
  simp [Opens, hmu]

private theorem due_of_turn {t : Turn} (hmu : h.mu = some t) :
    h.due id = if h.baselined then t.due id else .nothing := by
  unfold Hub.due
  rw [hmu]

private theorem opens_of_turn {t : Turn} (hmu : h.mu = some t) :
    Opens h id ↔ h.baselined = true ∨ id ∉ t.left := by
  simp [Opens, hmu]

private theorem due_congr {t t' : Turn} (hmu : h.mu = some t) (hmu' : h'.mu = some t')
    (hbase : h'.baselined = h.baselined) (hdue : t'.due id = t.due id) : h'.due id = h.due id := by
  rw [due_of_turn hmu', due_of_turn hmu, hbase, hdue]

private theorem opens_congr {t t' : Turn} (hmu : h.mu = some t) (hmu' : h'.mu = some t')
    (hbase : h'.baselined = h.baselined)
    (hleft : id ∈ t'.left ↔ id ∈ t.left) : Opens h' id ↔ Opens h id := by
  rw [opens_of_turn hmu', opens_of_turn hmu, hbase, hleft]

end Stream

namespace Streams

variable {h h' : Hub} {log noted : List Effect} {p sub : Nat}

private theorem start : Streams {} [] where
  fresh _ _ := rfl
  each _ _ hs := by cases hs

private theorem moves (hstreams : Streams h log) (hmoves : h.Moves h') : Streams h' log := by
  obtain ⟨p, f, rfl, _⟩ := hmoves
  exact { fresh := hstreams.fresh, each := fun id s hs => (hstreams.each id s hs).congr Iff.rfl (fun _ => Iff.rfl) rfl }

private theorem subscribe {f : ReceiptFilter} (hstreams : Streams h log)
    (hstep : h.subscribe f = some (h', noted)) : Streams h' (noted ++ log) := by
  obtain ⟨hmu, rfl, stop, pollers, rfl, _⟩ := Hub.subscribe_cases hstep
  have hother {id : Nat} (hid : h.subscribers.length ≠ id) :
      account id ((if h.baselined then [.closed h.subscribers.length] else []) ++ log) =
        account id log := by
    split_ifs
    · exact if_neg hid
    · rfl
  have hnew : account h.subscribers.length
    ((if h.baselined then [.closed h.subscribers.length] else []) ++ log) =
      { closed := if h.baselined then 1 else 0 } := by
    have hfresh := hstreams.fresh _ (Nat.le_refl _)
    split_ifs
    · simp [account, Account.note, hfresh]
    · exact hfresh
  refine { fresh := fun id hid => ?_, each := fun id s hs => ?_ }
  · rw [List.length_append, List.length_singleton] at hid
    rw [hother (by omega)]
    exact hstreams.fresh id (by omega)
  · rcases Nat.lt_or_ge id h.subscribers.length with hlt | hge
    · rw [List.getElem?_append_left hlt] at hs
      rw [hother (by omega)]
      refine (hstreams.each id s hs).congr ?_ (fun _ => Iff.rfl) rfl
      rw [List.mem_append, List.mem_singleton]
      exact or_iff_left (by omega)
    · obtain ⟨hlt, hget⟩ := List.getElem?_eq_some_iff.mp hs
      obtain rfl : id = h.subscribers.length := by
        rw [List.length_append, List.length_singleton] at hlt
        omega
      rw [List.getElem_append_right (Nat.le_refl _)] at hget
      simp only [Nat.sub_self, List.getElem_cons_zero] at hget
      subst hget
      rw [hnew]
      exact
        { left := by simp
          closed := rfl
          ready := fun _ => (opens_of_free hmu).symm
          queued := rfl
          told := rfl
          room := Nat.zero_le _
          settled := (settled_of_free hmu).mpr .nil }

private theorem unsubscribe (hstreams : Streams h log)
    (hstep : h.unsubscribe sub = some (h', noted)) :
    Streams h' (noted ++ log) := by
  obtain ⟨hmu, hsub, hcases⟩ := Hub.unsubscribe_cases hstep
  have hafter : h'.mu = none ∧ h'.subs = h.subs.filter (· ≠ sub) ∧ h'.subscribers = h.subscribers ∧
      (h'.baselined = h.baselined ∨ h.subs.filter (· ≠ sub) = []) := by
    rcases hcases with ⟨p, _, hnone, _, rfl⟩ | ⟨_, _, rfl⟩
    · exact ⟨hmu, hnone.symm, rfl, .inr hnone⟩
    · exact ⟨hmu, rfl, rfl, .inl rfl⟩
  have haccount (id : Nat) :
      account id (noted ++ log) = (account id log).note id (.unsubscribed sub) := by
    rcases hcases with ⟨p, _, _, rfl, _⟩ | ⟨_, rfl, _⟩ <;> rfl
  obtain ⟨hfree, hsubs, hsame, hbase⟩ := hafter
  refine { fresh := fun id hid => ?_, each := fun id s hs => ?_ }
  · rw [hsame] at hid
    rw [haccount, hstreams.fresh id hid]
    exact if_neg (by omega)
  · rw [hsame] at hs
    have hstream := hstreams.each id s hs
    have hsettled := hstream.settled
    rw [due_of_free hmu] at hsettled
    have hmem : id ∈ h'.subs ↔ id ∈ h.subs ∧ id ≠ sub := by simp [hsubs]
    rw [haccount]
    by_cases hid : sub = id
    · rw [Account.note, if_pos hid]
      refine
        { hstream with
          left := ?_
          ready := fun hin => absurd hid.symm (hmem.mp hin).2
          settled := ?_ }
      · simp [hmem, hid]
      · rw [due_of_free hfree]
        exact hsettled
    · rw [Account.note, if_neg hid]
      refine hstream.congr (hmem.trans (and_iff_left (Ne.symm hid))) (fun hin => ?_) ?_
      · rcases hbase with hbase | hnone
        · rw [opens_of_free hfree, opens_of_free hmu, hbase]
        · rw [hsubs, hnone] at hmem
          exact absurd (hmem.mpr ⟨hin, Ne.symm hid⟩) List.not_mem_nil
      · rw [due_of_free hfree, due_of_free hmu]

private theorem lock {order : List Nat} (hstreams : Streams h log)
    (hstep : h.lock p order = some (h', noted)) : Streams h' (noted ++ log) := by
  obtain ⟨hmu, ⟨rfl, hmoves⟩ | ⟨q, poll, hq, hlive, horder, rfl, rfl⟩⟩ := Hub.lock_cases hstep
  · exact hstreams.moves hmoves
  · refine { fresh := fun id hid => ?_, each := fun id s hs => ?_ }
    · simp [account, Account.note, hstreams.fresh id hid]
    · have hstream := hstreams.each id s hs
      have hsettled := hstream.settled
      rw [due_of_free hmu] at hsettled
      have hopens (hin : id ∈ h.subs) : s.ready = h.baselined := by
        rw [Bool.eq_iff_iff, hstream.ready hin, opens_of_free hmu]
      have hready (hin : id ∈ h.subs) (hbase : (0 < (account id log).closed ∧ (account id log).left = false)) :
          h.baselined = true := by
        rw [← hopens hin]
        by_contra hnot
        rw [hstream.closed, if_neg hnot] at hbase
        exact Nat.lt_irrefl 0 hbase.1
      have hin : (account id log).left = false ↔ id ∈ h.subs := by
        rw [← Bool.not_eq_true, hstream.left, not_not]
      have hcounted : (0 < (account id log).closed ∧ (account id log).left = false) ↔ id ∈ h.subs ∧ h.baselined = true := by
        constructor
        · intro hcounted
          exact ⟨hin.mp hcounted.2, hready (hin.mp hcounted.2) hcounted⟩
        · rintro ⟨hid, hbase⟩
          rw [hstream.closed, hopens hid, hbase]
          exact ⟨Nat.one_pos, hin.mpr hid⟩
      have hdue : Hub.due { h with
          pollers := h.pollers.modify p (fun q => { q with place := .handing })
          mu := some { poller := p, poll := poll, todo := order } } id =
            if id ∈ h.subs ∧ h.baselined = true then .all poll else .nothing := by
        rw [due_of_turn rfl]
        simp only [Turn.due, horder.mem_iff, ite_and]
        split_ifs <;> rfl
      have hopens' : id ∈ h.subs → (Opens { h with
          pollers := h.pollers.modify p (fun q => { q with place := .handing })
          mu := some { poller := p, poll := poll, todo := order } } id ↔ Opens h id) := by
        intro hid
        rw [opens_of_turn rfl, opens_of_free hmu]
        exact or_iff_left fun hnot => hnot (horder.mem_iff.mpr hid)
      show Stream _ id s ((account id log).note id (.polled p poll))
      rw [Account.note]
      by_cases hgets : id ∈ h.subs ∧ h.baselined = true
      · rw [if_pos (hcounted.mpr hgets)]
        refine { hstream with ready := fun hid => (hstream.ready hid).trans (hopens' hid).symm, settled := ?_ }
        rw [hdue, if_pos hgets]
        exact ⟨_, rfl, hsettled⟩
      · rw [if_neg (mt hcounted.mp hgets)]
        refine hstream.congr Iff.rfl hopens' ?_
        rw [hdue, if_neg hgets, due_of_free hmu]

/-- A step that deals with one subscriber. -/
theorem only (hstreams : Streams h log) {s : Subscriber} (hs : h.subscribers[sub]? = some s)
    (f : Subscriber → Subscriber)
    (hsubs : h'.subs = h.subs) (hsubscribers : h'.subscribers = h.subscribers.modify sub f)
    (hnote : ∀ id, sub ≠ id → account id (noted ++ log) = account id log)
    (hdue : ∀ id, sub ≠ id → h'.due id = h.due id)
    (hopens : ∀ id, sub ≠ id → (Opens h' id ↔ Opens h id))
    (hone : Stream h sub s (account sub log) → Stream h' sub (f s) (account sub (noted ++ log))) :
    Streams h' (noted ++ log) := by
  have hlt : sub < h.subscribers.length := (List.getElem?_eq_some_iff.mp hs).1
  refine { fresh := fun id hid => ?_, each := fun id s' hs' => ?_ }
  · rw [hsubscribers, List.length_modify] at hid
    rw [hnote id (by omega)]
    exact hstreams.fresh id hid
  · rw [hsubscribers, List.getElem?_modify] at hs'
    obtain ⟨s₀, hs₀, rfl⟩ := Option.map_eq_some_iff.mp hs'
    by_cases hid : sub = id
    · subst hid
      obtain rfl := Option.some.inj (hs.symm.trans hs₀)
      rw [if_pos rfl]
      exact hone (hstreams.each sub s hs)
    · rw [if_neg hid, hnote id hid]
      exact (hstreams.each id s₀ hs₀).congr (hsubs ▸ Iff.rfl) (fun _ => hopens id hid) (hdue id hid)

/-- The next subscriber of a turn is a subscriber, and is not come to again. -/
theorem next_known (hvalid : h.Valid log) {t : Turn} (hmu : h.mu = some t) {rest : List Nat}
    (hleft : t.left = sub :: rest) :
    (∃ s, h.subscribers[sub]? = some s) ∧ sub ∈ h.subs ∧ sub ∉ rest := by
  obtain ⟨_, hnodup, hsubs, _⟩ := hvalid.turn t hmu
  rw [hleft] at hnodup hsubs
  have hsub := hsubs sub List.mem_cons_self
  exact ⟨⟨_, List.getElem?_eq_getElem (hvalid.known sub hsub)⟩, hsub, (List.nodup_cons.mp hnodup).1⟩

private theorem tellMissed (hstreams : Streams h log) (hvalid : h.Valid log) (hstep : h.tellMissed = some (h', noted)) :
    Streams h' (noted ++ log) := by
  obtain ⟨poller, poll, sub, rest, hmu, hcases⟩ := Hub.tellMissed_cases hstep
  obtain ⟨⟨s, hs⟩, hsub, hrest⟩ := next_known hvalid hmu rfl
  have hskip (id : Nat) (hid : sub ≠ id) :
      Turn.due { poller := poller, poll := poll, todo := rest, stage := .missed sub } id =
        Turn.due { poller := poller, poll := poll, todo := sub :: rest } id := by
    simp [Turn.due, hid, Ne.symm hid]
  have hbefore : Turn.due { poller := poller, poll := poll, todo := sub :: rest } sub = .all poll := by simp [Turn.due]
  have hafter : Turn.due { poller := poller, poll := poll, todo := rest, stage := .missed sub } sub = .changes poll := by
    simp [Turn.due, hrest]
  rcases hcases with ⟨hmissed, hbase, rfl, rfl⟩ | ⟨hnone, rfl, rfl⟩
  · refine hstreams.only hs (fun s => { s with dropped := s.dropped + poll.missed }) rfl rfl (fun id hid => if_neg hid)
      (fun id hid => ?_) (fun id _ => ?_) (fun hstream => ?_)
    · exact due_congr hmu rfl rfl (hskip id hid)
    · exact opens_congr hmu rfl rfl Iff.rfl
    · have hsettled := hstream.settled
      rw [due_of_turn hmu, hbase, if_pos rfl, hbefore] at hsettled
      obtain ⟨before, hpolls, hhanded⟩ := hsettled
      show Stream _ sub _ ((account sub log).note sub (.dropped sub poll.missed))
      rw [Account.note, if_pos rfl]
      refine { hstream with ready := fun hin => (hstream.ready hin).trans (Iff.symm ?_), told := ?_, settled := ?_ }
      · exact opens_congr hmu rfl rfl Iff.rfl
      · simp only [hstream.told]
        omega
      · rw [due_of_turn rfl, hbase, if_pos rfl, hafter]
        exact ⟨before, _, hpolls, hhanded, rfl⟩
  · refine hstreams.only hs id rfl (List.modify_id ..).symm (fun _ _ => rfl) (fun id hid => ?_) (fun id _ => ?_)
      (fun hstream => ?_)
    · exact due_congr hmu rfl rfl (hskip id hid)
    · exact opens_congr hmu rfl rfl Iff.rfl
    · have hsettled := hstream.settled
      rw [due_of_turn hmu, hbefore] at hsettled
      refine { hstream with ready := fun hin => (hstream.ready hin).trans (Iff.symm ?_), settled := ?_ }
      · exact opens_congr hmu rfl rfl Iff.rfl
      · rw [due_of_turn rfl, hafter]
        by_cases hbase : h.baselined = true
        · rw [if_pos hbase] at hsettled ⊢
          obtain ⟨before, hpolls, hhanded⟩ := hsettled
          have hzero : poll.missed = 0 := Nat.eq_zero_of_not_pos fun hmissed => hnone ⟨hmissed, hbase⟩
          exact ⟨before, _, hpolls, hhanded, by rw [hzero]; rfl⟩
        · rw [if_neg hbase] at hsettled ⊢
          exact hsettled

/-- A turn is done with the changes of a subscriber. -/
theorem finish (hstreams : Streams h log) {t : Turn} {todo : List Nat} {s : Subscriber}
    (hmu : h.mu = some t) (hleft : t.left = sub :: todo) (htodo : t.todo = todo)
    (hs : h.subscribers[sub]? = some s) (f : Subscriber → Subscriber)
    (hnote : ∀ id, sub ≠ id → account id (noted ++ log) = account id log)
    (hone : Stream h sub s (account sub log) →
      Stream { h with
        mu := some { poller := t.poller, poll := t.poll, todo := todo }
        subscribers := h.subscribers.modify sub f } sub (f s) (account sub (noted ++ log))) :
    Streams { h with
      mu := some { poller := t.poller, poll := t.poll, todo := todo }
      subscribers := h.subscribers.modify sub f } (noted ++ log) := by
  refine hstreams.only hs f rfl rfl hnote (fun id hid => ?_) (fun id hid => ?_) hone
  · refine due_congr hmu rfl rfl ?_
    have hafter : Turn.due { poller := t.poller, poll := t.poll, todo := todo } id =
        if id ∈ todo then .all t.poll else .nothing :=
      rfl
    rw [hafter, Turn.due, htodo]
    rw [Turn.left] at hleft
    cases hstage : t.stage with
    | next => rfl
    | missed sub' =>
      rw [hstage] at hleft
      have hsub : sub' = sub := (List.cons.inj hleft).1
      simp only [hsub, if_neg hid]
    | full sub' n =>
      rw [hstage] at hleft
      have hsub : sub' = sub := (List.cons.inj hleft).1
      simp only [hsub, if_neg hid]
  · refine opens_congr hmu rfl rfl ?_
    rw [hleft, List.mem_cons]
    exact (or_iff_right (Ne.symm hid)).symm

private theorem deliver (hstreams : Streams h log) (hvalid : h.Valid log)
    (hstep : h.deliver = some (h', noted)) :
    Streams h' (noted ++ log) := by
  obtain ⟨poller, poll, todo, sub, s, hmu, hs, hcases⟩ := Hub.deliver_cases hstep
  obtain ⟨_, hsub, htodo⟩ := next_known hvalid hmu rfl
  have hbefore : Turn.due { poller := poller, poll := poll, todo := todo, stage := .missed sub } sub = .changes poll := by
    simp [Turn.due, htodo]
  have hafter : Turn.due { poller := poller, poll := poll, todo := todo } sub = .nothing := by
    simp [Turn.due, htodo]
  have hopens (hin : sub ∈ h.subs)
      (hstream : Stream h sub s (account sub log)) : s.ready = h.baselined := by
    rw [Bool.eq_iff_iff, hstream.ready hin, opens_of_turn hmu]
    exact or_iff_left fun hnot => hnot List.mem_cons_self
  rcases hcases with ⟨hbase, hready, rfl, rfl⟩ | ⟨hnone, rfl, rfl⟩ | ⟨hbase, hbatch, hroom, rfl,
    rfl⟩ | ⟨hbase, rfl, rfl⟩
  · refine hstreams.finish hmu rfl rfl hs _ (fun id hid => if_neg hid) (fun hstream => ?_)
    have hsettled := hstream.settled
    rw [due_of_turn hmu, hbase] at hsettled
    show Stream _ sub _ ((account sub log).note sub (.closed sub))
    rw [Account.note, if_pos rfl]
    refine { hstream with closed := ?_, ready := fun _ => ?_, settled := ?_ }
    · simp only [hstream.closed, hready]
      rfl
    · rw [opens_of_turn rfl]
      exact iff_of_true rfl (.inr htodo)
    · rw [due_of_turn rfl, hbase]
      exact hsettled
  · have hfinish : Streams _ ([] ++ log) :=
      hstreams.finish hmu rfl rfl hs id (fun _ _ => rfl) (fun hstream => ?_)
    · rwa [List.modify_id] at hfinish
    · rw [List.nil_append]
      have hready := hopens hsub hstream
      rcases hnone with ⟨hbase, hopen⟩ | ⟨hbase, hempty⟩
      · rw [hbase, hopen] at hready
        cases hready
      · have hsettled := hstream.settled
        rw [due_of_turn hmu, hbase, if_pos rfl, hbefore] at hsettled
        obtain ⟨before, n, hpolls, hhanded, hdropped⟩ := hsettled
        refine { hstream with ready := fun _ => ?_, settled := ?_ }
        · rw [opens_of_turn rfl]
          exact iff_of_true (hready.trans hbase) (.inl hbase)
        · rw [due_of_turn rfl, hbase, if_pos rfl, hafter, Settled, hpolls, hdropped]
          have hcounted := hhanded.counted poll
          rwa [show poll.batch s.filter = [] from hempty] at hcounted
  · refine hstreams.finish hmu rfl rfl hs _ (fun id hid => if_neg hid) (fun hstream => ?_)
    have hready := hopens hsub hstream
    have hsettled := hstream.settled
    rw [due_of_turn hmu, hbase, if_pos rfl, hbefore] at hsettled
    obtain ⟨before, n, hpolls, hhanded, hdropped⟩ := hsettled
    show Stream _ sub _ ((account sub log).note sub (.enqueued sub (poll.batch s.filter)))
    rw [Account.note, if_pos rfl]
    refine { hstream with queued := ?_, ready := fun _ => ?_, room := ?_, settled := ?_ }
    · rw [opens_of_turn rfl]
      exact iff_of_true (hready.trans hbase) (.inl hbase)
    · simp only [hstream.queued, List.append_assoc]
    · rw [List.length_append]
      exact hroom
    · rw [due_of_turn rfl, hbase, if_pos rfl, hafter, Settled, hpolls, hdropped]
      exact hhanded.enqueued poll hbatch
  · refine hstreams.only hs id rfl (List.modify_id ..).symm (fun _ _ => rfl) (fun id hid => ?_)
      (fun id _ => ?_)
      (fun hstream => ?_)
    · refine due_congr hmu rfl rfl ?_
      simp [Turn.due, hid]
    · exact opens_congr hmu rfl rfl Iff.rfl
    · have hsettled := hstream.settled
      rw [due_of_turn hmu, hbase, if_pos rfl, hbefore] at hsettled
      obtain ⟨before, n, hpolls, hhanded, hdropped⟩ := hsettled
      refine { hstream with ready := fun hin => (hstream.ready hin).trans (Iff.symm ?_), settled := ?_ }
      · exact opens_congr hmu rfl rfl Iff.rfl
      · rw [due_of_turn rfl, hbase, if_pos rfl, Turn.due, if_neg htodo]
        simp only [if_pos]
        exact ⟨before, n, hpolls, hhanded, hdropped, rfl⟩

private theorem tellFull (hstreams : Streams h log) (hvalid : h.Valid log)
    (hstep : h.tellFull = some (h', noted)) :
    Streams h' (noted ++ log) := by
  obtain ⟨poller, poll, todo, sub, n, hmu, rfl, rfl⟩ := Hub.tellFull_cases hstep
  obtain ⟨⟨s, hs⟩, hsub, htodo⟩ := next_known hvalid hmu rfl
  obtain ⟨_, _, _, _, hfull⟩ := hvalid.turn _ hmu
  have hbase : h.baselined = true := hfull sub n rfl
  have hbefore : Turn.due { poller := poller, poll := poll, todo := todo, stage := .full sub n } sub = .full poll n := by
    simp [Turn.due, htodo]
  have hafter : Turn.due { poller := poller, poll := poll, todo := todo } sub = .nothing := by
    simp [Turn.due, htodo]
  refine hstreams.finish hmu rfl rfl hs _ (fun id hid => if_neg hid) (fun hstream => ?_)
  have hsettled := hstream.settled
  rw [due_of_turn hmu, hbase, if_pos rfl, hbefore] at hsettled
  obtain ⟨before, m, hpolls, hhanded, hdropped, hn⟩ := hsettled
  show Stream _ sub _ ((account sub log).note sub (.dropped sub n))
  rw [Account.note, if_pos rfl]
  refine { hstream with ready := fun hin => (hstream.ready hin).trans ?_, told := ?_, settled := ?_ }
  · rw [opens_of_turn hmu, opens_of_turn rfl]
    exact iff_of_true (.inl hbase) (.inl hbase)
  · simp only [hstream.told]
    omega
  · rw [due_of_turn rfl, hbase, if_pos rfl, hafter, Settled, hpolls, hdropped, hn]
    exact hhanded.counted poll

private theorem unlock (hstreams : Streams h log) (hstep : h.unlock = some (h', noted)) :
    Streams h' (noted ++ log) := by
  obtain ⟨poller, poll, hmu, rfl, rfl⟩ := Hub.unlock_cases hstep
  refine { fresh := hstreams.fresh, each := fun id s hs => (hstreams.each id s hs).congr Iff.rfl (fun _ => ?_) ?_ }
  · rw [opens_of_turn hmu, opens_of_free rfl]
    exact iff_of_true rfl (.inr List.not_mem_nil)
  · rw [due_of_turn hmu, due_of_free rfl, Turn.due, if_neg List.not_mem_nil, ite_self]

private theorem receive (hstreams : Streams h log) (hstep : h.receive sub = some (h', noted)) :
    Streams h' (noted ++ log) := by
  obtain ⟨s, batch, rest, hs, hchanges, rfl, rfl⟩ := Hub.receive_cases hstep
  refine hstreams.only hs (fun s => { s with changes := rest }) rfl rfl (fun id hid => if_neg hid)
    (fun _ _ => rfl)
    (fun _ _ => Iff.rfl) (fun hstream => ?_)
  show Stream _ sub _ ((account sub log).note sub (.received sub batch))
  rw [Account.note, if_pos rfl]
  have hroom := hstream.room
  refine { hstream with queued := ?_, room := ?_ }
  · simp [hstream.queued, hchanges]
  · rw [hchanges, List.length_cons] at hroom
    exact Nat.le_of_succ_le hroom

private theorem takeDropped (hstreams : Streams h log)
    (hstep : h.takeDropped sub = some (h', noted)) :
    Streams h' (noted ++ log) := by
  obtain ⟨s, hs, rfl, rfl⟩ := Hub.takeDropped_cases hstep
  refine hstreams.only hs (fun s => { s with dropped := 0 }) rfl rfl (fun id hid => if_neg hid)
    (fun _ _ => rfl)
    (fun _ _ => Iff.rfl) (fun hstream => ?_)
  show Stream _ sub _ ((account sub log).note sub (.reported sub s.dropped))
  rw [Account.note, if_pos rfl]
  exact { hstream with told := hstream.told }

private theorem step {marshal : Receipt → GoString} {a : Action} (hvalid : h.Valid log)
    (hstreams : Streams h log)
    (hstep : hub.step marshal h a = some (h', noted)) : Streams h' (noted ++ log) := by
  cases a with
  | subscribe f => exact hstreams.subscribe hstep
  | unsubscribe sub => exact hstreams.unsubscribe hstep
  | read p outcome =>
    obtain ⟨rfl, hmoves⟩ := Hub.read_cases hstep
    exact hstreams.moves hmoves
  | lock p order => exact hstreams.lock hstep
  | tellMissed => exact hstreams.tellMissed hvalid hstep
  | deliver => exact hstreams.deliver hvalid hstep
  | tellFull => exact hstreams.tellFull hvalid hstep
  | unlock => exact hstreams.unlock hstep
  | tick p =>
    obtain ⟨rfl, hmoves⟩ := Hub.tick_cases hstep
    exact hstreams.moves hmoves
  | halt p =>
    obtain ⟨rfl, hmoves⟩ := Hub.halt_cases hstep
    exact hstreams.moves hmoves
  | receive sub => exact hstreams.receive hstep
  | takeDropped sub => exact hstreams.takeDropped hstep

end Streams

/-- The poller has not been ended. -/
def Polls (h : Hub) (p : Nat) : Prop := ∃ q, h.pollers[p]? = some q ∧ q.cancelled = false

private theorem polls_iff {h : Hub} {log : List Effect} (hvalid : h.Valid log) {p : Nat} :
    Polls h p ↔ h.stop = some p := by
  constructor
  · rintro ⟨q, hq, hlive⟩
    exact (hvalid.pollers.current p q hq).mp hlive
  · intro hstop
    have hq := List.getElem?_eq_getElem (hvalid.pollers.known p hstop)
    exact ⟨_, hq, (hvalid.pollers.current p _ hq).mpr hstop⟩

/-- A subscriber becomes ready by joining after the baseline, or by having it handed out. -/
theorem closed_cases {marshal : Receipt → GoString} {h h' : Hub} {noted : List Effect} {a : Action}
    {id : Nat} (hstep : step marshal h a = some (h', noted)) (hclosed : .closed id ∈ noted) :
    h'.stop = h.stop ∧ (h.baselined = true ∨ ∃ t, h.mu = some t) ∨ h.baselined = true ∧
    h.stop = none := by
  cases a with
  | subscribe f =>
    obtain ⟨_, rfl, stop, pollers, rfl, hstop⟩ := Hub.subscribe_cases hstep
    split_ifs at hclosed with hbase
    · rcases hstop with ⟨_, rfl, _⟩ | ⟨hnone, _⟩
      · exact .inl ⟨rfl, .inl hbase⟩
      · exact .inr ⟨hbase, hnone⟩
    · cases hclosed
  | unsubscribe sub =>
    obtain ⟨_, _, ⟨p, _, _, rfl, _⟩ | ⟨_, rfl, _⟩⟩ :=
      Hub.unsubscribe_cases hstep <;> cases List.mem_singleton.mp hclosed
  | read p outcome =>
    obtain ⟨rfl, _⟩ := Hub.read_cases hstep
    cases hclosed
  | lock p order =>
    obtain ⟨_, ⟨rfl, _⟩ | ⟨q, poll, _, _, _, rfl, _⟩⟩ := Hub.lock_cases hstep
    · cases hclosed
    · cases List.mem_singleton.mp hclosed
  | tellMissed =>
    obtain ⟨_, _, _, _, _, ⟨_, _, rfl, _⟩ | ⟨_, rfl, _⟩⟩ := Hub.tellMissed_cases hstep
    · cases List.mem_singleton.mp hclosed
    · cases hclosed
  | deliver =>
    obtain ⟨_, _, _, _, _, hmu, _, hcases⟩ := Hub.deliver_cases hstep
    rcases hcases with ⟨_, _, _, rfl⟩ | ⟨_, rfl, _⟩ | ⟨_, _, _, rfl, _⟩ | ⟨_, rfl, _⟩
    · exact .inl ⟨rfl, .inr ⟨_, hmu⟩⟩
    · cases hclosed
    · cases List.mem_singleton.mp hclosed
    · cases hclosed
  | tellFull =>
    obtain ⟨_, _, _, _, _, _, rfl, _⟩ := Hub.tellFull_cases hstep
    cases List.mem_singleton.mp hclosed
  | unlock =>
    obtain ⟨_, _, _, rfl, _⟩ := Hub.unlock_cases hstep
    cases hclosed
  | tick p =>
    obtain ⟨rfl, _⟩ := Hub.tick_cases hstep
    cases hclosed
  | halt p =>
    obtain ⟨rfl, _⟩ := Hub.halt_cases hstep
    cases hclosed
  | receive sub =>
    obtain ⟨_, _, _, _, _, rfl, _⟩ := Hub.receive_cases hstep
    cases List.mem_singleton.mp hclosed
  | takeDropped sub =>
    obtain ⟨_, _, rfl, _⟩ := Hub.takeDropped_cases hstep
    cases List.mem_singleton.mp hclosed

/-- The poller that is not ended when a subscriber becomes ready has made a good read. -/
theorem closed_hasRead {marshal : Receipt → GoString} {h h' : Hub} {log noted : List Effect}
    {a : Action} {id : Nat} (hvalid : h.Valid log) (hstep : step marshal h a = some (h', noted))
    (hclosed : .closed id ∈ noted) :
    ∃ p, Polls h' p ∧ ∃ poll, .polled p poll ∈ log := by
  have hafter := hvalid.step hstep
  rcases closed_cases hstep hclosed with ⟨hsame, hbase | ⟨t, hmu⟩⟩ | ⟨hbase, hnone⟩
  · obtain ⟨p, hstop, hpolled⟩ := hvalid.baseline hbase
    exact ⟨p, (polls_iff hafter).mpr (hsame.trans hstop), hpolled⟩
  · obtain ⟨hstop, _, _, hpolled, _⟩ := hvalid.turn t hmu
    exact ⟨t.poller, (polls_iff hafter).mpr (hsame.trans hstop), hpolled⟩
  · obtain ⟨p, hstop, _⟩ := hvalid.baseline hbase
    cases hnone.symm.trans hstop

/-- In every run one poller works while there are subscribers, a subscriber becomes ready once
and only after the poller's baseline, and each poll since then is handed to it: its changes in one
batch or counted, and what it missed counted. -/
theorem polls_handed (marshal : Receipt → GoString) {h : Hub} {log : List Effect}
    (hrun : Run (step marshal) {} h log) :
    (∀ p p', Polls h p → Polls h p' → p = p') ∧ ((∃ p, Polls h p) ↔ h.subs ≠ []) ∧
    (∀ (p : Nat) (q : Poller), h.pollers[p]? = some q → q.cancelled = false → q.place ≠ .returned) ∧
    (∀ a h' noted id, step marshal h a = some (h', noted) → .closed id ∈ noted →
      ∃ p, Polls h' p ∧ ∃ poll, .polled p poll ∈ log) ∧
    ∀ id s, h.subscribers[id]? = some s →
      (account id log).closed ≤ 1 ∧
      (account id log).enqueued.Sublist ((account id log).polls.map (Poll.batch · s.filter)) ∧
      ((account id log).enqueued.map List.length).sum + (account id log).dropped +
      (h.due id).weight s.filter =
        ((account id log).polls.map (Poll.weight s.filter)).sum ∧
      (h.mu = none → (h.due id).weight s.filter = 0 ∧
        Handed s.filter (account id log).polls (account id log).enqueued (account id log).dropped) ∧
      (account id log).enqueued = (account id log).received ++ s.changes ∧
      (account id log).dropped = (account id log).reported + s.dropped := by
  obtain ⟨hvalid, hstreams⟩ : h.Valid log ∧ Streams h log := by
    refine hrun.invariant ?_ ?_
    · exact ⟨.start, .start⟩
    · rintro h log a h' noted ⟨hvalid, hstreams⟩ hstep
      exact ⟨hvalid.step hstep, hstreams.step hvalid hstep⟩
  refine ⟨fun p p' hp hp' => ?_, ?_, fun p q hq hlive hreturned => ?_,
    fun _ _ _ _ => closed_hasRead hvalid, fun id s hs => ?_⟩
  · rw [polls_iff hvalid] at hp hp'
    exact Option.some.inj (hp.symm.trans hp')
  · rw [← hvalid.running, Option.ne_none_iff_exists']
    exact exists_congr fun p => polls_iff hvalid
  · have hcancelled := hvalid.pollers.returned p q hq hreturned
    rw [hlive] at hcancelled
    cases hcancelled
  · have hstream := hstreams.each id s hs
    refine ⟨?_, hstream.settled.sublist, hstream.settled.sum, fun hfree => ?_, hstream.queued,
      hstream.told⟩
    · rw [hstream.closed]
      split_ifs <;> decide
    · rw [due_of_free hfree]
      exact ⟨rfl, (settled_of_free hfree).mp hstream.settled⟩

/-- A stream sees a new request, and is told of one that could not be read. -/
def chatActions : List Action :=
  let first := receiptFrom { id := "first", type := requestEvent, subject := [], time := 1000, data := ∅ }
  let second := receiptFrom { id := "second", type := requestEvent, subject := [], time := 2000, data := ∅ }
  [.subscribe {}, .read 0 (some ([first], 0)), .lock 0 [0], .tellMissed, .deliver, .unlock, .tick 0,
    .read 0 (some ([second, first], 1)), .lock 0 [0], .tellMissed, .deliver, .unlock, .receive 0,
      .takeDropped 0]

def chatStream : Hub × List Effect := (take (step Receipt.id) chatActions ({}, [])).getD ({}, [])

private theorem chatStream_run : Run (step Receipt.id) {} chatStream.1 chatStream.2 := by
  have hsome : (take (step Receipt.id) chatActions ({}, [])).isSome = true := by decide +kernel
  obtain ⟨reached, hreached⟩ := Option.isSome_iff_exists.mp hsome
  have htake : take (step Receipt.id) chatActions ({}, []) = some chatStream := by
    rw [chatStream, hreached]
    rfl
  exact Run.take .start htake

/-- The stream was handed the poll after the baseline: one change and one that was missed. -/
theorem chatStream_handed : (∃ p, Polls chatStream.1 p) ∧ ∀ s, chatStream.1.subscribers[0]? = some s →
    ((account 0 chatStream.2).enqueued.map List.length).sum + (account 0 chatStream.2).dropped =
      ((account 0 chatStream.2).polls.map (Poll.weight s.filter)).sum := by
  obtain ⟨_, hpolls, _, _, hstreams⟩ := polls_handed Receipt.id chatStream_run
  refine ⟨hpolls.mpr (by decide +kernel), fun s hs => ?_⟩
  obtain ⟨_, _, hsum, hfree, _⟩ := hstreams 0 s hs
  rwa [(hfree (by decide +kernel)).1, Nat.add_zero] at hsum

end hub

end openmeter
