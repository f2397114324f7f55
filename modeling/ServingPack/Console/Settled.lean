import ServingPack.Console.Costs
import ServingPack.Console.StreamReads

open golang concurrency

namespace openmeter

/-- The events that a collector reports over time: OpenMeter keeps one of each type and ID, and
the token events carry their request's second. -/
structure Reported (all : List Event) : Prop where
  distinct : ∀ e ∈ all, ∀ e' ∈ all, e.type = e'.type → e.id = e'.id → e = e'
  sameSecond : ∀ e ∈ all, e.type = requestEvent → ∀ e' ∈ all, ∀ typ, TokensFor e' e.id typ →
    e.time / 1000 * 1000 ≤ e'.time ∧ e'.time < e.time / 1000 * 1000 + 1000

/-- The counts of a request by token type. -/
def Amounts (all : List Event) (id : GoString) (t : GoMap Int) : Prop :=
  ∀ typ n, t.lookup typ = some n ↔ ∃ e ∈ all, TokensFor e id typ ∧ e.tokens = n

/-- A request's token events have landed: whatever is queried, they are there. -/
def Landed (all : List Event) (view : EventQuery → List Event) (id : GoString) : Prop :=
  ∀ e ∈ all, ∀ typ, TokensFor e id typ → ∀ q, e ∈ view q

/-- OpenMeter answers every query of its events with those that have landed. Every call may fail. -/
structure Shows (all : List Event) (view : EventQuery → List Event)
    (om : (q : Request) → Answer q) : Prop where
  landed : ∀ q, view q ⊆ all
  honest : ∀ q, ∃ found, Lists (view q) q found ∧ (om (.events q)).Honest found

section Amounts

variable {all : List Event} {view : EventQuery → List Event} {om : (q : Request) → Answer q}
  {id : GoString} {t t' : GoMap Int} {rs : List Receipt} {tokens : GoMap (GoMap Int)}

private theorem Amounts.unique (h : Amounts all id t) (h' : Amounts all id t') : t = t' := by
  apply Finmap.ext_lookup
  intro typ
  apply Option.ext
  intro n
  rw [h typ n, h' typ n]

/-- What is looked up for a request whose token events have landed are its counts. -/
theorem amounts_of_landed (hreported : Reported all) (hshows : Shows all view om)
    (h : answer om (tokensOf rs) = .ok tokens)
    {e : Event} (he : e ∈ all) (htype : e.type = requestEvent) (hr : receiptFrom e ∈ rs)
    (hlanded : Landed all view e.id) :
    Amounts all e.id ((tokens.lookup e.id).getD ∅) := by
  obtain ⟨hsound, hcomplete⟩ := tokensOf_views hshows.honest h
  intro typ n
  rw [lookup_noted]
  constructor
  · intro hnoted
    obtain ⟨htyp, q, e', he', htype', hid, htokens⟩ := hsound _ _ _ hnoted
    exact ⟨e', hshows.landed q he', ⟨htype', htyp, hid⟩, htokens⟩
  · rintro ⟨e', he', hfor, rfl⟩
    obtain ⟨htype', htyp, hid⟩ := hfor
    obtain ⟨hsince, hbefore⟩ := hreported.sameSecond e he htype e' he' typ ⟨htype', htyp, hid⟩
    have hsome := hcomplete _ hr typ htyp
      ⟨e', hlanded e' he' typ ⟨htype', htyp, hid⟩, htype', hid, hsince, hbefore⟩
    obtain ⟨n, hn⟩ := Option.isSome_iff_exists.mp hsome
    obtain ⟨_, q, e'', he'', htype'', hid'', htokens⟩ := hsound _ _ _ hn
    have hsame : e'' = e' :=
      hreported.distinct e'' (hshows.landed q he'') e' he' (htype''.trans htype'.symm)
        (hid''.trans hid.symm)
    rw [← hsame, htokens]
    exact hn

end Amounts

section Seen

variable (view : EventQuery → List Event) (e : Event)

/-- The token types whose counts settle a receipt. -/
def settlingTypes : List GoString := ["input", "cache_read", "cache_write", "output"]

/-- A token event with a count has landed that settles the request's receipt. -/
def Counted : Prop :=
  ∃ q, ∃ e' ∈ view q, ∃ typ ∈ settlingTypes, TokensFor e' e.id typ ∧ 0 < e'.tokens

/-- The receipt expects no tokens, or some have landed. -/
def Ripe : Prop := (receiptFrom e).verdict ≠ .allowed ∨ Counted view e

end Seen

private theorem receiptOf_id {s : Server} {om : (q : Request) → Answer q} {p : Pricer} {r : Receipt}
    {t : GoMap Int} :
    (receiptOf s om p r t).id = r.id := by
  unfold receiptOf
  split_ifs <;> rfl

/-- A receipt that is settled as completed is ripe. -/
theorem ripe_of_settled {view : EventQuery → List Event} {om : (q : Request) → Answer q}
    {rs : List Receipt} {tokens : GoMap (GoMap Int)} {s : Server} {p : Pricer}
    (hview : ∀ q, ∃ found, Lists (view q) q found ∧ (om (.events q)).Honest found)
    (h : answer om (tokensOf rs) = .ok tokens) {e : Event}
    (hsettled : StreamReader.isSettled
      (receiptOf s om p (receiptFrom e) ((tokens.lookup e.id).getD ∅)) = true) :
    Ripe view e := by
  obtain ⟨hsound, _⟩ := tokensOf_views hview h
  by_cases hallowed : (receiptFrom e).verdict = .allowed
  · refine .inr ?_
    rw [receiptOf, if_pos hallowed, StreamReader.isSettled, Bool.or_eq_true] at hsettled
    have hpositive := hsettled.resolve_left (by simp [withTokens, hallowed])
    rw [decide_eq_true_eq] at hpositive
    have hsum : 0 < count ((tokens.lookup e.id).getD ∅) "input" + count
      ((tokens.lookup e.id).getD ∅) "cache_read" +
        count ((tokens.lookup e.id).getD ∅) "cache_write" + count
          ((tokens.lookup e.id).getD ∅) "output" := hpositive
    have hone : ∃ typ ∈ settlingTypes, 0 < count ((tokens.lookup e.id).getD ∅) typ := by
      by_contra hnone
      simp only [settlingTypes, List.mem_cons, List.not_mem_nil, or_false, exists_eq_or_imp,
        exists_eq_left, not_or] at hnone
      obtain ⟨hinput, hread, hwrite, houtput⟩ := hnone
      omega
    obtain ⟨typ, htyp, hcount⟩ := hone
    rw [count, lookup_noted] at hcount
    cases hnoted : noted tokens e.id typ with
    | none =>
      rw [hnoted] at hcount
      exact absurd hcount (lt_irrefl 0)
    | some n =>
      rw [hnoted] at hcount
      obtain ⟨htyp', q, e', he', htype, hid, rfl⟩ := hsound _ _ _ hnoted
      exact ⟨q, e', he', typ, htyp, ⟨htype, htyp', hid⟩, hcount⟩
  · exact .inl hallowed

namespace StreamReader

section Settle

variable {s : Server} {sr sr' : StreamReader} {om : (q : Request) → Answer q}
  {cached cached' : Option Pricer} {rs done : List Receipt}

/-- A read shows each of its receipts as it was settled, or completes it, and keeps the settled
ones. -/
theorem settle_shows (h : ServerM.eval om (settle s sr rs) cached = (.ok (done, sr'), cached')) :
    ∃ tokens p, answer om (tokensOf (rs.filter (fun r => (sr.settled.lookup r.id).isNone))) =
      .ok tokens ∧
      pricerOf s om cached = .ok p ∧ ∃ show_ : Receipt → Receipt, done = rs.map show_ ∧
      (∀ r ∈ rs, sr.settled.lookup r.id = some (show_ r) ∨ sr.settled.lookup r.id = none ∧
        ∃ r' ∈ rs.filter (fun r => (sr.settled.lookup r.id).isNone), r'.id = r.id ∧
          show_ r = receiptOf s om p r' ((tokens.lookup r'.id).getD ∅)) ∧
      ∀ id d, sr'.settled.lookup id = some d → ∃ r ∈ rs, r.id = id ∧ d = show_ r ∧
      isSettled (show_ r) = true := by
  obtain ⟨opened, _, hopened, hrest⟩ := ServerM.eval_bind_ok h
  obtain ⟨hok, _⟩ := Prod.mk.inj hrest
  obtain ⟨rfl, rfl⟩ := Prod.mk.inj (Except.ok.inj hok)
  obtain ⟨tokens, p, htokens, hp, rfl⟩ := complete_eq hopened
  refine ⟨tokens, p, htokens, hp, _, rfl, fun r hr => ?_, fun id d hd => ?_⟩
  · cases hsettled : sr.settled.lookup r.id with
    | some d => exact .inl rfl
    | none =>
      refine .inr ⟨rfl, ?_⟩
      have hopen : r ∈ rs.filter (fun r => (sr.settled.lookup r.id).isNone) := by
        rw [List.mem_filter, hsettled]
        exact ⟨hr, rfl⟩
      have hkey : r.id ∈ (((rs.filter (fun r => (sr.settled.lookup r.id).isNone)).map
          (fun r => receiptOf s om p r ((tokens.lookup r.id).getD ∅))).map (fun r => (r.id, r))).map
            Prod.fst := by
        rw [List.map_map, List.map_map]
        refine List.mem_map.mpr ⟨r, hopen, ?_⟩
        exact receiptOf_id
      obtain ⟨d, hd⟩ := Option.isSome_iff_exists.mp (GoMap.isSome_lookup_ofList hkey)
      obtain ⟨d', hd', heq⟩ := List.mem_map.mp (GoMap.mem_of_lookup_ofList hd)
      obtain ⟨hid, rfl⟩ := Prod.mk.inj heq
      obtain ⟨r', hr', rfl⟩ := List.mem_map.mp hd'
      refine ⟨r', hr', receiptOf_id.symm.trans hid, ?_⟩
      rw [hd]
      rfl
  · rw [zip_map_self] at hd
    obtain ⟨⟨r, d'⟩, hmem, heq⟩ := List.mem_map.mp (GoMap.mem_of_lookup_ofList hd)
    obtain ⟨hshown, hsettled⟩ := List.mem_filter.mp hmem
    obtain ⟨r', hr', hpair⟩ := List.mem_map.mp hshown
    obtain ⟨rfl, rfl⟩ := Prod.mk.inj hpair
    obtain ⟨rfl, rfl⟩ := Prod.mk.inj heq
    exact ⟨r', hr', rfl, rfl, hsettled⟩

end Settle

/-- A reading, and the events that have landed when OpenMeter answers each query. -/
structure Viewing extends Reading where
  view : EventQuery → List Event

namespace Viewing

variable (s : Server) (all : List Event) (r : Viewing)

/-- OpenMeter answers the reading with what has landed, and lists the window. -/
structure Honest : Prop extends Shows all r.view r.om where
  window : Lists (r.view (windowFilter r.now).query) (windowFilter r.now).query r.found
  pages : (r.om (.events (windowFilter r.now).query)).Honest r.found

/-- Where a receipt is ripe in a reading that reads its request, all its token events have
landed. -/
def Settles : Prop := r.Succeeds s → ∀ e ∈ r.events, Ripe r.view e → Landed all r.view e.id

end Viewing

/-- A receipt of a request with its counts. -/
def Whole (all : List Event) (e : Event) (d : Receipt) : Prop :=
  ∃ t, Amounts all e.id t ∧ ∃ costUSD, d = { withTokens (receiptFrom e) t with costUSD := costUSD }

/-- The readings so far, the latest first, each with the reader that the one before has left. -/
inductive Follows (s : Server) (all : List Event) : List Viewing → StreamReader → Prop
  | start : Follows s all [] {}
  | read {r : Viewing} {readings : List Viewing} (h : Follows s all readings r.before)
    (hhonest : r.Honest all) :
      Follows s all (r :: readings) (r.after s)

/-- A settled receipt has its counts, which had landed when a reading settled it. -/
def Kept (s : Server) (all : List Event) (readings : List Viewing) (sr : StreamReader) : Prop :=
  ∀ id d, sr.settled.lookup id = some d → ∃ r ∈ readings, r.Succeeds s ∧
    ∃ e ∈ r.events, (e ∈ all ∧ e.type = requestEvent) ∧
    e.id = id ∧ Landed all r.view id ∧ Whole all e d

section Reads

variable {s : Server} {all : List Event} {r : Viewing} {readings : List Viewing}

private theorem receiptOf_counts (om : (q : Request) → Answer q) (p : Pricer) (d : Receipt)
    (t : GoMap Int) :
    ∃ costUSD, receiptOf s om p d t = { withTokens d t with costUSD := costUSD } := by
  unfold receiptOf
  split_ifs
  · exact ⟨_, rfl⟩
  · exact ⟨_, rfl⟩

private theorem mem_events (hhonest : r.Honest all) {e : Event} (he : e ∈ r.events) :
    e ∈ all ∧ e.type = requestEvent := by
  have hfound := hhonest.window.perm.mem_iff.mp (List.mem_of_mem_take he)
  obtain ⟨hview, hmatches⟩ := List.mem_filter.mp hfound
  obtain ⟨_, _, htype, _⟩ := matches_iff.mp hmatches
  have hquery : requestEvent ≠ [] := by decide
  exact ⟨hhonest.landed _ hview, htype.resolve_left hquery⟩

/-- What a reading that succeeds shows and keeps: a request's receipt as it was settled, or
completed. -/
structure Settling (s : Server) (r : Viewing) (tokens : GoMap (GoMap Int)) (p : Pricer)
    (opened : List Receipt) (show_ : Receipt → Receipt) : Prop where
  looked : answer r.om (tokensOf opened) = .ok tokens
  priced : pricerOf (r.server s) r.om r.cached = .ok p
  shown : r.receipts s = r.events.map (fun e => show_ (receiptFrom e))
  completed : ∀ e ∈ r.events, r.before.settled.lookup e.id = some (show_ (receiptFrom e)) ∨
    r.before.settled.lookup e.id = none ∧ receiptFrom e ∈ opened ∧
      show_ (receiptFrom e) = receiptOf (r.server s) r.om p (receiptFrom e)
        ((tokens.lookup e.id).getD ∅)
  kept : ∀ id d, (r.after s).settled.lookup id = some d → ∃ e ∈ r.events, e.id = id ∧
    d = show_ (receiptFrom e) ∧
    isSettled (show_ (receiptFrom e)) = true

private theorem read_cases (hreported : Reported all) (hhonest : r.Honest all) :
    (¬ r.Succeeds s ∧ (r.after s).settled = r.before.settled) ∨
      r.Succeeds s ∧ ∃ tokens p opened show_, Settling s r tokens p opened show_ := by
  have hresult := r.result_eq s
  cases hscan : ServerM.eval r.om (scan (r.server s) r.before) r.cached with
  | mk scanned cached =>
    rw [hscan] at hresult
    cases scanned with
    | error e =>
      refine .inl ⟨?_, ?_⟩
      · rintro ⟨shown, hshown⟩
        rw [hresult] at hshown
        cases hshown
      · rw [Reading.after, hresult]
    | ok found =>
      obtain ⟨rs, missed, sr⟩ := found
      obtain ⟨hrs, hsame, rfl⟩ := scan_settled hhonest.pages hscan
      simp only at hresult
      cases hsettle : ServerM.eval r.om (settle (r.server s) sr rs) r.cached with
      | mk settled' cached' =>
        rw [hsettle] at hresult
        cases settled' with
        | error e =>
          refine .inl ⟨?_, ?_⟩
          · rintro ⟨shown, hshown⟩
            rw [hresult] at hshown
            cases hshown
          · rw [Reading.after, hresult, hsame]
        | ok done =>
          obtain ⟨done, sr'⟩ := done
          obtain ⟨tokens, p, hlooked, hpriced, show_, rfl, hcompleted, hkept⟩ :=
            settle_shows hsettle
          subst hrs
          refine .inr ⟨⟨_, by rw [hresult]⟩, tokens, p, _, show_, hlooked, hpriced, ?_,
            fun e he => ?_, fun id d hd => ?_⟩
          · rw [Reading.receipts, hresult]
            exact List.map_map
          · rw [← hsame]
            refine (hcompleted (receiptFrom e) (List.mem_map_of_mem he)).imp_right ?_
            rintro ⟨hnone, r', hr', hid, hshow⟩
            obtain ⟨e', he', rfl⟩ := List.mem_map.mp (List.mem_of_mem_filter hr')
            obtain ⟨hall, htype⟩ := mem_events hhonest he
            obtain ⟨hall', htype'⟩ := mem_events (r := r) hhonest he'
            obtain rfl := hreported.distinct e' hall' e hall (htype'.trans htype.symm) hid
            exact ⟨hnone, hr', hshow⟩
          · rw [Reading.after, hresult] at hd
            obtain ⟨r', hr', hid, hshow, hsettled⟩ := hkept id d hd
            obtain ⟨e, he, rfl⟩ := List.mem_map.mp hr'
            exact ⟨e, he, hid, hshow, hsettled⟩

private theorem Kept.mono {sr sr' : StreamReader} (h : Kept s all readings sr)
    (hsame : sr'.settled = sr.settled) :
    Kept s all (r :: readings) sr' := by
  intro id d hd
  rw [hsame] at hd
  obtain ⟨r', hr', hrest⟩ := h id d hd
  exact ⟨r', List.mem_cons_of_mem _ hr', hrest⟩

/-- A reading that settles what has landed keeps receipts with their counts. -/
theorem Kept.read (hreported : Reported all) (hhonest : r.Honest all) (hsettles : r.Settles s all)
    (h : Kept s all readings r.before) : Kept s all (r :: readings) (r.after s) := by
  rcases read_cases hreported hhonest
    with ⟨_, hsame⟩ | ⟨hsucceeds, tokens, p, opened, show_, hsettling⟩
  · exact h.mono hsame
  intro id d hd
  obtain ⟨e, he, rfl, rfl, hsettled⟩ := hsettling.kept id d hd
  rcases hsettling.completed e he with hbefore | ⟨_, hopen, hshow⟩
  · obtain ⟨r', hr', hrest⟩ := h _ _ hbefore
    exact ⟨r', List.mem_cons_of_mem _ hr', hrest⟩
  · rw [hshow] at hsettled ⊢
    have hlanded := hsettles hsucceeds e he
      (ripe_of_settled hhonest.honest hsettling.looked hsettled)
    obtain ⟨hall, htype⟩ := mem_events hhonest he
    refine ⟨r, List.mem_cons_self, hsucceeds, e, he, ⟨hall, htype⟩, rfl, hlanded, _, ?_,
      receiptOf_counts _ _ _ _⟩
    exact amounts_of_landed hreported hhonest.toShows hsettling.looked hall htype hopen hlanded

private theorem Follows.kept (hreported : Reported all) {sr : StreamReader}
    (h : Follows s all readings sr)
    (hsettles : ∀ r ∈ readings, r.Settles s all) : Kept s all readings sr := by
  induction h with
  | start => exact fun id d hd => by cases hd
  | read h hhonest ih =>
    obtain ⟨hlatest, hrest⟩ := List.forall_mem_cons.mp hsettles
    exact (ih hrest).read hreported hhonest hlatest

/-- What a scan finds are receipts of the events it reads. -/
theorem mem_each_scanEvent {limit : Nat} {f : ReceiptFilter} {found : List Event} {sc : Scan}
    {d : Receipt} (h : d ∈ (each (scanEvent limit f) sc found).1.out) :
    d ∈ sc.out ∨ ∃ e ∈ found, d = receiptFrom e := by
  induction found generalizing sc with
  | nil => exact .inl h
  | cons e rest ih =>
    have hout : (scanEvent limit f sc e).1.out = sc.out ++ matching f [e] := by
      rw [scanEvent_eq]
      split_ifs <;> rfl
    have hone (h : d ∈ (scanEvent limit f sc e).1.out) : d ∈ sc.out ∨
        ∃ e' ∈ e :: rest, d = receiptFrom e' := by
      rw [hout] at h
      refine (List.mem_append.mp h).imp_right fun hmatch => ?_
      obtain ⟨e', he', rfl⟩ := List.mem_map.mp (List.mem_of_mem_filter hmatch)
      exact ⟨e', List.mem_cons.mpr (.inl (List.mem_singleton.mp he')), rfl⟩
    rw [each] at h
    split_ifs at h
    · rcases ih h with h | ⟨e', he', hd⟩
      · exact hone h
      · exact .inr ⟨e', List.mem_cons_of_mem _ he', hd⟩
    · exact hone h

/-- What a listing of receipts returns for a request whose token events have landed. -/
theorem listReceipts_landed (hreported : Reported all) {om : (q : Request) → Answer q}
    {view : EventQuery → List Event}
    (hshows : Shows all view om) {limit : Nat} {f : ReceiptFilter} {cached cached' : Option Pricer}
    {out : List Receipt} {continueBefore : Int}
    (h : ServerM.eval om (listReceipts s limit f) cached = (.ok (out, continueBefore), cached'))
    {e : Event} (he : e ∈ all) (htype : e.type = requestEvent) (hlanded : Landed all view e.id)
    {d : Receipt} (hd : d ∈ out) (hid : d.id = e.id) :
    ∃ p t, pricerOf s om cached = .ok p ∧ Amounts all e.id t ∧
    d = receiptOf s om p (receiptFrom e) t := by
  obtain ⟨⟨scanned, continueBefore'⟩, _, hscan, hrest⟩ := ServerM.eval_bind_ok h
  rw [ServerM.eval_lift] at hscan
  obtain ⟨hanswer, rfl⟩ := Prod.mk.inj hscan
  obtain ⟨done, _, hcomplete, hpure⟩ := ServerM.eval_bind_ok hrest
  obtain ⟨rfl, _⟩ := Prod.mk.inj (Except.ok.inj (Prod.mk.inj hpure).1)
  obtain ⟨tokens, p, hlooked, hpriced, rfl⟩ := complete_eq hcomplete
  obtain ⟨r, hr, rfl⟩ := List.mem_map.mp hd
  rw [receiptOf_id] at hid
  -- the receipt is that of the request event
  obtain ⟨found, hlists, hhonest⟩ := hshows.honest f.query
  obtain ⟨sc, hsc, hout⟩ := answer_bind_ok (x := eachEvent (scanEvent limit f) f.query {}) hanswer
  obtain rfl := answer_eachEvent_honest hhonest hsc
  obtain ⟨rfl, _⟩ := Prod.mk.inj (Except.ok.inj hout)
  obtain ⟨e', he', rfl⟩ := (mem_each_scanEvent hr).resolve_left List.not_mem_nil
  obtain ⟨hview, hmatches⟩ := List.mem_filter.mp (hlists.perm.mem_iff.mp he')
  obtain ⟨_, _, htype', _⟩ := matches_iff.mp hmatches
  have hquery : requestEvent ≠ [] := by decide
  obtain rfl := hreported.distinct e' (hshows.landed _ hview) e he
    ((htype'.resolve_left hquery).trans htype.symm) hid
  exact ⟨p, _, hpriced, amounts_of_landed hreported hshows hlooked he htype hr hlanded, rfl⟩

end Reads

section Landing

/-- A token event in the second of its request. -/
def reported (typ : GoString) (n : Int) : Event where
  id := tokenEventID "r-1" typ
  type := tokensEvent
  subject := "k-1"
  time := 5000
  data := GoMap.ofList [("token_type", .text typ), ("tokens", .number n)]

/-- A request whose input has landed. -/
def inputOnly : List Event := [served "r-1" 5000, reported "input" 10]

/-- The request once its output has landed too. -/
def inputAndOutput : List Event := [served "r-1" 5000, reported "input" 10, reported "output" 7]

/-- A reading of the request's window when these events have landed. -/
def readingOf (now : Int) (log : List Event) (before : StreamReader) : Viewing where
  now := now
  om := openMeter log
  cached := none
  log := log
  found := [served "r-1" 5000]
  before := before
  view _ := log

private theorem inputAndOutput_reported : Reported inputAndOutput where
  distinct e he e' he' htype hid := by
    simp only [inputAndOutput, List.mem_cons, List.not_mem_nil, or_false] at he he'
    rcases he with rfl | rfl | rfl <;> rcases he' with rfl | rfl | rfl <;>
      first | rfl | exact absurd htype (by decide) | exact absurd hid (by decide)
  sameSecond e he htype e' he' typ _ := by
    have htime : ∀ e ∈ inputAndOutput, e.time = 5000 := by
      intro e he
      simp only [inputAndOutput, List.mem_cons, List.not_mem_nil, or_false] at he
      rcases he with rfl | rfl | rfl <;> rfl
    rw [htime e he, htime e' he']
    decide

private theorem inputOnly_subset : inputOnly ⊆ inputAndOutput :=
  List.cons_subset_cons _ (List.cons_subset_cons _ (List.nil_subset _))

private theorem readingOf_honest {now : Int} {log all : List Event} {before : StreamReader}
    (hlog : log ⊆ all)
    (hwindow : log.filter (windowFilter now).query.matches = [served "r-1" 5000]) :
    (readingOf now log before).Honest all where
  landed _ := hlog
  honest q := by
    obtain ⟨found, hlists, hhonest, _⟩ := (openMeter_serves log).events q
    exact ⟨found, hlists, hhonest⟩
  window := ⟨List.Perm.of_eq hwindow.symm, List.pairwise_singleton ..⟩
  pages := by
    have hpages := openMeter_honest log (windowFilter now).query
    rw [hwindow, List.mergeSort_singleton] at hpages
    exact hpages

private theorem succeeds_of_isOk {s : Server} {r : Viewing} (h : (r.result s).1.isOk = true) :
    r.Succeeds s := by
  cases hresult : (r.result s).1 with
  | error e =>
    rw [hresult] at h
    cases h
  | ok shown => exact ⟨shown, hresult⟩

/-- A reading of a request before any of its token events has landed. -/
def noneLanded : Viewing := readingOf 7000 [served "r-1" 5000] {}

/-- It settles nothing. -/
theorem noneLanded_settles : noneLanded.Settles plainServer inputAndOutput := by
  intro _ e he hripe
  obtain rfl := List.mem_singleton.mp he
  rcases hripe with hverdict | hcounted
  · exact absurd (by decide) hverdict
  · obtain ⟨q, e', he', typ, _, htokens, _⟩ := hcounted
    obtain rfl := List.mem_singleton.mp he'
    exact absurd htokens.1 (by decide)

/-- The reading after both have landed. -/
def bothLanded : Viewing := readingOf 10000 inputAndOutput (noneLanded.after plainServer)

end Landing

end StreamReader

end openmeter
