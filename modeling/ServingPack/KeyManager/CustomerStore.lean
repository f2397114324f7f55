import ServingPack.KeyManager.CustomerShapes

open golang concurrency secrets

namespace customers

/-- The subject keys a customer holds. -/
def StoredCustomer.held (c : StoredCustomer) : List GoString :=
  match c.subjectKeys with
  | .ok keys => keys
  | .error _ => []

/-- A customer as OpenMeter keeps one: it is called by its handle, and its
`usageAttribution` is missing or an object whose subject keys are texts under
their own name. -/
structure StoredCustomer.Typed (handle : GoString) (c : StoredCustomer) : Prop where
  ref : c.ref = handle
  reads : c.subjectKeys = .ok c.held
  attribution : ∃ ua, c.attribution = some ua ∧ lastSpelling ua = "subjectKeys"
  texts : ∀ k ∈ c.held, jsonText k = k

/-- A customer with a `usageAttribution` of any shape: it is called by its handle, and
where the attribution is an object, it has its subject keys, which are texts, under
their own name. -/
structure StoredCustomer.Kept (handle : GoString) (c : StoredCustomer) : Prop where
  ref : c.ref = handle
  spelling : ∀ ua, c.attribution = some ua → lastSpelling ua = "subjectKeys"
  texts : ∀ k ∈ c.held, jsonText k = k

/-- What is stored for a new customer. -/
def Customer.stored (cust : Customer) : StoredCustomer :=
  GoMap.ofList [("key", .string (jsonText cust.key)), ("name", .string (jsonText cust.name)),
    ("usageAttribution", .object [("subjectKeys", marshalStrings cust.subjectKeys)])]

/-- The customers OpenMeter holds, by handle: their key, or their ID. -/
abbrev Store := GoMap StoredCustomer

namespace Store

/-- Every customer is as OpenMeter keeps one. -/
def Typed (st : Store) : Prop := ∀ handle c, st.lookup handle = some c → c.Typed handle

/-- The customers may have a `usageAttribution` of any shape, `null` included. -/
def Kept (st : Store) : Prop := ∀ handle c, st.lookup handle = some c → c.Kept handle

/-- If there is a customer under the handle, subject keys can be added to it. -/
def Takes (st : Store) (handle : GoString) : Prop := ∀ c, st.lookup handle = some c → c.Typed handle

/-- The subject keys held under a handle. -/
def heldAt (st : Store) (handle : GoString) : List GoString :=
  match st.lookup handle with
  | some c => c.held
  | none => []

/-- The customers that hold a subject key. -/
def holders (st : Store) (k : GoString) : List GoString :=
  st.sortedKeys.filter (fun handle => k ∈ heldAt st handle)

/-- Whether a customer other than the one under `handle` holds one of the keys. -/
def Taken (st : Store) (handle : GoString) (keys : List GoString) : Prop :=
  ∃ k ∈ keys, ∃ other, other ≠ handle ∧ k ∈ heldAt st other

/-- The customers, in this order of their handles, with a subject key that the subject matches
in part. -/
def found (st : Store) (inPart : GoString → GoString → Bool) (subject : GoString)
    (handles : List GoString) :
    List StoredCustomer :=
  handles.filterMap (fun handle =>
    (st.lookup handle).filter (fun c => c.held.any (fun k => inPart k subject)))

end Store

/-- One page of some customers, counted from 0. -/
def page (size : Nat) (items : List StoredCustomer) (i : Nat) : ListPage where
  totalCount := items.length
  pageSize := size
  items := (items.drop (i * size)).take size

section Serving

-- the API keys' metadata, and OpenMeter's partial match of a subject key
variable (keys : List KeyInfo) (inPart : GoString → GoString → Bool)

/-- The answers without an API error, as the customer API gives them. A write that names
a subject key of another customer is refused. -/
def Answers (st : Store) : (q : Request) → Answer q → Store → Prop
  | .listKeys, answer, st' => st' = st ∧ answer = .ok keys
  | .range _, _, st' => st' = st
  | .get handle, answer, st' => st' = st ∧ answer = (st.lookup handle).elim (.error .notFound) .ok
  | .list subject, answer, st' =>
      st' = st ∧ ∃ (handles : List GoString) (size n : Nat), handles.Perm st.sortedKeys ∧ 0 < size ∧
      0 < n ∧ (st.found inPart subject handles).length ≤ n * size ∧
      answer.pages = (List.range n).map (page size (st.found inPart subject handles))
  | .create cust, answer, st' =>
      (answer = .ok () ∧ ¬st.Taken cust.key cust.subjectKeys ∧
      st' = st.insert cust.key cust.stored) ∨
      ∃ f, answer = .error f ∧ st.Taken cust.key cust.subjectKeys ∧ st' = st
  | .replace handle cust, answer, st' =>
      (answer = .ok () ∧ ¬st.Taken handle cust.held ∧ st' = st.insert handle cust) ∨
      ∃ f, answer = .error f ∧ st.Taken handle cust.held ∧ st' = st

/-- The ways a request can fail: no answer comes, or the answer to a write that has
taken effect is lost. -/
def Fails (st : Store) : (q : Request) → Answer q → Store → Prop
  | .listKeys, answer, st' => st' = st ∧ ∃ f, answer = .error f
  | .range _, _, _ => False
  | .get _, answer, st' => st' = st ∧ ∃ text, answer = .error (.other text)
  | .list subject, answer, st' =>
      st' = st ∧ ∃ (handles : List GoString) (size n : Nat), handles.Perm st.sortedKeys ∧ 0 < size ∧
      answer.pages = (List.range n).map (page size (st.found inPart subject handles))
  | .create cust, answer, st' => (∃ f, answer = .error f) ∧
      (st' = st ∨ ¬st.Taken cust.key cust.subjectKeys ∧ st' = st.insert cust.key cust.stored)
  | .replace handle cust, answer, st' => (∃ f, answer = .error f) ∧
      (st' = st ∨ ¬st.Taken handle cust.held ∧ st' = st.insert handle cust)

/-- The customer API, failures included. -/
def Serves (st : Store) (q : Request) (answer : Answer q) (st' : Store) : Prop :=
  Answers keys inPart st q answer st' ∨ Fails inPart st q answer st'

end Serving

/-- The subject keys a request writes. -/
def writeOf : (Σ q : Request, Answer q) → Option (List GoString)
  | ⟨.create cust, _⟩ => some cust.subjectKeys
  | ⟨.replace _ cust, _⟩ => some cust.held
  | _ => none

/-- The writes among some requests. -/
def writes (log : List (Σ q : Request, Answer q)) : List (List GoString) := log.filterMap writeOf

namespace StoredCustomer

variable {c : StoredCustomer} {handle : GoString}

/-- A typed customer meets the weaker shape that a Sync leaves behind. -/
theorem Typed.kept (h : c.Typed handle) : c.Kept handle where
  ref := h.ref
  spelling ua hua := by
    obtain ⟨ua', hua', hspelling⟩ := h.attribution
    rw [← Option.some.inj (hua'.symm.trans hua), hspelling]
  texts := h.texts

/-- Only where a customer holds none can its subject keys be unreadable. -/
theorem subjectKeys_of_held (h : c.held ≠ []) : c.subjectKeys = .ok c.held := by
  rw [held] at h ⊢
  cases hkeys : c.subjectKeys with
  | ok keys => rfl
  | error e => simp [hkeys] at h

/-- Of the attributions that can be read only `null` is no object. -/
theorem attribution_of_readable (hreads : ∃ keys, c.subjectKeys = .ok keys)
    (hnull : c.lookup (lit "usageAttribution") ≠ some .null) : ∃ ua, c.attribution = some ua := by
  obtain ⟨keys, hkeys⟩ := hreads
  rw [attribution]
  cases hraw : c.lookup (lit "usageAttribution") with
  | none => exact ⟨∅, rfl⟩
  | some raw =>
    cases raw with
    | object members => exact ⟨GoMap.ofList members, rfl⟩
    | null => exact absurd hraw hnull
    | _ => simp [subjectKeys, hraw, unmarshalAttribution] at hkeys

/-- What a kept customer lacks to be typed: keys that read, and an attribution that isn't null.
-/
theorem Kept.typed (h : c.Kept handle) (hreads : ∃ keys, c.subjectKeys = .ok keys)
    (hnull : c.lookup (lit "usageAttribution") ≠ some .null) : c.Typed handle where
  ref := h.ref
  reads := by
    obtain ⟨keys, hkeys⟩ := hreads
    rw [held, hkeys]
  attribution := by
    obtain ⟨ua, hua⟩ := attribution_of_readable hreads hnull
    exact ⟨ua, hua, h.spelling ua hua⟩
  texts := h.texts

end StoredCustomer

section Holders

variable {st st' : Store} {k handle : GoString} {c : StoredCustomer}

/-- So is a store of them. -/
theorem Store.Typed.kept (h : st.Typed) : st.Kept := fun handle c hc => (h handle c hc).kept

/-- Keys that came in through JSON go out through it unchanged. -/
theorem Store.Kept.heldAt (hkept : st.Kept) (hk : k ∈ st.heldAt handle) : jsonText k = k := by
  rw [Store.heldAt] at hk
  cases hc : st.lookup handle with
  | none => simp [hc] at hk
  | some c => exact (hkept handle c hc).texts k (by simpa [hc] using hk)

/-- A handle holds a key when its customer's attribution lists it. -/
theorem mem_heldAt : k ∈ st.heldAt handle ↔ ∃ c, st.lookup handle = some c ∧ k ∈ c.held := by
  rw [Store.heldAt]
  cases st.lookup handle <;> simp

/-- The holders of a key, by the keys of each. -/
theorem mem_holders : handle ∈ st.holders k ↔ k ∈ st.heldAt handle := by
  rw [Store.holders, List.mem_filter, decide_eq_true_eq]
  refine and_iff_right_of_imp fun hk => ?_
  obtain ⟨c, hc, _⟩ := mem_heldAt.mp hk
  exact GoMap.mem_sortedKeys.mpr (Finmap.mem_of_lookup_eq_some hc)

/-- A key without holders is in nobody's attribution. -/
theorem holders_eq_nil : st.holders k = [] ↔ ∀ handle, k ∉ st.heldAt handle := by
  simp only [List.eq_nil_iff_forall_not_mem, mem_holders]

/-- Writing one customer changes the keys of that customer alone. -/
theorem heldAt_insert (st : Store) (handle : GoString) (c : StoredCustomer) (other : GoString) :
    Store.heldAt (st.insert handle c) other =
      if other = handle then c.held else st.heldAt other := by
  rw [Store.heldAt, GoMap.lookup_insert_eq]
  split_ifs with h
  · rfl
  · rfl

end Holders

section Paging

variable {items : List StoredCustomer} {subjectKey : GoString} {failure : Failure} {size : Nat}

/-- The scan of one page finds the customers whose attribution has the key itself, not one that
merely contains it. -/
theorem holdersOn_eq (hreads : ∀ c ∈ items, c.subjectKeys = .ok c.held) :
    holdersOn subjectKey items =
      .ok ((items.filter (fun c => subjectKey ∈ c.held)).map StoredCustomer.ref) := by
  induction items with
  | nil => rfl
  | cons item rest ih =>
    obtain ⟨hitem, hrest⟩ := List.forall_mem_cons.mp hreads
    simp only [holdersOn, hitem, ih hrest, List.filter_cons, decide_eq_true_eq]
    split_ifs <;> rfl

/-- The customers on one page and on all pages behind it. -/
theorem page_append (size : Nat) (items : List StoredCustomer) (i : Nat) :
    (page size items i).items ++ items.drop ((i + 1) * size) = items.drop (i * size) := by
  have hdrop : items.drop ((i + 1) * size) = (items.drop (i * size)).drop size := by
    rw [List.drop_drop, Nat.add_one_mul]
  rw [page, hdrop, List.take_append_drop]

/-- Where the reading stops, no customer is left. -/
theorem drop_eq_nil_of_stop (hsize : 0 < size) {i : Nat} (hstop : (page size items i).items = [] ∨
    (page size items i).totalCount ≤ ((i + 1 : Nat) : Int) * (page size items i).pageSize) :
    items.drop ((i + 1) * size) = [] := by
  rw [List.drop_eq_nil_iff]
  rcases hstop with hempty | htotal
  · rw [page, List.take_eq_nil_iff, List.drop_eq_nil_iff] at hempty
    have hle : items.length ≤ i * size := hempty.resolve_left (by omega)
    have hstep : (i + 1) * size = i * size + size := Nat.add_one_mul i size
    omega
  · simp only [page] at htotal
    exact_mod_cast htotal

/-- The pages from page `i` on are read to the customers from there on that hold the
subject key, and they are read to the end where they hold all of them. -/
theorem readHolders_pages (hreads : ∀ c ∈ items, c.subjectKeys = .ok c.held) (hsize : 0 < size)
    (n i : Nat) :
    (∀ holders, readHolders subjectKey failure (i + 1) ((List.range' i n).map (page size items)) =
      .ok holders →
      holders = ((items.drop (i * size)).filter (fun c => subjectKey ∈ c.held)).map
        StoredCustomer.ref) ∧
    (0 < n → items.length ≤ (i + n) * size →
      ∃ holders, readHolders subjectKey failure (i + 1) ((List.range' i n).map (page size items)) =
        .ok holders) := by
  induction n generalizing i with
  | zero => exact ⟨fun _ h => (by cases h), fun h => absurd h (Nat.lt_irrefl 0)⟩
  | succ n ih =>
    have hitems : ∀ c ∈ (page size items i).items, c.subjectKeys = .ok c.held :=
      fun c hc => hreads c (List.mem_of_mem_drop (List.mem_of_mem_take hc))
    simp only [List.range'_succ, List.map_cons, readHolders, holdersOn_eq hitems]
    by_cases hstop : (page size items i).items = [] ∨
        (page size items i).totalCount ≤ ((i + 1 : Nat) : Int) * (page size items i).pageSize
    · rw [if_pos hstop]
      refine ⟨fun holders h => ?_, fun _ _ => ⟨_, rfl⟩⟩
      rw [← Except.ok.inj h, ← page_append size items i, drop_eq_nil_of_stop hsize hstop,
        List.append_nil]
    · rw [if_neg hstop]
      obtain ⟨hread, hend⟩ := ih (i + 1)
      constructor
      · intro holders h
        cases hrest : readHolders subjectKey failure (i + 1 + 1)
          ((List.range' (i + 1) n).map (page size items)) with
        | error e => simp [hrest] at h
        | ok more =>
          rw [hrest] at h
          rw [← Except.ok.inj h, hread more hrest, ← page_append size items i, List.filter_append,
            List.map_append]
      · intro _ hle
        have hn : 0 < n := by
          by_contra hzero
          obtain rfl : n = 0 := by omega
          refine hstop (.inr ?_)
          simp only [page]
          exact_mod_cast hle
        obtain ⟨more, hmore⟩ := hend hn (by rwa [Nat.add_right_comm, Nat.add_assoc])
        exact ⟨_, by rw [hmore]⟩

private theorem holdersOn_ne_panicked (items : List StoredCustomer) :
    holdersOn subjectKey items ≠ .error .panicked := by
  induction items with
  | nil => exact fun h => (by cases h)
  | cons item rest ih =>
    rw [holdersOn]
    cases hkeys : item.subjectKeys with
    | error e =>
      rw [StoredCustomer.subjectKeys] at hkeys
      split at hkeys
      · cases hkeys
      · split at hkeys
        · cases hkeys
        · cases hkeys
          exact fun h => (by cases h)
    | ok keys =>
      cases hrest : holdersOn subjectKey rest with
      | error e => exact fun h => ih (hrest.trans h)
      | ok holders => exact fun h => (by cases h)

/-- A lookup can fail, but it does not panic. -/
theorem readHolders_ne_panicked (pages : List ListPage) (i : Nat) :
    readHolders subjectKey failure i pages ≠ .error .panicked := by
  induction pages generalizing i with
  | nil => exact fun h => (by cases h)
  | cons resp rest ih =>
    rw [readHolders]
    cases hholders : holdersOn subjectKey resp.items with
    | error e => exact fun h => holdersOn_ne_panicked resp.items (hholders.trans h)
    | ok holders =>
      simp only
      split_ifs
      · exact fun h => (by cases h)
      · cases hrest : readHolders subjectKey failure (i + 1) rest with
        | error e => exact fun h => ih (i + 1) (hrest.trans h)
        | ok more => exact fun h => (by cases h)

end Paging

end customers
