import ServingPack.KeyManager.CustomerStore
import ServingPack.Lib.Numbers
import ServingPack.Lib.Paging
import ServingPack.OpenMeter.Lists

open golang paging

namespace openmeterapi

/-- `url.Values`. -/
abbrev Values := GoMap (List GoString)

section ListAll

variable {T : Type}

/-- The query for page `number`: what `q` has under the same names takes precedence. -/
def pageQuery (q : Values) (number : Nat) : Values :=
  q ∪ GoMap.ofList [(lit "page[number]", [itoa number]), (lit "page[size]", [itoa pageSize])]

def appendPage (all : List T) (page : Page T) : Except Failure (List T) := .ok (all ++ page.data)

/-- Whether a page is short, or the last of the total. -/
def isLast (_ : Nat) (all : List T) (page : Page T) : Bool :=
  page.data.length < pageSize || page.total.any (· ≤ (all.length : Int))

/-- The loop of `ListAll` over the answers of a server to the queries of a path. -/
def listAllLoop (get : Values → Except Failure (Page T)) (q : Values) (fuel : Nat) :
    Option (Except Failure (List T)) :=
  readAll (fun number => get (pageQuery q number)) appendPage isLast fuel 1 []

/-- A server that gives page after page of some items, each with their total or without. -/
def ServesPages (items : List T) (withTotal : Nat → Bool) (get : Values → Except Failure (Page T)) :
    Prop :=
  ∀ number query, query.lookup (lit "page[number]") = some [itoa (number + 1)] →
    query.lookup (lit "page[size]") = some [itoa pageSize] →
      get query = .ok (pageOf items withTotal number)

/-- A query that leaves the paging to `ListAll`. -/
def Unpaged (q : Values) : Prop :=
  q.lookup (lit "page[number]") = none ∧ q.lookup (lit "page[size]") = none

variable {items : List T} {withTotal : Nat → Bool} {get : Values → Except Failure (Page T)}
  {q : Values}

private theorem lookup_pageQuery {name : GoString} (h : q.lookup name = none) (number : Nat) :
    (pageQuery q number).lookup name =
    (GoMap.ofList [(lit "page[number]", [itoa number]),
      (lit "page[size]", [itoa pageSize])] : Values).lookup name := by
  rw [pageQuery, Finmap.lookup_union_right (Finmap.lookup_eq_none.mp h)]

private theorem ServesPages.get_eq (h : ServesPages items withTotal get) (hq : Unpaged q)
    (number : Nat) :
    get (pageQuery q (number + 1)) = .ok (pageOf items withTotal number) := by
  have hnodup : (([(lit "page[number]", [itoa (number + 1)]), (lit "page[size]", [itoa pageSize])] :
      List (GoString × List GoString)).map Prod.fst).Nodup := by
    simp only [List.map_cons, List.map_nil]
    decide
  apply h
  · rw [lookup_pageQuery hq.1, GoMap.lookup_ofList hnodup]
    exact List.mem_cons_self
  · rw [lookup_pageQuery hq.2, GoMap.lookup_ofList hnodup]
    exact List.mem_cons_of_mem _ List.mem_cons_self

/-- Before page `number + 1`, the items of all the pages before it have been read, and
each of these pages was full. -/
def Read (items : List T) (number : Nat) (all : List T) : Prop :=
  ∃ i, number = i + 1 ∧ all = items.take (i * pageSize) ∧ i * pageSize ≤ items.length

private theorem turn_listAll (hserves : ServesPages items withTotal get) (hq : Unpaged q)
    {number : Nat} {all : List T} (h : Read items number all) :
    Turn (fun number => get (pageQuery q number)) appendPage isLast (Read items) (.ok items)
      number all := by
  obtain ⟨i, rfl, rfl, hle⟩ := h
  have hfetch := hserves.get_eq hq i
  have hnext : items.take (i * pageSize) ++ (pageOf items withTotal i).data =
      items.take ((i + 1) * pageSize) := by
    rw [pageOf, Nat.add_one_mul, List.take_add]
  have hstep : (i + 1) * pageSize = i * pageSize + pageSize := Nat.add_one_mul i pageSize
  have hlength : (pageOf items withTotal i).data.length =
      min pageSize (items.length - i * pageSize) := by
    simp only [pageOf, List.length_take, List.length_drop]
  cases hlast : isLast (i + 1) (items.take ((i + 1) * pageSize)) (pageOf items withTotal i) with
  | true =>
    refine .ends hfetch (by rw [appendPage, hnext]) hlast ?_
    rw [List.take_of_length_le]
    rw [isLast, Bool.or_eq_true, decide_eq_true_eq] at hlast
    obtain hshort | htotal := hlast
    · omega
    · simp only [pageOf] at htotal
      split_ifs at htotal
      · simp only [Option.any_some, decide_eq_true_eq, List.length_take] at htotal
        omega
      · cases htotal
  | false =>
    refine .goesOn hfetch (by rw [appendPage, hnext]) hlast ⟨i + 1, rfl, rfl, ?_⟩
    rw [isLast, Bool.or_eq_false_iff, decide_eq_false_iff_not] at hlast
    have hfull := hlast.1
    omega

/-- `ListAll` ends with all the items. -/
theorem returns_listAll (hserves : ServesPages items withTotal get) (hq : Unpaged q) :
    Returns (listAllLoop get q) (.ok items) := by
  apply returns_readAll (Read items) (items.length + 1)
  · rintro number read ⟨i, rfl, -, hle⟩
    have hpos : i ≤ i * pageSize := Nat.le_mul_of_pos_right i (by decide)
    omega
  · intro number all hread
    exact turn_listAll hserves hq hread
  · exact ⟨0, rfl, by simp, by simp⟩

end ListAll

end openmeterapi

namespace customers

open openmeterapi (Values)

section Loop

/-- The query for one page of the customers that a subject key matches in part. -/
def holdersQuery (subjectKey : GoString) (page : Nat) : Values :=
  GoMap.ofList [(lit "subject", [subjectKey]), (lit "page", [itoa page]),
    (lit "pageSize", [lit "100"])]

private theorem lookup_holdersQuery (subjectKey : GoString) (page : Nat) :
    (holdersQuery subjectKey page).lookup (lit "page") = some [itoa page] := by
  apply (GoMap.lookup_ofList ?_).mpr
  · exact List.mem_cons_of_mem _ List.mem_cons_self
  · simp only [List.map_cons, List.map_nil]
    decide

/-- The loop over the customers of one page. -/
def appendHolders (subjectKey : GoString) (holders : List GoString) (resp : ListPage) :
    Except Stop (List GoString) :=
  match holdersOn subjectKey resp.items with
  | .error e => .error e
  | .ok more => .ok (holders ++ more)

def isLastPage (page : Nat) (_ : List GoString) (resp : ListPage) : Bool :=
  resp.items = [] || decide (resp.totalCount ≤ page * resp.pageSize)

/-- The loop of `customersWithSubjectKey` over the answers of a server to the queries of
`/api/v1/customers`. -/
def holdersLoop (get : Values → Except Failure ListPage) (subjectKey : GoString) (fuel : Nat) :
    Option (Except Stop (List GoString)) :=
  readAll (fun page => (get (holdersQuery subjectKey page)).mapError .failed)
    (appendHolders subjectKey) isLastPage fuel 1 []

/-- A server that gives the customers that match in part page after page, in pages of its own
size. -/
def ServesHolders (items : List StoredCustomer) (size : Nat) (subjectKey : GoString)
    (get : Values → Except Failure ListPage) :
    Prop :=
  ∀ i, get (holdersQuery subjectKey (i + 1)) = .ok (page size items i)

variable {items : List StoredCustomer} {size : Nat} {subjectKey : GoString}
  {get : Values → Except Failure ListPage}

private theorem holdersOn_append (subjectKey : GoString) (items more : List StoredCustomer) :
    holdersOn subjectKey (items ++ more) =
    match holdersOn subjectKey items with
    | .error e => .error e
    | .ok holders => (holdersOn subjectKey more).map (holders ++ ·) := by
  induction items with
  | nil =>
    simp only [List.nil_append, holdersOn]
    cases holdersOn subjectKey more with
    | error e => rfl
    | ok holders => rfl
  | cons item rest ih =>
    simp only [List.cons_append, holdersOn, ih]
    cases item.subjectKeys with
    | error e => rfl
    | ok keys =>
      cases holdersOn subjectKey rest with
      | error e => rfl
      | ok holders =>
        cases holdersOn subjectKey more with
        | error e => rfl
        | ok further =>
          simp only [Except.map]
          split_ifs
          · rfl
          · rfl

/-- Before page `i + 1`, the holders among the customers of all the pages before it have been
read. -/
def ReadHolders (items : List StoredCustomer) (size : Nat) (subjectKey : GoString) (number : Nat)
    (holders : List GoString) :
    Prop :=
  ∃ i, number = i + 1 ∧ holdersOn subjectKey (items.take (i * size)) = .ok holders ∧
    (i * size < items.length ∨ i = 0)

private theorem turn_holders (hsize : 0 < size) (hserves : ServesHolders items size subjectKey get)
    {number : Nat}
    {holders : List GoString} (h : ReadHolders items size subjectKey number holders) :
    Turn (fun page => (get (holdersQuery subjectKey page)).mapError .failed)
      (appendHolders subjectKey) isLastPage
      (ReadHolders items size subjectKey) (holdersOn subjectKey items) number holders := by
  obtain ⟨i, rfl, hread, hbefore⟩ := h
  have hfetch : (get (holdersQuery subjectKey (i + 1))).mapError Stop.failed =
      .ok (page size items i) := by
    rw [hserves]
    rfl
  have hnext : items.take ((i + 1) * size) = items.take (i * size) ++
      (page size items i).items := by
    rw [page, Nat.add_one_mul, List.take_add]
  have hpage := holdersOn_append subjectKey (items.take (i * size)) (page size items i).items
  rw [← hnext, hread] at hpage
  cases hholders : holdersOn subjectKey (page size items i).items with
  | error e =>
    refine .refused hfetch (by rw [appendHolders, hholders]) ?_
    rw [hholders] at hpage
    rw [← List.take_append_drop ((i + 1) * size) items, holdersOn_append, hpage]
    rfl
  | ok more =>
    have hadd : appendHolders subjectKey holders (page size items i) = .ok (holders ++ more) := by
      rw [appendHolders, hholders]
    rw [hholders] at hpage
    cases hlast : isLastPage (i + 1) (holders ++ more) (page size items i) with
    | true =>
      refine .ends hfetch hadd hlast ?_
      rw [isLastPage, Bool.or_eq_true, decide_eq_true_eq, decide_eq_true_eq] at hlast
      have hdone := List.drop_eq_nil_iff.mp (drop_eq_nil_of_stop hsize hlast)
      rw [List.take_of_length_le hdone] at hpage
      exact hpage
    | false =>
      refine .goesOn hfetch hadd hlast ⟨i + 1, rfl, hpage, .inl ?_⟩
      rw [isLastPage, Bool.or_eq_false_iff, decide_eq_false_iff_not, decide_eq_false_iff_not]
        at hlast
      have hmore := hlast.2
      simp only [page] at hmore
      have hlt : ((i + 1 : Nat) : Int) * size < items.length := by omega
      exact_mod_cast hlt

/-- `customersWithSubjectKey` ends with what reading all the customers at once gives. -/
theorem returns_holders (hsize : 0 < size) (hserves : ServesHolders items size subjectKey get) :
    Returns (holdersLoop get subjectKey) (holdersOn subjectKey items) := by
  apply returns_readAll (ReadHolders items size subjectKey) (items.length + 1)
  · rintro number holders ⟨i, rfl, -, hlt | rfl⟩
    · have hpos : i ≤ i * size := Nat.le_mul_of_pos_right i hsize
      omega
    · omega
  · intro number holders hread
    exact turn_holders hsize hserves hread
  · refine ⟨0, rfl, ?_, .inr rfl⟩
    rw [Nat.zero_mul]
    rfl

/-- Both lists end: the one with all the items of the server, the other with the customers
that hold the subject key. -/
theorem lists_complete :
    (∀ (T : Type) (items : List T) withTotal (get : Values →
      Except openmeterapi.Failure (openmeterapi.Page T)) q,
      openmeterapi.Unpaged q → openmeterapi.ServesPages items withTotal get →
      Returns (openmeterapi.listAllLoop get q) (.ok items)) ∧
    ∀ items size subjectKey (get : Values → Except Failure ListPage), 0 < size →
    ServesHolders items size subjectKey get →
      Returns (holdersLoop get subjectKey) (holdersOn subjectKey items) ∧
      ((∀ c ∈ items, c.subjectKeys = .ok c.held) → Returns (holdersLoop get subjectKey)
        (.ok ((items.filter (fun c => subjectKey ∈ c.held)).map StoredCustomer.ref))) := by
  constructor
  · intro T items withTotal get q hq hserves
    exact openmeterapi.returns_listAll hserves hq
  · intro items size subjectKey get hsize hserves
    have hreturns := returns_holders hsize hserves
    refine ⟨hreturns, fun hreads => ?_⟩
    rw [holdersOn_eq hreads] at hreturns
    exact hreturns

end Loop

section Concrete

/-- The number that a query asks for under a name. -/
def numberOf (query : Values) (name : GoString) : Nat :=
  match query.lookup name with
  | some [text] => numeral text
  | _ => 0

/-- Two customers whose subject keys match in part, one of them exactly. -/
def matched : List StoredCustomer :=
  [Customer.stored ⟨"alice", "alice", ["key-1"]⟩, Customer.stored ⟨"bob", "bob", ["key-12"]⟩]

/-- Two full pages and a half are listed, and one customer of a page each. -/
theorem lists_served :
    Returns (openmeterapi.listAllLoop (T := Nat)
      (fun query => .ok (openmeterapi.pageOf (List.range 250) (fun _ => false)
      (numberOf query (lit "page[number]") - 1))) ∅) (.ok (List.range 250)) ∧
    Returns (holdersLoop (fun query => .ok (page 1 matched (numberOf query (lit "page") - 1)))
      (lit "key-1")) (.ok [lit "alice"]) := by
  constructor
  · apply lists_complete.1 Nat (List.range 250) (fun _ => false)
    · exact ⟨rfl, rfl⟩
    · intro number query hnumber _
      simp only [numberOf, hnumber, golang.numeral_itoa, Nat.add_sub_cancel]
  · apply (lists_complete.2 matched 1 (lit "key-1") _ (by decide) ?_).2
    · decide
    · intro i
      simp only [numberOf, lookup_holdersQuery, golang.numeral_itoa, Nat.add_sub_cancel]

end Concrete

end customers
