import ServingPack.Lib.GoString

open golang

namespace openmeterapi

/-- Why a request failed. -/
abbrev Failure := GoString

/-- One page of a list, with the total where OpenMeter gives one. -/
structure Page (T : Type) where
  data : List T
  total : Option Int

/-- The pages served in turn, and why the request for one more fails. -/
structure Pages (T : Type) where
  pages : List (Page T)
  failure : Failure

/-- How many items `ListAll` asks for a page. -/
def pageSize : Nat := 100

section ListAll

variable {T : Type}

/-- Reads page after page, `count` items so far, until one is short or all have been read. -/
def readPages (failure : Failure) : Nat → List (Page T) → Except Failure (List T)
  | _, [] => .error failure
  | count, page :: rest =>
    if page.data.length < pageSize ∨ page.total.any (· ≤ ((count + page.data.length : Nat) : Int))
      then .ok page.data
    else match readPages failure (count + page.data.length) rest with
      | .error e => .error e
      | .ok more => .ok (page.data ++ more)

def listAll (answer : Pages T) : Except Failure (List T) := readPages answer.failure 0 answer.pages

/-- Page `i`, counted from 0, of some items. -/
def pageOf (items : List T) (withTotal : Nat → Bool) (i : Nat) : Page T where
  data := (items.drop (i * pageSize)).take pageSize
  total := if withTotal i then some items.length else none

/-- An answer to a list request: the first pages of the items. -/
def Lists (items : List T) (answer : Pages T) : Prop :=
  ∃ withTotal n, answer.pages = (List.range n).map (pageOf items withTotal)

variable {items : List T} {withTotal : Nat → Bool} {failure : Failure}

private theorem pageOf_append (i : Nat) :
    (pageOf items withTotal i).data ++ items.drop ((i + 1) * pageSize) = items.drop
    (i * pageSize) := by
  have hdrop : items.drop ((i + 1) * pageSize) = (items.drop (i * pageSize)).drop pageSize := by
    rw [List.drop_drop, Nat.add_one_mul]
  rw [pageOf, hdrop, List.take_append_drop]

/-- Where the reading stops, no item is left. -/
theorem drop_eq_nil_of_stop {i : Nat} (hstop : (pageOf items withTotal i).data.length < pageSize ∨
    (pageOf items withTotal i).total.any
    (· ≤ ((i * pageSize + (pageOf items withTotal i).data.length : Nat) : Int)) = true) :
    items.drop ((i + 1) * pageSize) = [] := by
  rw [List.drop_eq_nil_iff, Nat.add_one_mul]
  have hlength : (pageOf items withTotal i).data.length =
      min pageSize (items.length - i * pageSize) := by
    simp only [pageOf, List.length_take, List.length_drop]
  rcases hstop with hshort | htotal
  · omega
  · simp only [pageOf] at htotal
    split_ifs at htotal
    · simp only [Option.any_some, decide_eq_true_eq, List.length_take, List.length_drop] at htotal
      omega
    · cases htotal

/-- A page that is not the last is full. -/
theorem length_of_full {i : Nat} (h : ¬(pageOf items withTotal i).data.length < pageSize) :
    i * pageSize + (pageOf items withTotal i).data.length = (i + 1) * pageSize := by
  have hlength : (pageOf items withTotal i).data.length =
      min pageSize (items.length - i * pageSize) := by
    simp only [pageOf, List.length_take, List.length_drop]
  rw [Nat.add_one_mul]
  omega

/-- The pages from page `i` on are read to the items from there on, and they are
read to the end where they hold all of them and one page more than is full. -/
theorem readPages_pages (n i : Nat) :
    (∀ out, readPages failure (i * pageSize) ((List.range' i n).map (pageOf items withTotal)) =
      .ok out →
      out = items.drop (i * pageSize)) ∧
    (items.length < (i + n) * pageSize →
      n ≠ 0 → ∃ out, readPages failure (i * pageSize)
        ((List.range' i n).map (pageOf items withTotal)) = .ok out) := by
  induction n generalizing i with
  | zero => exact ⟨fun _ h => (by cases h), fun _ h => absurd rfl h⟩
  | succ n ih =>
    simp only [List.range'_succ, List.map_cons, readPages]
    by_cases hstop : (pageOf items withTotal i).data.length < pageSize ∨
        (pageOf items withTotal i).total.any
          (· ≤ ((i * pageSize + (pageOf items withTotal i).data.length : Nat) : Int)) = true
    · rw [if_pos hstop]
      refine ⟨fun out h => ?_, fun _ _ => ⟨_, rfl⟩⟩
      rw [← Except.ok.inj h, ← pageOf_append i, drop_eq_nil_of_stop hstop, List.append_nil]
    · rw [if_neg hstop, length_of_full fun h => hstop (.inl h)]
      obtain ⟨hread, hend⟩ := ih (i + 1)
      constructor
      · intro out h
        cases hrest : readPages failure ((i + 1) * pageSize)
          ((List.range' (i + 1) n).map (pageOf items withTotal)) with
        | error e => simp [hrest] at h
        | ok more =>
          rw [hrest] at h
          rw [← Except.ok.inj h, hread more hrest, ← pageOf_append i]
      · intro hlt _
        have hn : n ≠ 0 := by
          rintro rfl
          refine hstop (.inl ?_)
          simp only [pageOf, List.length_take, List.length_drop]
          have hstep : (i + (0 + 1)) * pageSize = i * pageSize + pageSize :=
            Nat.add_one_mul i pageSize
          have hpos : 0 < pageSize := by decide
          rw [hstep] at hlt
          omega
        obtain ⟨more, hmore⟩ := hend (by rwa [Nat.add_assoc, Nat.add_comm 1 n]) hn
        exact ⟨_, by rw [hmore]⟩

/-- A list that is read to its end has been read whole. -/
theorem Lists.listAll_eq {answer : Pages T} (h : Lists items answer) {out : List T}
    (hout : listAll answer = .ok out) :
    out = items := by
  obtain ⟨withTotal, n, hpages⟩ := h
  rw [listAll, hpages, List.range_eq_range'] at hout
  have hread := (readPages_pages n 0).1 out (by simpa using hout)
  rw [hread, Nat.zero_mul, List.drop_zero]

end ListAll

end openmeterapi
