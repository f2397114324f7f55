import ServingPack.Lib.GoString

open golang

namespace delimited

/-- A byte that a cell can hold in quotes only: a quote, a comma or a line break. -/
def special (c : UInt8) : Bool := c == 34 || c == 44 || c == 10 || c == 13

/-- A cell's text with each quote doubled. -/
def escape (s : GoString) : GoString := s.flatMap (fun c => if c = 34 then [34, 34] else [c])

def writeCell (s : GoString) : GoString := if s.any special then 34 :: (escape s ++ [34]) else s

def writeRow (row : List GoString) : GoString := List.intercalate [44] (row.map writeCell)

/-- A table, each row on lines of its own. -/
def write (rows : List (List GoString)) : GoString :=
  List.intercalate [10] (rows.map writeRow) ++ [10]

/-- Where a reader is: before a cell, in one without quotes, in one with quotes, after
its last quote, or after a carriage return that ends a line. -/
inductive Mode where
  | start
  | plain
  | quoted
  | closed
  | returned

/-- What comes of a byte outside quotes: the end of the cell, or of the line. -/
def outside {α : Type} (c : UInt8) (comma newline returned other : α) : α :=
  if c = 44 then comma else if c = 10 then newline else if c = 13 then returned else other

/-- What has been read of a last line without a line break. -/
def lastLine : Mode → GoString → List GoString → Option (List (List GoString))
  | .quoted, _, _ => none
  | .returned, _, _ => none
  | .start, cell, row => if row = [] then some [] else some [row ++ [cell]]
  | _, cell, row => some [row ++ [cell]]

/-- Reads on, with the text so far of a cell and the cells so far of its row. -/
def readFrom : Mode → GoString → List GoString → GoString → Option (List (List GoString))
  | mode, cell, row, [] => lastLine mode cell row
  | .start, cell, row, c :: rest =>
    outside c (readFrom .start [] (row ++ [cell]) rest)
      ((readFrom .start [] [] rest).map (fun rows => (row ++ [cell]) :: rows))
      (readFrom .returned cell row rest)
      (if c = 34 then readFrom .quoted cell row rest else readFrom .plain (cell ++ [c]) row rest)
  | .plain, cell, row, c :: rest =>
    outside c (readFrom .start [] (row ++ [cell]) rest)
      ((readFrom .start [] [] rest).map (fun rows => (row ++ [cell]) :: rows))
      (readFrom .returned cell row rest)
      (if c = 34 then none else readFrom .plain (cell ++ [c]) row rest)
  | .quoted, cell, row, c :: rest =>
    if c = 34 then readFrom .closed cell row rest else readFrom .quoted (cell ++ [c]) row rest
  | .closed, cell, row, c :: rest =>
    outside c (readFrom .start [] (row ++ [cell]) rest)
      ((readFrom .start [] [] rest).map (fun rows => (row ++ [cell]) :: rows))
      (readFrom .returned cell row rest)
      (if c = 34 then readFrom .quoted (cell ++ [34]) row rest else none)
  | .returned, cell, row, c :: rest =>
    if c = 10 then (readFrom .start [] [] rest).map (fun rows => (row ++ [cell]) :: rows) else none

/-- The rows of a text, if it is one of a table. A line may end in a line feed, or in a
carriage return and one. -/
def read (s : GoString) : Option (List (List GoString)) := readFrom .start [] [] s

/-- Rows and cells as they are written: a table has a row at least, and a row a cell. -/
def orOne {α : Type} (one : α) (l : List α) : List α := if l = [] then [one] else l

theorem orOne_of_ne_nil {α : Type} {one : α} {l : List α} (h : l ≠ []) : orOne one l = l := if_neg h

section Read

variable {cell s rest : GoString} {row cells : List GoString} {rows : List (List GoString)}
  {c : UInt8}

private theorem outside_comma {α : Type} {comma newline returned other : α} :
    outside 44 comma newline returned other = comma := rfl

private theorem outside_newline {α : Type} {comma newline returned other : α} :
    outside 10 comma newline returned other = newline := rfl

private theorem outside_quote {α : Type} {comma newline returned other : α} :
    outside 34 comma newline returned other = other := rfl

private theorem outside_plain {α : Type} {comma newline returned other : α}
    (hplain : special c = false) :
    outside c comma newline returned other = other := by
  rw [special, Bool.or_eq_false_iff, Bool.or_eq_false_iff, Bool.or_eq_false_iff] at hplain
  obtain ⟨⟨⟨_, hcomma⟩, hnewline⟩, hreturn⟩ := hplain
  rw [outside, if_neg (by simpa using hcomma), if_neg (by simpa using hnewline),
    if_neg (by simpa using hreturn)]

private theorem ne_quote (hplain : special c = false) : c ≠ 34 := by
  rintro rfl
  cases hplain

private theorem readFrom_start_cons (c : UInt8) : readFrom .start cell row (c :: rest) =
    outside c (readFrom .start [] (row ++ [cell]) rest)
      ((readFrom .start [] [] rest).map (fun rows => (row ++ [cell]) :: rows))
      (readFrom .returned cell row rest)
      (if c = 34 then readFrom .quoted cell row rest else readFrom .plain (cell ++ [c]) row rest) :=
  rfl

private theorem readFrom_plain_cons (c : UInt8) : readFrom .plain cell row (c :: rest) =
    outside c (readFrom .start [] (row ++ [cell]) rest)
      ((readFrom .start [] [] rest).map (fun rows => (row ++ [cell]) :: rows))
      (readFrom .returned cell row rest)
      (if c = 34 then none else readFrom .plain (cell ++ [c]) row rest) :=
  rfl

private theorem readFrom_quoted_cons (c : UInt8) : readFrom .quoted cell row (c :: rest) =
    if c = 34 then readFrom .closed cell row rest else readFrom .quoted (cell ++ [c]) row rest :=
  rfl

private theorem readFrom_closed_cons (c : UInt8) : readFrom .closed cell row (c :: rest) =
    outside c (readFrom .start [] (row ++ [cell]) rest)
      ((readFrom .start [] [] rest).map (fun rows => (row ++ [cell]) :: rows))
      (readFrom .returned cell row rest)
      (if c = 34 then readFrom .quoted (cell ++ [34]) row rest else none) :=
  rfl

private theorem readFrom_plain (hplain : s.any special = false) :
    readFrom .plain cell row (s ++ rest) = readFrom .plain (cell ++ s) row rest := by
  induction s generalizing cell with
  | nil => rw [List.nil_append, List.append_nil]
  | cons c s ih =>
    rw [List.any_cons, Bool.or_eq_false_iff] at hplain
    rw [List.cons_append, readFrom_plain_cons, outside_plain hplain.1, if_neg (ne_quote hplain.1),
      ih hplain.2, List.append_assoc, List.singleton_append]

private theorem readFrom_quoted :
    readFrom .quoted cell row (escape s ++ 34 :: rest) = readFrom .closed (cell ++ s) row rest := by
  induction s generalizing cell with
  | nil => rw [escape, List.flatMap_nil, List.nil_append, readFrom_quoted_cons, if_pos rfl,
    List.append_nil]
  | cons c s ih =>
    rw [escape, List.flatMap_cons, ← escape, List.append_assoc]
    by_cases hquote : c = 34
    · subst hquote
      rw [if_pos rfl, List.cons_append, List.singleton_append, readFrom_quoted_cons, if_pos rfl,
        readFrom_closed_cons, outside_quote, if_pos rfl, ih, List.append_assoc,
        List.singleton_append]
    · rw [if_neg hquote, List.singleton_append, readFrom_quoted_cons, if_neg hquote, ih,
        List.append_assoc, List.singleton_append]

/-- Past a cell, the reader holds its text and is where the cell can end. -/
theorem readFrom_cell : ∃ mode, (mode = .start ∨ mode = .plain ∨ mode = .closed) ∧
    readFrom .start [] row (writeCell s ++ rest) = readFrom mode s row rest := by
  rw [writeCell]
  split_ifs with hspecial
  · refine ⟨.closed, .inr (.inr rfl), ?_⟩
    rw [List.cons_append, readFrom_start_cons, outside_quote, if_pos rfl, List.append_assoc,
      List.singleton_append, readFrom_quoted, List.nil_append]
  · cases s with
    | nil => exact ⟨.start, .inl rfl, rfl⟩
    | cons c s =>
      rw [Bool.not_eq_true, List.any_cons, Bool.or_eq_false_iff] at hspecial
      refine ⟨.plain, .inr (.inl rfl), ?_⟩
      rw [List.cons_append, readFrom_start_cons, outside_plain hspecial.1,
        if_neg (ne_quote hspecial.1), readFrom_plain hspecial.2, List.nil_append,
        List.singleton_append]

private theorem readFrom_comma :
    readFrom .start [] row (writeCell s ++ 44 :: rest) = readFrom .start [] (row ++ [s]) rest := by
  obtain ⟨mode, hmode, hread⟩ := @readFrom_cell s (44 :: rest) row
  rw [hread]
  rcases hmode with rfl | rfl | rfl
  · rw [readFrom_start_cons, outside_comma]
  · rw [readFrom_plain_cons, outside_comma]
  · rw [readFrom_closed_cons, outside_comma]

private theorem readFrom_newline : readFrom .start [] row (writeCell s ++ 10 :: rest) =
    (readFrom .start [] [] rest).map (fun rows => (row ++ [s]) :: rows) := by
  obtain ⟨mode, hmode, hread⟩ := @readFrom_cell s (10 :: rest) row
  rw [hread]
  rcases hmode with rfl | rfl | rfl
  · rw [readFrom_start_cons, outside_newline]
  · rw [readFrom_plain_cons, outside_newline]
  · rw [readFrom_closed_cons, outside_newline]

private theorem readFrom_row (hcells : cells ≠ []) :
    readFrom .start [] row (writeRow cells ++ 10 :: rest) =
    (readFrom .start [] [] rest).map (fun rows => (row ++ cells) :: rows) := by
  induction cells generalizing row with
  | nil => exact absurd rfl hcells
  | cons s cells ih =>
    rw [writeRow, List.map_cons]
    cases cells with
    | nil => rw [List.map_nil, List.intercalate_singleton, readFrom_newline]
    | cons s' cells =>
      rw [List.map_cons, List.intercalate_cons_cons, ← List.map_cons, ← writeRow, List.append_assoc,
        List.append_assoc, List.singleton_append, readFrom_comma, ih (List.cons_ne_nil _ _),
        List.append_assoc, List.singleton_append]

private theorem writeRow_orOne : writeRow (orOne [] cells) = writeRow cells := by
  rw [orOne]
  split_ifs with hnone
  · subst hnone
    rfl
  · rfl

/-- A row reads back as its cells, an empty one as one empty cell. -/
theorem readFrom_line : readFrom .start [] [] (writeRow cells ++ 10 :: rest) =
    (readFrom .start [] [] rest).map (fun rows => orOne [] cells :: rows) := by
  rw [← writeRow_orOne, readFrom_row]
  · rfl
  · rw [orOne]
    split_ifs with hnone
    · exact List.cons_ne_nil _ _
    · exact hnone

private theorem write_cons (hrows : rows ≠ []) :
    write (cells :: rows) = writeRow cells ++ 10 :: write rows := by
  rw [write, write, List.map_cons,
    List.intercalate_cons_of_ne_nil (fun hnone => hrows (List.map_eq_nil_iff.mp hnone)),
    List.append_assoc, List.append_assoc, List.singleton_append]

/-- Whatever a table holds, its text reads back as that table. -/
theorem read_write (rows : List (List GoString)) :
    read (write rows) = some ((orOne [] rows).map (orOne [])) := by
  induction rows with
  | nil => rfl
  | cons cells rows ih =>
    have hthere : orOne [] (cells :: rows) = cells :: rows := orOne_of_ne_nil (List.cons_ne_nil _ _)
    rw [hthere, List.map_cons, read]
    by_cases hrows : rows = []
    · subst hrows
      rw [write, List.map_singleton, List.intercalate_singleton, readFrom_line]
      rfl
    · have hrest : orOne [] rows = rows := orOne_of_ne_nil hrows
      rw [write_cons hrows, readFrom_line, ← read, ih, hrest]
      rfl

end Read

section Split

variable {α : Type} [DecidableEq α] {sep : α}

/-- No part between separators has one. -/
theorem sep_notMem_of_mem_splitOn {l part : List α} (h : part ∈ l.splitOn sep) : sep ∉ part := by
  induction l generalizing part with
  | nil =>
    rw [List.splitOn_nil, List.mem_singleton] at h
    rw [h]
    exact List.not_mem_nil
  | cons c rest ih =>
    rw [List.splitOn_cons_eq_if_modifyHead] at h
    split_ifs at h with hc
    · obtain rfl | hrest := List.mem_cons.mp h
      · exact List.not_mem_nil
      · exact ih hrest
    · cases hsplit : rest.splitOn sep with
      | nil => exact absurd hsplit (List.splitOn_ne_nil sep rest)
      | cons first others =>
        rw [hsplit] at h ih
        obtain rfl | hothers := List.mem_cons.mp h
        · intro hmem
          obtain hc' | hfirst := List.mem_cons.mp hmem
          · exact hc (by simp [← hc'])
          · exact ih List.mem_cons_self hfirst
        · exact ih (List.mem_cons_of_mem _ hothers)

end Split

end delimited
