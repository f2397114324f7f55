import ServingPack.Console.Spend
import ServingPack.Lib.Delimited

open golang openmeter

namespace csv

/-- A cell of a table; a number by its decimal text. -/
inductive Cell where
  | text (s : GoString)
  | number (shown : GoString)
  | boolean (b : Bool)
  | null

/-- Whether a spreadsheet would run a text. -/
def startsFormula : GoString → Bool
  | [] => false
  | c :: _ => c == 61 || c == 43 || c == 45 || c == 64 || c == 9 || c == 13

/-- What a cell shows. A text cell starting like a formula gets a leading quote. -/
def Cell.shown : Cell → GoString
  | .text s => if startsFormula s then 39 :: s else s
  | .number shown => shown
  | .boolean b => if b then "true" else "false"
  | .null => []

def cell : Cell → GoString
  | .null => []
  | v => if v.shown.any delimited.special then 34 :: (delimited.escape v.shown ++ [34]) else v.shown

def toCsv (rows : List (List Cell)) : GoString :=
  List.intercalate [10] (rows.map (fun r => List.intercalate [44] (r.map cell))) ++ [10]

/-- `toFixed(2)` of a number below 10^21. -/
def toFixed2 (x : Rat) : GoString :=
  let cents := (|x| * 100 + 1 / 2).floor.toNat
  let digits := itoa (cents / 100) ++ 46 :: (itoa (cents / 10 % 10) ++ itoa (cents % 10))
  if x < 0 then 45 :: digits else digits

/-- Spend's breakdown as it is exported. -/
def spendRow (r : SpendRow) : List Cell :=
  [.text r.label, .text [],
    .text (if r.unpriced ≠ 0 && r.spendUSD = 0 then "no price" else toFixed2 r.spendUSD),
    .text (toFixed2 r.prevSpendUSD), .number (itoa r.requests), .number (itoa r.unpriced),
      .number (itoaInt r.tokens)]

def spendHeader (by_ : GoString) : List Cell :=
  [.text by_, .text "detail", .text "spend_usd", .text "previous_spend_usd", .text "requests",
    .text "unpriced_requests",
    .text "tokens"]

def spendCsv (by_ : GoString) (rows : List SpendRow) : GoString :=
  toCsv (spendHeader by_ :: rows.map spendRow)

section Cells

variable {s : GoString} {v : Cell}

/-- The leading quote leaves nothing that a spreadsheet would run. -/
theorem not_startsFormula_shown : startsFormula (Cell.text s).shown = false := by
  rw [Cell.shown]
  split_ifs with hformula
  · rfl
  · exact Bool.not_eq_true _ ▸ hformula

private theorem cell_eq : cell v = delimited.writeCell v.shown := by
  cases v with
  | null => rfl
  | text s => rfl
  | number shown => rfl
  | boolean b => rfl

private theorem toCsv_eq (rows : List (List Cell)) :
    toCsv rows = delimited.write (rows.map (List.map Cell.shown)) := by
  have hrow (r : List Cell) : List.intercalate [44] (r.map cell) =
      delimited.writeRow (r.map Cell.shown) := by
    rw [delimited.writeRow, List.map_map]
    exact congrArg _ (List.map_congr_left fun v _ => cell_eq)
  rw [toCsv, delimited.write, List.map_map]
  congr 2
  exact List.map_congr_left fun r _ => hrow r

/-- A reader of quoted texts gets back what each cell shows, row by row. -/
theorem toCsv_reads (rows : List (List Cell)) : delimited.read (toCsv rows) =
    some ((delimited.orOne [] (rows.map (List.map Cell.shown))).map (delimited.orOne [])) := by
  rw [toCsv_eq, delimited.read_write]

end Cells

/-- Whatever the cells hold, a reader of quoted texts, which takes line feeds besides the CRLF
of RFC 4180, gets back what each of them shows, row by row: a row of no cells as one empty
cell, and a table of no rows as one row of it. No text it gets from a text cell is one that a
spreadsheet would run. -/
theorem toCsv_read (rows : List (List Cell)) :
    delimited.read (toCsv rows) =
        some ((delimited.orOne [] (rows.map (List.map Cell.shown))).map (delimited.orOne [])) ∧
      ∀ row ∈ rows, ∀ s, Cell.text s ∈ row → startsFormula (Cell.text s).shown = false := by
  refine ⟨toCsv_reads rows, ?_⟩
  intro row hrow s hs
  exact not_startsFormula_shown

/-- A formula with a comma is shown as text, in quotes. -/
example : toCsv [[.text "=1,2", .null, .number "3"]] = lit "\"'=1,2\",,3\n" := by decide

/-- The exported breakdown reads back as its header and a record for each row. -/
theorem spendCsv_read (by_ : GoString) (rows : List SpendRow) : delimited.read (spendCsv by_ rows) =
    some ((spendHeader by_).map Cell.shown :: rows.map (fun r => (spendRow r).map Cell.shown)) := by
  rw [spendCsv, toCsv_reads, List.map_cons, delimited.orOne_of_ne_nil (List.cons_ne_nil _ _),
    List.map_cons, List.map_map, List.map_map]
  have hheader : delimited.orOne [] ((spendHeader by_).map Cell.shown) =
      (spendHeader by_).map Cell.shown :=
    delimited.orOne_of_ne_nil (List.cons_ne_nil _ _)
  rw [hheader]
  refine congrArg some (congrArg _ (List.map_congr_left fun r _ => ?_))
  have hrow : delimited.orOne [] ((spendRow r).map Cell.shown) = (spendRow r).map Cell.shown :=
    delimited.orOne_of_ne_nil (List.cons_ne_nil _ _)
  exact hrow

end csv
