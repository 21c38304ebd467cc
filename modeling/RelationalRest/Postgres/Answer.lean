import RelationalRest.Postgres.Cell
import RelationalRest.Text.Cut
import RelationalRest.Text.Numeral

/-
  This file defines what the answer of the database to a
  statement means: its rows, the count in its first row, or
  the number of rows that the statement changed.

  Key definitions include:
    * `Postgres.Answer`
    * `Postgres.Answer.rowValues`
    * `Postgres.Answer.count?`
    * `Postgres.Answer.affected`
-/

namespace RelationalRest

namespace Postgres

/- The columns and rows of an answer, and its closing tag. -/
structure Answer where
  columns : List ResultColumn
  rows : List CellRow
  tag : String

namespace Answer

/- The rows of an answer. -/
def rowValues (a : Answer) : List (Fields Json) :=
  a.rows.map (rowOf a.columns)

/- The last column of a name, with its cell in a row. -/
def lastCell?
    (a : Answer)
    (name : String)
    (cells : CellRow) : Option (ResultColumn × Option (List UInt8)) :=
  (a.columns.zip cells).reverse.find? fun (column, _) =>
    column.name = name

/-
  The count in the first row; a negative one means none.  Its
  column must be one of whole numbers of eight octets.
-/
def count? (a : Answer) : Option Nat := do
  let cells ← a.rows.head?
  let (column, cell) ← a.lastCell? "count" cells
  let bytes ← cell
  if column.type = .int 8 then
    (Octets.integer? 8 bytes).map Int.toNat
  else
    none

/-
  The number at the start of a word, zero if there is none; a
  plus sign may precede it.
-/
def leadingNumber (word : List Char) : Nat :=
  let digits :=
    match word with
    | '+' :: rest => rest.takeWhile Char.isDigit
    | _ => word.takeWhile Char.isDigit
  (Text.nat64? digits).getD 0

/-
  The number of rows that the statement changed: the number
  that begins the last word of the tag, after a blank.
-/
def affected (a : Answer) : Nat :=
  match Text.cut ' ' a.tag.toList.reverse with
  | none => 0
  | some (word, _) => leadingNumber word.reverse

end Answer

end Postgres

end RelationalRest
