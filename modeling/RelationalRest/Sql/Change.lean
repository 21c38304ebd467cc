import RelationalRest.Fields
import RelationalRest.Sql.Query

/-
  This file defines the statements that change a table:
  insertion of rows, assignment and deletion.

  Key definitions include:
    * `Sql.Insert`
    * `Sql.Insert.columns`
    * `Sql.Insert.statement`
    * `Sql.Update`
    * `Sql.Delete`
-/

namespace RelationalRest

namespace Sql

------------------------------------------------------------
-- Insertion
------------------------------------------------------------

/-
  Rows to insert.  A row that lacks a column takes the
  default of that column.  A keep column makes a row whose
  key exists already leave the table as it is; a returning
  column is read back for every row.
-/
structure Insert where
  table : Table
  rows : List (Fields Value)
  keep : Option String := none
  returning : Option String := none

namespace Insert

/- The columns of all rows, in the order they are first seen. -/
def columns (i : Insert) : List String :=
  (i.rows.flatMap Fields.keys).foldl
    (fun seen name =>
      if name ∈ seen then seen else seen ++ [name])
    []

/- The piece of a cell: its value, or the default. -/
def cellPiece
    (row : Fields Value)
    (column : String) : Piece :=
  match Fields.get? row column with
  | some v => .operand v
  | none => .text "DEFAULT"

/- The pieces of a row over given columns. -/
def rowPieces
    (columns : List String)
    (row : Fields Value) : List Piece :=
  .text "(" ::
    joined ", " (columns.map fun c => [cellPiece row c]) ++
    [.text ")"]

/- The pieces of a list of column names. -/
def namePieces (columns : List String) : List Piece :=
  .text " (" :: joined ", " (columns.map fun c => [.name c]) ++
    [.text ") VALUES "]

/-
  The pieces of the rows.  Rows without any column take the
  default of every column; several of them name the returning
  column and take its default, one row each.
-/
def valuePieces (i : Insert) : List Piece :=
  if i.columns.isEmpty then
    match i.returning with
    | some column =>
        if 1 < i.rows.length then
          namePieces [column] ++
            joined ", " (i.rows.map fun _ => [.text "(DEFAULT)"])
        else
          [.text " DEFAULT VALUES"]
    | none => [.text " DEFAULT VALUES"]
  else
    namePieces i.columns ++
      joined ", " (i.rows.map (rowPieces i.columns))

/- The pieces of a keep column, if there is one. -/
def keepPieces : Option String → List Piece
| some c =>
    [.text " ON CONFLICT (", .name c,
      .text ") DO UPDATE SET ", .name c,
      .text " = EXCLUDED.", .name c]
| none => []

/- The pieces of a returning column, if there is one. -/
def returningPieces : Option String → List Piece
| some c => [.text " RETURNING ", .name c]
| none => []

/- The pieces of an insertion. -/
def pieces (i : Insert) : List Piece :=
  [.text "INSERT INTO ", .name i.table.name] ++ i.valuePieces ++
    keepPieces i.keep ++ returningPieces i.returning

/- The statement of an insertion. -/
def statement (i : Insert) : Statement :=
  assemble i.pieces

end Insert

------------------------------------------------------------
-- Assignment and deletion
------------------------------------------------------------

/- An assignment of values to the rows that meet conditions. -/
structure Update where
  table : Table
  sets : List (String × Value)
  conditions : List Condition

/- The pieces of an assignment. -/
def Update.pieces (u : Update) : List Piece :=
  [.text "UPDATE ", .name u.table.name, .text " SET "] ++
    joined ", " (u.sets.map fun (c, v) =>
      [.name c, .text " = ", .operand v]) ++
    wherePieces u.conditions

/- The statement of an assignment. -/
def Update.statement (u : Update) : Statement :=
  assemble u.pieces

/- A deletion of the rows that meet conditions. -/
structure Delete where
  table : Table
  conditions : List Condition

/- The pieces of a deletion. -/
def Delete.pieces (d : Delete) : List Piece :=
  [.text "DELETE FROM ", .name d.table.name] ++
    wherePieces d.conditions

/- The statement of a deletion. -/
def Delete.statement (d : Delete) : Statement :=
  assemble d.pieces

end Sql

end RelationalRest
