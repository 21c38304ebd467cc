import RelationalRest.Sql.Statement

/-
  This file defines columns, comparisons and conditions.

  Key definitions include:
    * `Sql.Column`
    * `Sql.Comparison`
    * `Sql.Condition`
    * `Sql.Condition.pieces`
    * `Sql.wherePieces`
-/

namespace RelationalRest

namespace Sql

------------------------------------------------------------
-- Columns
------------------------------------------------------------

/- A column of the root table or of a table joined by a label. -/
structure Column where
  qualifier : String
  name : String
deriving DecidableEq, Repr

namespace Column

/- The name under which a column appears in a result row. -/
def resultName (c : Column) : String :=
  c.qualifier ++ "_" ++ c.name

/- The name of a column in a message. -/
def label (c : Column) : String :=
  c.qualifier ++ "." ++ c.name

/- The pieces of a column. -/
def pieces (c : Column) : List Piece :=
  [.name c.qualifier, .text ".", .name c.name]

end Column

------------------------------------------------------------
-- Comparisons
------------------------------------------------------------

/- How a column is compared with a value. -/
inductive Comparison where
| eq
| ne
| lt
| le
| gt
| ge
| like
| notLike
deriving DecidableEq, Repr

/- The written form of a comparison. -/
def Comparison.text : Comparison → String
| .eq => "="
| .ne => "<>"
| .lt => "<"
| .le => "<="
| .gt => ">"
| .ge => ">="
| .like => "LIKE"
| .notLike => "NOT LIKE"

------------------------------------------------------------
-- Conditions
------------------------------------------------------------

/- A comparison, or a choice between conditions. -/
inductive Condition where
| compare (column : Column) (op : Comparison) (value : Value)
| anyOf (parts : List Condition)

namespace Condition

/- A column equals a value. -/
def equal
    (column : Column)
    (value : Value) : Condition :=
  .compare column .eq value

/-
  The pieces of a comparison.  An absent value is tested by
  its own form, whose sense only inequality reverses.
-/
def comparePieces
    (column : Column)
    (op : Comparison)
    (value : Value) : List Piece :=
  if value.isNull then
    column.pieces ++
      [.text (if op = .ne then " IS NOT NULL" else " IS NULL")]
  else
    column.pieces ++
      [.text (" " ++ op.text ++ " "), .operand value]

mutual

/- The pieces of a condition. -/
def pieces : Condition → List Piece
| .compare column op value => comparePieces column op value
| .anyOf parts => .text "(" :: choicePieces parts ++ [.text ")"]
termination_by structural c => c

/- The pieces of a choice, without its brackets. -/
def choicePieces : List Condition → List Piece
| [] => []
| [c] => pieces c
| c :: rest => pieces c ++ .text " OR " :: choicePieces rest
termination_by structural cs => cs

end

end Condition

/- The pieces of conditions that must all hold. -/
def wherePieces (conditions : List Condition) : List Piece :=
  if conditions.isEmpty then
    []
  else
    .text " WHERE " ::
      joined " AND " (conditions.map Condition.pieces)

end Sql

end RelationalRest
