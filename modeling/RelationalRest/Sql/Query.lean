import RelationalRest.Sql.Condition

/-
  This file defines queries: a root table, selected columns,
  left joins by label, conditions, an ordering and a page.
  A query is built by adding to it; it is written out as a
  selection of rows or as a count of them.

  Key definitions include:
    * `Sql.Table`
    * `Sql.Query`
    * `Sql.Query.addColumn`
    * `Sql.Query.leftJoin`
    * `Sql.Query.select`
    * `Sql.Query.count`
-/

namespace RelationalRest

namespace Sql

------------------------------------------------------------
-- Tables
------------------------------------------------------------

/- A table, or a derived table that its name stands for. -/
structure Table where
  name : String
  source : Option String := none
deriving DecidableEq, Repr

/- The pieces of a table that is known by a name of its own. -/
def Table.piecesAs
    (t : Table)
    (label : String) : List Piece :=
  match t.source with
  | some source =>
      [.text "(", .derived source, .text ") AS ", .name label]
  | none =>
      if label = t.name then
        [.name t.name]
      else
        [.name t.name, .text " AS ", .name label]

------------------------------------------------------------
-- Queries
------------------------------------------------------------

/- The direction of an ordering. -/
inductive Direction where
| ascending
| descending
deriving DecidableEq, Repr

/- The written form of a direction. -/
def Direction.text : Direction → String
| .ascending => "ASC"
| .descending => "DESC"

/- A table joined under a label, where two columns agree. -/
structure Join where
  table : Table
  label : String
  left : Column
  right : Column
deriving DecidableEq, Repr

/- The pieces of a join. -/
def Join.pieces (j : Join) : List Piece :=
  .text " LEFT JOIN " :: j.table.piecesAs j.label ++
    .text " ON " :: j.left.pieces ++
    .text " = " :: j.right.pieces

/- A query. -/
structure Query where
  root : Table
  columns : List Column := []
  joins : List Join := []
  conditions : List Condition := []
  ordering : List (Column × Direction) := []
  limit : Option Nat := none
  offset : Option Nat := none

namespace Query

/- Select a column, unless it is selected already. -/
def addColumn
    (q : Query)
    (c : Column) : Query :=
  if c ∈ q.columns then
    q
  else
    { q with columns := q.columns ++ [c] }

/- A label is joined. -/
def isJoined
    (q : Query)
    (label : String) : Bool :=
  q.joins.any fun j => j.label = label

/- Join a table, unless its label is joined already. -/
def leftJoin
    (q : Query)
    (j : Join) : Query :=
  if q.isJoined j.label then
    q
  else
    { q with joins := q.joins ++ [j] }

/- Demand a condition. -/
def addCondition
    (q : Query)
    (c : Condition) : Query :=
  { q with conditions := q.conditions ++ [c] }

/- Order by a column, after the columns ordered by before. -/
def orderBy
    (q : Query)
    (c : Column)
    (d : Direction) : Query :=
  { q with ordering := q.ordering ++ [(c, d)] }

/- No column is selected twice by adding one. -/
theorem nodup_columns_addColumn
    {q : Query}
    (h : q.columns.Nodup)
    (c : Column) :
    (q.addColumn c).columns.Nodup := by
  unfold addColumn
  by_cases hc : c ∈ q.columns
  · simpa [hc] using h
  · simp only [hc, if_false]
    rw [List.nodup_append]
    refine ⟨h, by simp, ?_⟩
    intro a ha b hb hab
    have hb' : b = c := by simpa using hb
    subst hb'
    exact hc (hab ▸ ha)

------------------------------------------------------------
-- Writing out
------------------------------------------------------------

/- The pieces that name the tables and the conditions. -/
def bodyPieces (q : Query) : List Piece :=
  .text " FROM " :: q.root.piecesAs q.root.name ++
    q.joins.flatMap Join.pieces ++ wherePieces q.conditions

/- The pieces of one selected column. -/
def columnPieces (c : Column) : List Piece :=
  c.pieces ++ [.text " AS ", .name c.resultName]

/- The pieces of the selected columns; none means all of the root. -/
def selectionPieces (q : Query) : List Piece :=
  if q.columns.isEmpty then
    [.name q.root.name, .text ".*"]
  else
    joined ", " (q.columns.map columnPieces)

/- The pieces of the ordering. -/
def orderingPieces (q : Query) : List Piece :=
  if q.ordering.isEmpty then
    []
  else
    .text " ORDER BY " ::
      joined ", " (q.ordering.map fun (c, d) =>
        c.pieces ++ [.text (" " ++ d.text)])

/- The pieces of a bound on the page, if there is one. -/
def boundPieces
    (word : String)
    (bound : Option Nat) : List Piece :=
  match bound with
  | some n => [.text (word ++ toString n)]
  | none => []

/- The pieces of the selection of rows. -/
def selectPieces (q : Query) : List Piece :=
  .text "SELECT " :: q.selectionPieces ++ q.bodyPieces ++
    q.orderingPieces ++ boundPieces " LIMIT " q.limit ++
    boundPieces " OFFSET " q.offset

/- The pieces of the count of rows. -/
def countPieces (q : Query) : List Piece :=
  [.text "SELECT COUNT(*) AS ", .name "count"] ++ q.bodyPieces

/- The statement that selects the rows. -/
def select (q : Query) : Statement :=
  assemble q.selectPieces

/- The statement that counts the rows on all pages. -/
def count (q : Query) : Statement :=
  assemble q.countPieces

end Query

end Sql

end RelationalRest
