import RelationalRest.Sql.Condition

/-
  How conditions that must all hold are written out, one after
  the other: what a comparison for equality adds to the text
  and to the parameters, and what may follow upon it.

  Key definitions include:
    * `Sql.Column.written`
    * `Sql.EndsCondition`
    * `Sql.laterPieces`

  Main declarations:
    * `Sql.joined_cons`
    * `Sql.wherePieces_cons`
    * `Sql.textFrom_equal`
    * `Sql.params_equal`
-/

namespace RelationalRest

namespace Sql

------------------------------------------------------------
-- Conditions in a row
------------------------------------------------------------

/- A column as it is written. -/
def Column.written (col : Column) : String :=
  quoted col.qualifier ++ "." ++ quoted col.name

/- What follows a condition: nothing, or a further condition. -/
def EndsCondition (rest : String) : Prop :=
  rest = "" ∨ ∃ later, rest = " AND " ++ later

/- A fixed text stands before each list of pieces but the first. -/
theorem joined_cons
    (separator : String)
    (ps : List Piece)
    (lists : List (List Piece)) :
    joined separator (ps :: lists) =
      ps ++ lists.flatMap fun qs => .text separator :: qs := by
  induction lists generalizing ps with
  | nil => simp [joined]
  | cons qs lists ih => simp [joined, ih]

/- The pieces of the conditions after the first. -/
def laterPieces (conditions : List Condition) : List Piece :=
  conditions.flatMap fun c => .text " AND " :: c.pieces

/- The pieces of the next condition and of those after it. -/
theorem laterPieces_cons
    (c : Condition)
    (later : List Condition) :
    laterPieces (c :: later) =
      .text " AND " :: (c.pieces ++ laterPieces later) := by
  simp [laterPieces]

/- The pieces of a first condition and of those after it. -/
theorem wherePieces_cons
    (c : Condition)
    (later : List Condition) :
    wherePieces (c :: later) =
      .text " WHERE " :: c.pieces ++ laterPieces later := by
  simp [wherePieces, joined_cons, laterPieces, List.flatMap_map]

/- The text of a column, and what follows it. -/
theorem textFrom_column
    (n : Nat)
    (col : Column)
    (rest : List Piece) :
    textFrom n (col.pieces ++ rest) =
      col.written ++ textFrom n rest := by
  simp [Column.pieces, Column.written, textFrom, String.append_assoc]

/- The text of a comparison for equality, and what follows it. -/
theorem textFrom_equal
    (n : Nat)
    (col : Column)
    (v : Value)
    (rest : List Piece) :
    textFrom n ((Condition.equal col v).pieces ++ rest) =
      col.written ++
        if v.isNull then
          " IS NULL" ++ textFrom n rest
        else
          " = $" ++ toString (n + 1) ++ textFrom (n + 1) rest := by
  have hSign : Comparison.text .eq = "=" := rfl
  have hMark : " " ++ "=" ++ " " ++ "$" = " = $" := rfl
  by_cases hNull : v.isNull = true
  · simp [Condition.equal, Condition.pieces,
      Condition.comparePieces, hNull, textFrom_column, textFrom]
  · simp only [Condition.equal, Condition.pieces,
      Condition.comparePieces, hNull, Bool.false_eq_true, if_false,
      List.append_assoc, textFrom_column, List.cons_append,
      List.nil_append, textFrom, hSign]
    rw [← hMark]
    simp only [String.append_assoc]

/- A comparison for equality binds its value if that is present. -/
theorem params_equal
    (col : Column)
    (v : Value) :
    params (Condition.equal col v).pieces =
      if v.isNull then [] else [v] := by
  by_cases hNull : v.isNull = true
  · simp [Condition.equal, Condition.pieces,
      Condition.comparePieces, hNull, Column.pieces, params,
      Piece.param?]
  · simp [Condition.equal, Condition.pieces,
      Condition.comparePieces, hNull, Column.pieces, params,
      Piece.param?, List.filterMap_cons]

/- What follows a condition are the conditions after it. -/
theorem endsCondition_laterPieces
    (n : Nat)
    (later : List Condition) :
    EndsCondition (textFrom n (laterPieces later)) := by
  cases later with
  | nil => exact .inl rfl
  | cons c later =>
      right
      rw [laterPieces_cons, textFrom]
      exact ⟨_, rfl⟩

end Sql

end RelationalRest
