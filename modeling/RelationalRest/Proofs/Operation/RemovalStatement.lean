import RelationalRest.Proofs.Kind.Presence
import RelationalRest.Proofs.Operation.Columns
import RelationalRest.Proofs.Sql.Effect

/-
  The statement of a removal: an assignment to the mark, or a
  deletion where there is none.  Its text is its opening and the
  conditions that it is sent for, and the values bound to it are
  that of the mark and those of the conditions.  Read back, it
  touches the records in which columns hold the values that the
  conditions demand.

  Key definitions include:
    * `Removal.marking`
    * `Removal.deletion`
    * `Removal.openingPieces`
    * `Removal.bound`
    * `Removal.effect`
    * `Removal.live`

  Main declarations:
    * `Resource.isNull_of_keyValue`
    * `Removal.statement_eq_assemble`
    * `Removal.sql_statement`
    * `Removal.getElem?_params_statement`
    * `Removal.effect?_statement`
-/

namespace RelationalRest

variable {r : Resource}
variable {mark : SoftDelete}
variable {value v : Sql.Value}

/- The value of a key is present. -/
theorem Resource.isNull_of_keyValue
    {text key : String}
    (h : r.keyValue text = .ok (key, value)) :
    value.isNull = false := by
  rcases keyKind_of_keyValue h with ⟨kind, hKind⟩
  obtain ⟨⟨_, hAccepts⟩, rfl⟩ := (keyValue_eq_ok_iff hKind).mp h
  exact Kind.isNull_ofText hAccepts

namespace Removal

------------------------------------------------------------
-- Assignments and deletions
------------------------------------------------------------

/- The assignment that marks the records which meet conditions. -/
def marking
    (r : Resource)
    (mark : SoftDelete)
    (conditions : List Sql.Condition) : Sql.Update where
  table := r.table
  sets := [(mark.column, Sql.Value.ofJson mark.deleted)]
  conditions := conditions

/- Where records are marked, a removal marks them. -/
theorem statement_eq_marking
    (hMark : r.softDelete = some mark)
    (conditions : List Sql.Condition) :
    statement r conditions =
      (marking r mark conditions).statement := by
  simp [statement, hMark, marking]

/- The deletion of the records which meet conditions. -/
def deletion
    (r : Resource)
    (conditions : List Sql.Condition) : Sql.Delete where
  table := r.table
  conditions := conditions

/- Where records are not marked, a removal deletes them. -/
theorem statement_eq_deletion
    (hMark : r.softDelete = none)
    (conditions : List Sql.Condition) :
    statement r conditions =
      (deletion r conditions).statement := by
  simp [statement, hMark, deletion]

------------------------------------------------------------
-- Texts and parameters
------------------------------------------------------------

/-
  How the statement of a removal begins: it assigns to the mark
  alone where records are marked, and deletes otherwise.
-/
def opening (r : Resource) : String :=
  match r.softDelete with
  | some mark =>
      "UPDATE " ++ Sql.quoted r.table.name ++ " SET " ++
        Sql.quoted mark.column ++ " = " ++
        (if (Sql.Value.ofJson mark.deleted).isNull then "NULL"
          else "$1")
  | none => "DELETE FROM " ++ Sql.quoted r.table.name

/- The pieces with which the statement of a removal begins. -/
def openingPieces (r : Resource) : List Sql.Piece :=
  match r.softDelete with
  | some mark =>
      [ .text "UPDATE ", .name r.table.name, .text " SET "
      , .name mark.column, .text " = "
      , .operand (Sql.Value.ofJson mark.deleted) ]
  | none => [.text "DELETE FROM ", .name r.table.name]

/- The pieces of the opening are written out as the opening. -/
theorem textFrom_openingPieces (r : Resource) :
    Sql.textFrom 0 (openingPieces r) = opening r := by
  unfold openingPieces opening
  cases r.softDelete with
  | none => simp [Sql.textFrom]
  | some mark =>
      have hFirst : "$" ++ toString (0 + 1) = "$1" := rfl
      simp only [Sql.textFrom, hFirst, String.append_empty,
        String.append_assoc]

/- How many values the opening of a removal binds. -/
def bound (r : Resource) : Nat :=
  match r.softDelete with
  | some mark =>
      if (Sql.Value.ofJson mark.deleted).isNull then 0 else 1
  | none => 0

/- The values that the opening of a removal binds. -/
theorem length_params_openingPieces (r : Resource) :
    (Sql.params (openingPieces r)).length = bound r := by
  unfold openingPieces bound
  cases r.softDelete with
  | none => rfl
  | some mark =>
      by_cases hNull : (Sql.Value.ofJson mark.deleted).isNull = true
      · simp [Sql.params, Sql.Piece.param?, hNull]
      · simp [Sql.params, Sql.Piece.param?, List.filterMap_cons,
          hNull]

/- A removal is written out as its opening and its conditions. -/
theorem statement_eq_assemble
    (r : Resource)
    (conditions : List Sql.Condition) :
    statement r conditions =
      Sql.assemble
        (openingPieces r ++ Sql.wherePieces conditions) := by
  unfold statement openingPieces
  cases r.softDelete with
  | none => rfl
  | some mark => rfl

/- The text of a removal is its opening and its conditions. -/
theorem sql_statement
    (r : Resource)
    (conditions : List Sql.Condition) :
    (statement r conditions).sql =
      opening r ++
        Sql.textFrom (bound r) (Sql.wherePieces conditions) := by
  rw [statement_eq_assemble, Sql.assemble, Sql.textFrom_append,
    textFrom_openingPieces, length_params_openingPieces,
    Nat.zero_add]

/- A removal binds the values of its opening and its conditions. -/
theorem params_statement
    (r : Resource)
    (conditions : List Sql.Condition) :
    (statement r conditions).params =
      Sql.params (openingPieces r) ++
        Sql.params (Sql.wherePieces conditions) := by
  rw [statement_eq_assemble, Sql.assemble, Sql.params_append]

/- The values of conditions are bound after those of the opening. -/
theorem getElem?_params_add
    (r : Resource)
    (conditions : List Sql.Condition)
    (n : Nat) :
    (statement r conditions).params[bound r + n]? =
      (Sql.params (Sql.wherePieces conditions))[n]? := by
  rw [params_statement, ← length_params_openingPieces,
    List.getElem?_append_right (Nat.le_add_right _ n),
    Nat.add_sub_cancel_left]

/- The key is the value that is bound after the opening. -/
theorem getElem?_params_statement
    {col : Sql.Column}
    (hKey : value.isNull = false)
    (later : List Sql.Condition) :
    (statement r (.equal col value :: later)).params[bound r]? =
      some value := by
  have hAt := getElem?_params_add r (.equal col value :: later) 0
  rw [Nat.add_zero] at hAt
  rw [hAt, Sql.wherePieces_cons]
  simp [Sql.params_cons, Sql.Piece.param?, Sql.params_equal, hKey]

/- A value that is demanded next after the key is bound next. -/
theorem getElem?_params_second
    {col other : Sql.Column}
    (hKey : value.isNull = false)
    (hSecond : v.isNull = false)
    (later : List Sql.Condition) :
    (statement r
      (.equal col value :: .equal other v :: later)).params[
        bound r + 1]? = some v := by
  rw [getElem?_params_add, Sql.wherePieces_cons,
    Sql.laterPieces_cons]
  simp [Sql.params_cons, Sql.Piece.param?, Sql.params_equal, hKey,
    hSecond]

------------------------------------------------------------
-- Effects
------------------------------------------------------------

/-
  What a removal does to the records in which columns hold the
  values: it marks them, or deletes them if there is no mark.
-/
def effect
    (r : Resource)
    (held : List (String × Sql.Value)) : Sql.Effect where
  table := r.table.name
  assigned :=
    r.softDelete.map fun mark =>
      (mark.column, Sql.Value.ofJson mark.deleted)
  held := held

/- The statement of a removal is read back as what it does. -/
theorem effect?_statement
    (r : Resource)
    (entry : String × Sql.Value)
    (later : List (String × Sql.Value)) :
    (statement r
      (Sql.holding r.table.name (entry :: later))).effect? =
        some (effect r (entry :: later)) := by
  cases hMark : r.softDelete with
  | none =>
      rw [statement_eq_deletion hMark,
        Sql.Delete.effect?_statement rfl]
      simp [effect, deletion, hMark]
  | some mark =>
      rw [statement_eq_marking hMark,
        Sql.Update.effect?_statement rfl rfl]
      simp [effect, marking, hMark]

/- What the mark holds in the records that are live. -/
def live (r : Resource) : List (String × Sql.Value) :=
  r.softDelete.toList.map fun mark =>
    (mark.column, Sql.Value.ofJson mark.live)

/- The live condition demands that the mark holds its value. -/
theorem holding_live (r : Resource) :
    Sql.holding r.table.name (live r) = r.liveCondition?.toList := by
  cases hMark : r.softDelete with
  | none =>
      simp [live, Sql.holding, Resource.liveCondition?, hMark]
  | some mark =>
      simp [live, Sql.holding, Resource.liveCondition?, hMark,
        Resource.column]

end Removal

end RelationalRest
