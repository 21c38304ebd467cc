import RelationalRest.Proofs.Sql.Clause
import RelationalRest.Proofs.Sql.Meaning
import RelationalRest.Proofs.Sql.ReadBack

/-
  This file defines how the text of an assignment or a deletion
  is read back with its parameters: the table, what is assigned
  to a column, and the values that columns of the table hold in
  the records that are touched.  A statement without conditions
  is not read, and neither is one that asks of its records
  anything but that columns hold values.

  Key definitions include:
    * `Sql.Effect`
    * `Sql.Effect.Touches`
    * `Sql.holding`
    * `Sql.Statement.effect?`
    * `Sql.assigning`

  Key theorems include:
    * `Sql.equalities?_tokensOf`
    * `Sql.Update.effect?_statement`
    * `Sql.Delete.effect?_statement`
    * `Sql.Effect.touches_iff`
    * `Sql.Query.finds_iff_of_holding`
-/

namespace RelationalRest

namespace Sql

variable {k : Comparing}
variable {t : Tuple}
variable {table : String}
variable {bound : List Value}
variable {entry : String × Value}
variable {held later : List (String × Value)}

------------------------------------------------------------
-- Effects
------------------------------------------------------------

/-
  What a statement does to the records of a table in which
  columns hold values: it assigns a value to a column of theirs,
  or deletes them if nothing is assigned.
-/
structure Effect where
  table : String
  assigned : Option (String × Value)
  held : List (String × Value)

/- A record is touched if its columns hold the values. -/
def Effect.Touches
    (k : Comparing)
    (e : Effect)
    (t : Tuple) : Prop :=
  ∀ entry ∈ e.held, k.test .eq (t entry.1) entry.2

/- The conditions that columns of a table hold values. -/
def holding
    (table : String)
    (held : List (String × Value)) : List Condition :=
  held.map fun entry => .equal ⟨table, entry.1⟩ entry.2

/- The records that are touched are those that meet conditions. -/
theorem Effect.touches_iff
    {e : Effect}
    (table : String) :
    e.Touches k t ↔
      ∀ c ∈ holding table e.held,
        c.Holds k fun col => t col.name := by
  rw [Touches, holding, List.forall_mem_map]
  simp only [Condition.holds_equal]

/-
  A query that demands what columns of its own table hold finds
  the records of that table which hold it.
-/
theorem Query.finds_iff_of_holding
    {q : Query}
    (h : q.conditions = holding q.root.name held) :
    q.Finds k t ↔
      ∀ c ∈ q.conditions, c.Holds k fun col => t col.name := by
  constructor
  · rintro ⟨env, hEnv, hAll⟩ c hMem
    have hHolds := hAll c hMem
    rw [h] at hMem
    rcases List.mem_map.mp hMem with ⟨entry, _, rfl⟩
    rw [Condition.holds_equal, hEnv] at hHolds
    exact Condition.holds_equal.mpr hHolds
  · intro hAll
    exact ⟨fun col => t col.name, fun _ => rfl, hAll⟩

------------------------------------------------------------
-- Readers
------------------------------------------------------------

/-
  The column of a table and the value that a condition says it
  holds: a bound value, which is present, or the absent one.
-/
def equality?
    (table : String)
    (bound : List Value) : List Token → Option (String × Value)
| [ .name qualifier, .sign '.', .name name, .sign '='
  , .placeholder (n + 1) ] =>
    if qualifier = table then
      (bound[n]?.filter (!·.isNull)).map fun v => (name, v)
    else
      none
| [ .name qualifier, .sign '.', .name name, .word "IS"
  , .word "NULL" ] =>
    if qualifier = table then some (name, .null) else none
| _ => none

/- What columns of a table hold, with a word between conditions. -/
def equalities?
    (table : String)
    (bound : List Value)
    (tokens : List Token) : Option (List (String × Value)) :=
  (tokens.splitOn (.word "AND")).mapM (equality? table bound)

/-
  What a statement does, if it is an assignment to one column or
  a deletion, and has conditions.
-/
def Statement.effect? (s : Statement) : Option Effect :=
  match s.tokens with
  | .word "UPDATE" :: .name table :: .word "SET" ::
      .name column :: .sign '=' :: cell :: .word "WHERE" :: rest =>
      match (cell? s.params cell).join,
        equalities? table s.params rest with
      | some v, some held =>
          some { table, assigned := some (column, v), held }
      | _, _ => none
  | .word "DELETE" :: .word "FROM" :: .name table ::
      .word "WHERE" :: rest =>
      (equalities? table s.params rest).map fun held =>
        { table, assigned := none, held }
  | _ => none

------------------------------------------------------------
-- Conditions read back
------------------------------------------------------------

/- The pieces of a comparison for equality. -/
theorem Condition.pieces_equal
    (col : Column)
    (v : Value) :
    (equal col v).pieces =
      if v.isNull then
        [ .name col.qualifier, .text ".", .name col.name
        , .text " IS NULL" ]
      else
        [ .name col.qualifier, .text ".", .name col.name
        , .text " = ", .operand v ] := by
  by_cases hNull : v.isNull = true
  · simp [equal, pieces, comparePieces, Column.pieces, hNull]
  · have hSign : " " ++ Comparison.text .eq ++ " " = " = " := rfl
    simp [equal, pieces, comparePieces, Column.pieces, hNull, hSign]

/- A comparison for equality keeps to itself. -/
theorem Condition.lexes_equal
    (col : Column)
    (v : Value) :
    Lexes (equal col v).pieces := by
  rw [pieces_equal]
  by_cases hNull : v.isNull = true
  · rw [if_pos hNull]
    have hWord : Lexes [.text " IS NULL"] :=
      Lexes.nil.word rfl cleared_nil
    have hName := hWord.name col.name (cleared_text rfl [])
    exact
      (hName.text (s := ".") rfl rfl).name col.qualifier
        (cleared_text rfl _)
  · rw [if_neg hNull]
    have hValue : Lexes [.text " = ", .operand v] :=
      (Lexes.nil.operand v cleared_nil).text rfl rfl
    have hName := hValue.name col.name (cleared_text rfl _)
    exact
      (hName.text (s := ".") rfl rfl).name col.qualifier
        (cleared_text rfl _)

/- The tokens of a comparison for equality. -/
theorem Condition.tokensOf_equal
    (n : Nat)
    (col : Column)
    (v : Value) :
    tokensOf n (equal col v).pieces =
      [.name col.qualifier, .sign '.', .name col.name] ++
        if v.isNull then
          [.word "IS", .word "NULL"]
        else
          [.sign '=', .placeholder (n + 1)] := by
  have hDot : tokensFrom 0 ".".toList = [.sign '.'] := rfl
  have hSign : tokensFrom 0 " = ".toList = [.sign '='] := rfl
  have hWords :
      tokensFrom 0 " IS NULL".toList =
        [.word "IS", .word "NULL"] := rfl
  rw [pieces_equal]
  by_cases hNull : v.isNull = true
  · rw [if_pos hNull, if_pos hNull]
    simp only [tokensOf, Piece.tokens, hDot, hWords,
      List.append_nil, List.cons_append, List.nil_append]
  · rw [if_neg hNull, if_neg hNull]
    simp only [tokensOf, Piece.tokens, hDot, hSign, if_neg hNull,
      List.append_nil, List.cons_append, List.nil_append]
    rfl

/- The pieces of the condition that a column holds a value. -/
def entryPieces
    (table : String)
    (entry : String × Value) : List Piece :=
  (Condition.equal ⟨table, entry.1⟩ entry.2).pieces

/- No token of such a condition is the word between conditions. -/
theorem and_not_mem_tokensOf
    (n : Nat)
    (table : String)
    (entry : String × Value) :
    .word "AND" ∉ tokensOf n (entryPieces table entry) := by
  rw [entryPieces, Condition.tokensOf_equal]
  cases entry.2.isNull with
  | true => simp
  | false => simp

/- Such a condition is read as its column and its value. -/
theorem equality?_tokensOf
    {n : Nat}
    (hBound : Insert.Bound bound n (entryPieces table entry)) :
    equality? table bound (tokensOf n (entryPieces table entry)) =
      some entry := by
  obtain ⟨name, v⟩ := entry
  rw [Insert.Bound, entryPieces, params_equal] at hBound
  rw [entryPieces, Condition.tokensOf_equal]
  by_cases hNull : v.isNull = true
  · have hAbsent : v = .null := by
      cases v with
      | null => rfl
      | _ => cases hNull
    simp [hAbsent, Value.isNull, equality?]
  · rw [if_neg hNull] at hBound
    simp [hNull, equality?, Insert.getElem?_of_prefix_drop hBound]

/- The pieces of conditions that columns hold values. -/
def heldPieces
    (table : String)
    (held : List (String × Value)) : List Piece :=
  joined " AND " (held.map (entryPieces table))

/- The tokens of two conditions or more. -/
theorem tokensOf_heldPieces
    (n : Nat)
    (table : String)
    (entry next : String × Value)
    (later : List (String × Value)) :
    tokensOf n (heldPieces table (entry :: next :: later)) =
      tokensOf n (entryPieces table entry) ++
        .word "AND" ::
          tokensOf (n + (params (entryPieces table entry)).length)
            (heldPieces table (next :: later)) := by
  have hPieces :
      heldPieces table (entry :: next :: later) =
        entryPieces table entry ++
          .text " AND " :: heldPieces table (next :: later) := rfl
  have hAnd : tokensFrom 0 " AND ".toList = [.word "AND"] := rfl
  rw [hPieces, tokensOf_append, tokensOf, Piece.tokens_text, hAnd]
  rfl

/- Conditions that columns hold values are read as the values. -/
theorem equalities?_tokensOf
    {n : Nat}
    (hBound :
      Insert.Bound bound n (heldPieces table (entry :: later))) :
    equalities? table bound
        (tokensOf n (heldPieces table (entry :: later))) =
      some (entry :: later) := by
  have hApart := and_not_mem_tokensOf n table entry
  induction later generalizing n entry with
  | nil =>
      have hRead := equality?_tokensOf hBound
      have hOne : heldPieces table [entry] = entryPieces table entry :=
        rfl
      rw [hOne, equalities?, List.splitOn_eq_singleton hApart,
        List.mapM_cons, hRead]
      rfl
  | cons next later ih =>
      have hSplit :
          Insert.Bound bound n
            (entryPieces table entry ++
              ([.text " AND "] ++ heldPieces table (next :: later))) :=
        hBound
      have hRead := equality?_tokensOf hSplit.left
      -- the word between conditions binds nothing
      have hLater :
          equalities? table bound
              (tokensOf
                (n + (params (entryPieces table entry)).length)
                (heldPieces table (next :: later))) =
            some (next :: later) :=
        ih hSplit.right.right (and_not_mem_tokensOf _ table next)
      rw [equalities?] at hLater
      rw [tokensOf_heldPieces, equalities?,
        List.splitOn_append_cons_self_of_not_mem hApart,
        List.mapM_cons, hRead, hLater]
      rfl

/- Conditions that columns hold values follow upon a word. -/
theorem wherePieces_holding
    (table : String)
    (entry : String × Value)
    (later : List (String × Value)) :
    wherePieces (holding table (entry :: later)) =
      .text " WHERE " :: heldPieces table (entry :: later) := by
  rw [wherePieces, holding, List.map_map]
  rfl

/- Conditions that columns hold values keep to themselves. -/
theorem lexes_holding
    (table : String)
    (entry : String × Value)
    (later : List (String × Value)) :
    Cleared (wherePieces (holding table (entry :: later))) ∧
      Lexes (wherePieces (holding table (entry :: later))) := by
  have hHeld : Lexes (heldPieces table (entry :: later)) :=
    Lexes.joined rfl rfl rfl (entryPieces table)
      (fun entry => Condition.lexes_equal _ _) (entry :: later)
  rw [wherePieces_holding]
  exact ⟨cleared_text rfl _, hHeld.text rfl rfl⟩

------------------------------------------------------------
-- Statements read back
------------------------------------------------------------

/- The tokens of conditions that follow upon a word. -/
theorem tokensOf_wherePieces
    (n : Nat)
    (table : String)
    (entry : String × Value)
    (later : List (String × Value)) :
    tokensOf n (wherePieces (holding table (entry :: later))) =
      .word "WHERE" ::
        tokensOf n (heldPieces table (entry :: later)) := by
  have hWhere : tokensFrom 0 " WHERE ".toList = [.word "WHERE"] := rfl
  rw [wherePieces_holding, tokensOf, Piece.tokens_text, hWhere]
  rfl

/- A deletion is read back as what it was written for. -/
theorem Delete.effect?_statement
    {d : Delete}
    (h : d.conditions = holding d.table.name (entry :: later)) :
    d.statement.effect? =
      some
        { table := d.table.name
          assigned := none
          held := entry :: later } := by
  have hFrom :
      tokensFrom 0 "DELETE FROM ".toList =
        [.word "DELETE", .word "FROM"] := rfl
  obtain ⟨hCleared, hLexes⟩ :=
    lexes_holding d.table.name entry later
  have hPieces : Lexes d.pieces := by
    rw [Delete.pieces, h]
    exact
      (Lexes.append (Lexes.nil.name d.table.name cleared_nil) hLexes
        hCleared).text rfl rfl
  have hTokens :
      d.statement.tokens =
        .word "DELETE" :: .word "FROM" :: .name d.table.name ::
          .word "WHERE" ::
            tokensOf 0 (heldPieces d.table.name (entry :: later)) := by
    rw [statement, hPieces.tokens_assemble, Delete.pieces, h,
      tokensOf_append, tokensOf_wherePieces]
    simp only [tokensOf, Piece.tokens, hFrom]
    rfl
  have hBound :
      Insert.Bound d.statement.params 0
        (heldPieces d.table.name (entry :: later)) := by
    refine ⟨[], ?_⟩
    simp [statement, assemble, Delete.pieces, h, wherePieces_holding,
      params_cons, Piece.param?]
  simp only [Statement.effect?, hTokens, equalities?_tokensOf hBound]
  rfl

/- A deletion that asks nothing of its records is not read. -/
example :
    Statement.effect?
        { sql := "DELETE FROM \"t\" WHERE TRUE", params := [] } =
      none := by
  rfl

/- The pieces with which an assignment to one column begins. -/
def assigning
    (table column : String)
    (v : Value) : List Piece :=
  [ .text "UPDATE ", .name table, .text " SET ", .name column
  , .text " = ", .operand v ]

/- An assignment to one column is written before its conditions. -/
theorem Update.pieces_assigning
    {u : Update}
    {column : String}
    {v : Value}
    (hSets : u.sets = [(column, v)]) :
    u.pieces =
      assigning u.table.name column v ++
        wherePieces u.conditions := by
  simp [pieces, hSets, joined, assigning]

/- An assignment to one column keeps to itself. -/
theorem lexes_assigning
    (table column : String)
    (v : Value)
    {rest : List Piece}
    (hCleared : Cleared rest)
    (hLexes : Lexes rest) :
    Lexes (assigning table column v ++ rest) := by
  have hValue := (hLexes.operand v hCleared).text (s := " = ") rfl rfl
  have hColumn :=
    (hValue.name column (cleared_text rfl _)).text (s := " SET ")
      rfl rfl
  exact (hColumn.name table (cleared_text rfl _)).text rfl rfl

/- The tokens of an assignment to one column. -/
theorem tokensOf_assigning
    (table column : String)
    (v : Value) :
    tokensOf 0 (assigning table column v) =
      .word "UPDATE" :: .name table :: .word "SET" ::
        .name column :: .sign '=' ::
          (Piece.operand v).tokens 0 := by
  have hUpdate :
      tokensFrom 0 "UPDATE ".toList = [.word "UPDATE"] := rfl
  have hSet : tokensFrom 0 " SET ".toList = [.word "SET"] := rfl
  have hSign : tokensFrom 0 " = ".toList = [.sign '='] := rfl
  simp only [assigning, tokensOf, Piece.tokens_text,
    Piece.tokens_name, hUpdate, hSet, hSign, List.append_nil]
  rfl

/- An assignment is read back as what it was written for. -/
theorem Update.effect?_statement
    {u : Update}
    {column : String}
    {v : Value}
    (hSets : u.sets = [(column, v)])
    (h : u.conditions = holding u.table.name (entry :: later)) :
    u.statement.effect? =
      some
        { table := u.table.name
          assigned := some (column, v)
          held := entry :: later } := by
  have hPieces := pieces_assigning hSets
  rw [h] at hPieces
  obtain ⟨hCleared, hLexes⟩ :=
    lexes_holding u.table.name entry later
  have hLexed : Lexes u.pieces := by
    rw [hPieces]
    exact lexes_assigning u.table.name column v hCleared hLexes
  have hBound :
      Insert.Bound u.statement.params 0
        ([.operand v] ++
          heldPieces u.table.name (entry :: later)) := by
    refine ⟨[], ?_⟩
    simp [statement, assemble, hPieces, wherePieces_holding,
      assigning, params_cons, Piece.param?]
  -- what is assigned is one token, which the cell is read from
  obtain ⟨token, hToken, hCell⟩ :=
    Insert.exists_cell?_operand hBound.left
  have hTokens :
      u.statement.tokens =
        .word "UPDATE" :: .name u.table.name :: .word "SET" ::
          .name column :: .sign '=' :: token :: .word "WHERE" ::
            tokensOf (0 + (params [.operand v]).length)
              (heldPieces u.table.name (entry :: later)) := by
    rw [statement, hLexed.tokens_assemble, hPieces, tokensOf_append,
      tokensOf_assigning, tokensOf_wherePieces, hToken]
    rfl
  have hHeld := equalities?_tokensOf hBound.right
  simp only [Statement.effect?, hTokens, hCell, hHeld,
    Option.join_some]

/- An absent value is assigned and demanded by its own form. -/
example :
    Statement.effect?
        { sql :=
            "UPDATE \"t\" SET \"gone\" = NULL " ++
              "WHERE \"t\".\"id\" = $1 AND \"t\".\"at\" IS NULL"
          params := [.int 1] } =
      some
        { table := "t"
          assigned := some ("gone", .null)
          held := [("id", .int 1), ("at", .null)] } := by
  rfl

end Sql

end RelationalRest
