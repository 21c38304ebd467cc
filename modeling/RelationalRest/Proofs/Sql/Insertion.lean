import RelationalRest.Proofs.Sql.Operands
import RelationalRest.Proofs.Sql.Token

/-
  This file defines how the text of an insertion is read back
  with its parameters: the table, the columns that are named
  and the rows that are inserted.  A cell is a value, or says
  that the column takes its default.

  What an insertion names and inserts is also told from the
  insertion itself, and its text is cut into the tokens of its
  pieces.

  Key definitions include:
    * `Sql.Inserted`
    * `Sql.Inserted.gives`
    * `Sql.Statement.inserted?`
    * `Sql.Insert.named`

  Key theorems include:
    * `Sql.Query.inserted?_select`
    * `Sql.Insert.nodup_named`
    * `Sql.Insert.valuePieces_eq`
    * `Sql.Insert.lexes`
-/

namespace RelationalRest

namespace Sql

------------------------------------------------------------
-- Readers
------------------------------------------------------------

/- What a statement inserts; no value stands for a default. -/
structure Inserted where
  table : String
  columns : List String
  rows : List (List (Option Value))

/-
  The value that the cells of a row give to a column.  A
  column that is not named takes its default as well.
-/
def Inserted.gives
    (i : Inserted)
    (cells : List (Option Value))
    (column : String) : Option Value :=
  (Fields.get? (i.columns.zip cells) column).join

/- The cell that a token stands for. -/
def cell?
    (bound : List Value) : Token → Option (Option Value)
| .word "DEFAULT" => some none
| .word "NULL" => some (some .null)
| .placeholder (n + 1) => bound[n]?.map some
| _ => none

/- The names before a closing bracket, and what follows it. -/
def names? : List Token → Option (List String × List Token)
| .name s :: .comma :: rest =>
    (names? rest).map fun (names, rest) => (s :: names, rest)
| .name s :: .closing :: rest => some ([s], rest)
| _ => none

/- What may follow the rows of an insertion. -/
def endsRows : List Token → Bool
| [] => true
| .word w :: _ => w == "ON" || w == "RETURNING"
| _ => false

/- The rows after their first opening bracket. -/
def rows?
    (bound : List Value) :
    List Token → Option (List (List (Option Value)))
| t :: .comma :: rest =>
    match cell? bound t, rows? bound rest with
    | some c, some (cells :: rows) => some ((c :: cells) :: rows)
    | _, _ => none
| t :: .closing :: .comma :: .opening :: rest =>
    match cell? bound t, rows? bound rest with
    | some c, some rows => some ([c] :: rows)
    | _, _ => none
| t :: .closing :: rest =>
    if endsRows rest then
      (cell? bound t).map fun c => [[c]]
    else
      none
| _ => none

/- The columns and the rows after the name of the table. -/
def columnsAndRows?
    (bound : List Value) :
    List Token →
      Option (List String × List (List (Option Value)))
| .word "DEFAULT" :: .word "VALUES" :: rest =>
    if endsRows rest then some ([], [[]]) else none
| .opening :: rest =>
    match names? rest with
    | some (columns, .word "VALUES" :: .opening :: rest) =>
        (rows? bound rest).map fun rows => (columns, rows)
    | _ => none
| _ => none

/-
  What a statement inserts, if it is an insertion in which
  every row has a cell for each column.
-/
def Statement.inserted? (s : Statement) : Option Inserted :=
  match s.tokens with
  | .word "INSERT" :: .word "INTO" :: .name table :: rest =>
      match columnsAndRows? s.params rest with
      | some (columns, rows) =>
          if rows.all (fun cells =>
              cells.length = columns.length) = true then
            some { table, columns, rows }
          else
            none
      | none => none
  | _ => none

/- What begins as a query is no insertion. -/
theorem inserted?_of_select
    {s : String}
    {later : List Piece}
    (hPlain : Plain s.toList = true)
    (hEnds : endsClear s = true)
    (hSelect :
      (tokensFrom 0 s.toList).head? = some (.word "SELECT")) :
    (assemble (.text s :: later)).inserted? = none := by
  have hParted :=
    parted_of_endsClear hEnds (textFrom 0 later).toList
  have hText := tokensFrom_append hPlain hParted (Nat.zero_le _)
  rcases List.head?_eq_some_iff.mp hSelect with ⟨more, hMore⟩
  have hTokens :
      (assemble (.text s :: later)).tokens =
        .word "SELECT" ::
          (more ++ tokensFrom 0 (textFrom 0 later).toList) := by
    rw [hMore] at hText
    simpa [Statement.tokens, assemble, textFrom] using hText
  simp [Statement.inserted?, hTokens]

/- The selection of rows is no insertion. -/
theorem Query.inserted?_select (q : Query) :
    q.select.inserted? = none :=
  inserted?_of_select rfl rfl rfl

/- The count of rows is no insertion. -/
theorem Query.inserted?_count (q : Query) :
    q.count.inserted? = none :=
  inserted?_of_select rfl rfl rfl

------------------------------------------------------------
-- Columns of an insertion
------------------------------------------------------------

namespace Insert

/- A row without columns gives none a value. -/
theorem get?_eq_none_of_columns
    {i : Insert}
    {row : Fields Value}
    (hRow : row ∈ i.rows)
    {c : String}
    (hc : c ∉ i.columns) :
    Fields.get? row c = none := by
  rw [columns_eq_union, union, List.mem_eraseDups] at hc
  have hKeys : c ∉ Fields.keys row := by
    intro hMem
    exact hc (List.mem_flatMap.mpr ⟨row, hRow, hMem⟩)
  rw [← Fields.contains_iff_mem_keys, Fields.contains] at hKeys
  simpa using hKeys

/- Without columns, no row has any. -/
theorem eq_nil_of_columns
    {i : Insert}
    (hEmpty : i.columns = [])
    {row : Fields Value}
    (hRow : row ∈ i.rows) :
    row = [] := by
  cases row with
  | nil => rfl
  | cons cell row =>
      have hNone :=
        get?_eq_none_of_columns hRow (c := cell.1)
          (by simp [hEmpty])
      simp [Fields.get?] at hNone

/- No column of the rows is listed twice. -/
theorem nodup_columns (i : Insert) : i.columns.Nodup := by
  suffices h :
      ∀ names seen : List String, seen.Nodup →
        (names.foldl
          (fun seen name =>
            if name ∈ seen then seen else seen ++ [name])
          seen).Nodup from
    h _ [] List.nodup_nil
  intro names
  induction names with
  | nil =>
      intro seen hSeen
      exact hSeen
  | cons name names ih =>
      intro seen hSeen
      by_cases hName : name ∈ seen
      · simpa [hName] using ih seen hSeen
      · have hNext : (seen ++ [name]).Nodup := by
          refine
            List.nodup_append.mpr
              ⟨hSeen, by simp, ?_⟩
          intro a ha b hb hab
          rw [List.mem_singleton.mp hb] at hab
          exact hName (hab ▸ ha)
        simpa [hName] using ih _ hNext

/-
  The columns that an insertion names: several rows without
  any column name the returning column, to be told apart.
-/
def named (i : Insert) : List String :=
  if i.columns = [] then
    if 1 < i.rows.length then i.returning.toList else []
  else
    i.columns

/- Every column of the rows is named. -/
theorem mem_named_of_columns
    {i : Insert}
    {c : String}
    (hc : c ∈ i.columns) :
    c ∈ i.named := by
  have hColumns : i.columns ≠ [] := List.ne_nil_of_mem hc
  simpa [named, hColumns] using hc

/- No column is named twice. -/
theorem nodup_named (i : Insert) : i.named.Nodup := by
  unfold named
  split
  · split
    · cases i.returning <;> simp
    · exact List.nodup_nil
  · exact i.nodup_columns

------------------------------------------------------------
-- Tokens of an insertion
------------------------------------------------------------

/- A cell keeps to itself before clear pieces. -/
theorem lexes_cell
    (row : Fields Value)
    (c : String) :
    Lexes [cellPiece row c] := by
  cases hCell : Fields.get? row c with
  | none =>
      simpa [cellPiece, hCell] using
        Lexes.nil.word (s := "DEFAULT") rfl cleared_nil
  | some v =>
      simpa [cellPiece, hCell] using
        Lexes.nil.operand v cleared_nil

/- A row keeps to itself. -/
theorem lexes_row
    (columns : List String)
    (row : Fields Value) :
    Lexes (rowPieces columns row) := by
  have hCells :=
    Lexes.joined (s := ", ") rfl rfl rfl
      (fun c => [cellPiece row c]) (lexes_cell row) columns
  have hClosed : Lexes [.text ")"] := Lexes.nil.text rfl rfl
  have hAll :=
    (hCells.append hClosed (cleared_text rfl [])).text
      (s := "(") rfl rfl
  simpa [rowPieces] using hAll

/- The pieces of a row as they stand in an insertion. -/
def tuplePieces
    (i : Insert)
    (row : Fields Value) : List Piece :=
  if i.columns = [] then
    [.text "(DEFAULT)"]
  else
    rowPieces i.columns row

/- Rows stand under the names of columns, if any is named. -/
theorem valuePieces_eq (i : Insert) :
    i.valuePieces =
      if i.named = [] then
        [.text " DEFAULT VALUES"]
      else
        namePieces i.named ++
          joined ", " (i.rows.map i.tuplePieces) := by
  by_cases hEmpty : i.columns = []
  · cases hReturning : i.returning with
    | none => simp [valuePieces, named, hEmpty, hReturning]
    | some column =>
        by_cases hMany : 1 < i.rows.length
        · have hTuple :
              i.tuplePieces = fun _ => [.text "(DEFAULT)"] := by
            funext row
            simp [tuplePieces, hEmpty]
          rw [hTuple]
          simp [valuePieces, named, hEmpty, hReturning, hMany]
        · simp [valuePieces, named, hEmpty, hReturning, hMany]
  · have hTuple :
        i.tuplePieces = rowPieces i.columns := by
      funext row
      simp [tuplePieces, hEmpty]
    rw [hTuple]
    simp [valuePieces, named, hEmpty]

/- A row as it stands in an insertion keeps to itself. -/
theorem lexes_tuple
    (i : Insert)
    (row : Fields Value) :
    Lexes (i.tuplePieces row) := by
  by_cases hEmpty : i.columns = []
  · simpa [tuplePieces, hEmpty] using
      Lexes.nil.text (s := "(DEFAULT)") rfl rfl
  · simpa [tuplePieces, hEmpty] using lexes_row i.columns row

/- The columns and rows of an insertion keep to themselves. -/
theorem lexes_values (i : Insert) :
    Cleared i.valuePieces ∧ Lexes i.valuePieces := by
  rw [valuePieces_eq]
  by_cases hNone : i.named = []
  · rw [if_pos hNone]
    exact
      ⟨cleared_text rfl [], Lexes.nil.word rfl cleared_nil⟩
  · rw [if_neg hNone]
    have hItems :=
      Lexes.joined (s := ", ") rfl rfl rfl i.tuplePieces
        i.lexes_tuple i.rows
    have hRows := hItems.text (s := ") VALUES ") rfl rfl
    have hNames :=
      Lexes.joined (s := ", ") rfl rfl rfl
        (fun c : String => [Piece.name c])
        (fun c => Lexes.nil.name c cleared_nil) i.named
    have hAll :=
      (hNames.append hRows (cleared_text rfl _)).text
        (s := " (") rfl rfl
    refine ⟨cleared_text rfl _, ?_⟩
    simpa [namePieces] using hAll

/- A keep column keeps to itself. -/
theorem lexes_keep (keep : Option String) :
    Cleared (keepPieces keep) ∧ Lexes (keepPieces keep) := by
  cases keep with
  | none => exact ⟨cleared_nil, Lexes.nil⟩
  | some c =>
      have hExcluded :=
        (Lexes.nil.name c cleared_nil).text
          (s := " = EXCLUDED.") rfl rfl
      have hSet :=
        (hExcluded.name c (cleared_text rfl _)).text
          (s := ") DO UPDATE SET ") rfl rfl
      have hConflict :=
        (hSet.name c (cleared_text rfl _)).text
          (s := " ON CONFLICT (") rfl rfl
      exact ⟨cleared_text rfl _, hConflict⟩

/- A returning column keeps to itself. -/
theorem lexes_returning (returning : Option String) :
    Cleared (returningPieces returning) ∧
      Lexes (returningPieces returning) := by
  cases returning with
  | none => exact ⟨cleared_nil, Lexes.nil⟩
  | some c =>
      exact
        ⟨cleared_text rfl _,
          (Lexes.nil.name c cleared_nil).text rfl rfl⟩

/- The pieces of an insertion keep to themselves. -/
theorem lexes (i : Insert) : Lexes i.pieces := by
  rcases i.lexes_values with ⟨hValuesCleared, hValues⟩
  rcases lexes_keep i.keep with ⟨hKeepCleared, hKeep⟩
  rcases lexes_returning i.returning with
    ⟨hReturningCleared, hReturning⟩
  have hInto :=
    (Lexes.nil.name i.table.name cleared_nil).text
      (s := "INSERT INTO ") rfl rfl
  have hAll :=
    ((hInto.append hValues hValuesCleared).append hKeep
      hKeepCleared).append hReturning hReturningCleared
  simpa [pieces] using hAll

end Insert

end Sql

end RelationalRest
