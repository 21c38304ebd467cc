import RelationalRest.Proofs.Sql.Insertion

/-
  An insertion is read back as what it was written for: the
  reader of its text, given its parameters, finds the columns
  that it names and a row for each of its rows, and in every
  row each value under its own column.

  The tokens of cells are read one by one, then those of rows,
  with arbitrary tokens after them; the values bound to the
  pieces stand at their place among all parameters.

  Key definitions include:
    * `Sql.Insert.Bound`
    * `Sql.Insert.Closes`
    * `Sql.Insert.readBack`
    * `Sql.Insert.Told`

  Key theorems include:
    * `Sql.Insert.rows?_cells`
    * `Sql.Insert.rows?_tuples`
    * `Sql.Insert.inserted?_statement`
    * `Sql.Insert.gives_named`
-/

namespace RelationalRest

namespace Sql

namespace Insert

variable {bound : List Value}
variable {n : Nat}
variable {rest : List Token}
variable {rows : List (List (Option Value))}

------------------------------------------------------------
-- Names and rows read back
------------------------------------------------------------

/- The token between items. -/
theorem tokensFrom_comma :
    tokensFrom 0 ", ".toList = [.comma] :=
  rfl

/- The tokens of names with commas between them. -/
theorem names?_tokensOf
    {columns : List String}
    (hSome : columns ≠ [])
    (n : Nat)
    (rest : List Token) :
    names?
        (tokensOf n (joined ", " (columns.map fun c => [.name c])) ++
          .closing :: rest) =
      some (columns, rest) := by
  induction columns with
  | nil => exact absurd rfl hSome
  | cons c columns ih =>
      cases columns with
      | nil => rfl
      | cons d columns =>
          have hLater := ih (by simp)
          simp only [List.map_cons] at hLater
          simp only [List.map_cons, joined, tokensOf,
            Piece.tokens, Piece.param?, tokensFrom_comma,
            List.cons_append, List.nil_append,
            Option.toList_none, List.length_nil, Nat.add_zero,
            names?, hLater, Option.map_some]

/- What is bound to pieces stands among all parameters. -/
def Bound
    (bound : List Value)
    (n : Nat)
    (pieces : List Piece) : Prop :=
  params pieces <+: bound.drop n

/- What is bound to all pieces is bound to the first ones. -/
theorem Bound.left
    {ps qs : List Piece}
    (h : Bound bound n (ps ++ qs)) :
    Bound bound n ps := by
  rw [Bound, params_append] at h
  exact (List.prefix_append _ _).trans h

/- What is bound to all pieces is bound to the later ones. -/
theorem Bound.right
    {ps qs : List Piece}
    (h : Bound bound n (ps ++ qs)) :
    Bound bound (n + (params ps).length) qs := by
  rw [Bound, params_append] at h
  rcases h with ⟨later, h⟩
  refine ⟨later, ?_⟩
  rw [← List.drop_drop, ← h, List.append_assoc,
    List.drop_left]

/- What begins the values after a count is the value at it. -/
theorem getElem?_of_prefix_drop
    {v : Value}
    (h : [v] <+: bound.drop n) :
    bound[n]? = some v := by
  rcases h with ⟨later, h⟩
  rw [← List.head?_drop, ← h]
  rfl

/- The token of an operand stands for its value. -/
theorem exists_cell?_operand
    {v : Value}
    (hBound : Bound bound n [.operand v]) :
    ∃ token,
      (Piece.operand v).tokens n = [token] ∧
        cell? bound token = some (some v) := by
  by_cases hv : v.isNull = true
  · refine ⟨.word "NULL", ?_, ?_⟩
    · simp [Piece.tokens, hv]
    · cases v with
      | null => rfl
      | _ => cases hv
  · refine ⟨.placeholder (n + 1), ?_, ?_⟩
    · simp [Piece.tokens, hv]
    have hFirst : [v] <+: bound.drop n := by
      simpa [Bound, params, Piece.param?, hv] using hBound
    simp [cell?, getElem?_of_prefix_drop hFirst]

/- The token of a cell stands for what the row gives. -/
theorem exists_cell?_eq
    {row : Fields Value}
    {c : String}
    (hBound : Bound bound n [cellPiece row c]) :
    ∃ token,
      (cellPiece row c).tokens n = [token] ∧
        cell? bound token = some (Fields.get? row c) := by
  cases hCell : Fields.get? row c with
  | none =>
      refine ⟨.word "DEFAULT", ?_, rfl⟩
      rw [cellPiece, hCell, Piece.tokens_text]
      rfl
  | some v =>
      have hPiece : cellPiece row c = .operand v := by
        rw [cellPiece, hCell]
      rw [hPiece] at hBound ⊢
      exact exists_cell?_operand hBound

/-
  A closing bracket ends a row, and the rows after it are read
  as given.
-/
def Closes
    (bound : List Value)
    (rest : List Token)
    (rows : List (List (Option Value))) : Prop :=
  ∀ token c,
    cell? bound token = some c →
      rows? bound (token :: .closing :: rest) = some ([c] :: rows)

/- The last row is followed by none. -/
theorem closes_last
    (hEnds : endsRows rest = true) :
    Closes bound rest [] := by
  intro token c hCell
  rw [rows?]
  · simp [hEnds, hCell]
  · rintro later rfl
    simp [endsRows] at hEnds

/- Another row follows a comma. -/
theorem closes_next
    (hRows : rows? bound rest = some rows) :
    Closes bound (.comma :: .opening :: rest) rows := by
  intro token c hCell
  simp [rows?, hCell, hRows]

/- The cells of a row are read as what the row gives. -/
theorem rows?_cells
    {columns : List String}
    {row : Fields Value}
    (hSome : columns ≠ [])
    (hBound :
      Bound bound n
        (joined ", " (columns.map fun c => [cellPiece row c])))
    (hCloses : Closes bound rest rows) :
    rows? bound
        (tokensOf n
            (joined ", " (columns.map fun c => [cellPiece row c])) ++
          .closing :: rest) =
      some (columns.map (Fields.get? row) :: rows) := by
  induction columns generalizing n with
  | nil => exact absurd rfl hSome
  | cons c columns ih =>
      cases columns with
      | nil =>
          rcases exists_cell?_eq hBound with
            ⟨token, hToken, hCell⟩
          simp [joined, tokensOf, hToken, hCloses token _ hCell]
      | cons d columns =>
          -- only the last cell is closed; a comma follows this one
          rcases exists_cell?_eq hBound.left with
            ⟨token, hToken, hCell⟩
          have hSplit :
              Bound bound n
                ([cellPiece row c, .text ", "] ++
                  joined ", "
                    ((d :: columns).map fun c =>
                      [cellPiece row c])) :=
            hBound
          have hLater := ih (by simp) hSplit.right
          have hFirst :
              tokensOf n [cellPiece row c, .text ", "] =
                [token, .comma] := by
            simp only [tokensOf, hToken, Piece.tokens_text,
              tokensFrom_comma, List.append_nil,
              List.cons_append, List.nil_append]
          have hTokens :=
            tokensOf_append n [cellPiece row c, .text ", "]
              (joined ", "
                ((d :: columns).map fun c => [cellPiece row c]))
          rw [hFirst] at hTokens
          simp only [List.map_cons, joined, List.cons_append,
            List.nil_append] at hTokens hLater ⊢
          rw [hTokens]
          simp only [List.cons_append, rows?, hCell, hLater]

/- A row as it stands in an insertion is read as it was given. -/
theorem rows?_tuple
    {i : Insert}
    {row : Fields Value}
    (hNamed : i.named ≠ [])
    (hRow : row ∈ i.rows)
    (hBound : Bound bound n (i.tuplePieces row))
    (hCloses : Closes bound rest rows) :
    ∃ tokens,
      tokensOf n (i.tuplePieces row) ++ rest =
          .opening :: tokens ∧
        rows? bound tokens =
          some (i.named.map (Fields.get? row) :: rows) := by
  by_cases hEmpty : i.columns = []
  · have hDefault :
        ∃ c, i.named = [c] := by
      cases hReturning : i.returning with
      | none => simp [named, hEmpty, hReturning] at hNamed
      | some c =>
          refine ⟨c, ?_⟩
          simpa [named, hEmpty, hReturning] using hNamed
    rcases hDefault with ⟨c, hNamed⟩
    have hNone : Fields.get? row c = none :=
      get?_eq_none_of_columns hRow (by simp [hEmpty])
    have hTokens :
        tokensFrom 0 "(DEFAULT)".toList =
          [.opening, .word "DEFAULT", .closing] := rfl
    refine ⟨.word "DEFAULT" :: .closing :: rest, ?_, ?_⟩
    · simp only [tuplePieces, hEmpty, if_true, tokensOf,
        Piece.tokens, hTokens, List.append_nil,
        List.cons_append, List.nil_append]
    · simpa [hNamed, hNone] using hCloses (.word "DEFAULT") none rfl
  · have hNamed : i.named = i.columns := by
      simp [named, hEmpty]
    have hPieces :
        i.tuplePieces row =
          [.text "("] ++
            joined ", "
                (i.columns.map fun c => [cellPiece row c]) ++
              [.text ")"] := by
      simp [tuplePieces, hEmpty, rowPieces]
    have hOpening :
        tokensFrom 0 "(".toList = [.opening] := rfl
    have hClosing :
        tokensFrom 0 ")".toList = [.closing] := rfl
    rw [hPieces] at hBound ⊢
    rw [hNamed]
    refine
      ⟨_, ?_, rows?_cells hEmpty hBound.left.right hCloses⟩
    simp only [tokensOf_append, tokensOf, Piece.tokens_text,
      hOpening, hClosing, List.append_nil, List.append_assoc,
      List.cons_append, List.nil_append]
    -- a bracket binds nothing, so the counts are the same
    rfl

/- Rows one after the other are read as they were given. -/
theorem rows?_tuples
    {i : Insert}
    (hNamed : i.named ≠ [])
    (hEnds : endsRows rest = true)
    {items : List (Fields Value)}
    (hSome : items ≠ [])
    (hRows : ∀ row ∈ items, row ∈ i.rows)
    (hBound :
      Bound bound n (joined ", " (items.map i.tuplePieces))) :
    ∃ tokens,
      tokensOf n (joined ", " (items.map i.tuplePieces)) ++ rest =
          .opening :: tokens ∧
        rows? bound tokens =
          some (items.map fun row =>
            i.named.map (Fields.get? row)) := by
  induction items generalizing n with
  | nil => exact absurd rfl hSome
  | cons row items ih =>
      have hRow : row ∈ i.rows := hRows row (by simp)
      cases items with
      | nil =>
          exact
            rows?_tuple hNamed hRow hBound (closes_last hEnds)
      | cons other items =>
          have hPieces :
              joined ", "
                  ((row :: other :: items).map i.tuplePieces) =
                i.tuplePieces row ++ ([.text ", "] ++
                  joined ", "
                    ((other :: items).map i.tuplePieces)) := rfl
          rw [hPieces] at hBound ⊢
          rcases ih (by simp)
              (fun r hr => hRows r (List.mem_cons_of_mem _ hr))
              hBound.right.right with
            ⟨later, hLater, hRead⟩
          have hTokens :
              tokensOf n
                    (i.tuplePieces row ++ ([.text ", "] ++
                      joined ", "
                        ((other :: items).map i.tuplePieces))) ++
                  rest =
                tokensOf n (i.tuplePieces row) ++
                  .comma :: .opening :: later := by
            rw [tokensOf_append, tokensOf_append,
              List.append_assoc, List.append_assoc, hLater]
            simp only [tokensOf, Piece.tokens_text,
              tokensFrom_comma, List.append_nil,
              List.cons_append, List.nil_append]
          rw [hTokens]
          exact
            rows?_tuple hNamed hRow hBound.left
              (closes_next hRead)

------------------------------------------------------------
-- Insertions read back
------------------------------------------------------------

/- What is read back from the statement of an insertion. -/
def readBack (i : Insert) : Inserted where
  table := i.table.name
  columns := i.named
  rows := i.rows.map fun row => i.named.map (Fields.get? row)

/- The clauses after the rows end them. -/
theorem endsRows_clauses
    (i : Insert)
    (n : Nat) :
    endsRows
        (tokensOf n
          (keepPieces i.keep ++ returningPieces i.returning)) =
      true := by
  cases i.keep with
  | some c =>
      have hConflict :
          tokensFrom 0 " ON CONFLICT (".toList =
            [.word "ON", .word "CONFLICT", .opening] := rfl
      simp only [keepPieces, List.cons_append, tokensOf,
        Piece.tokens_text, hConflict]
      rfl
  | none =>
      cases i.returning with
      | none => rfl
      | some c =>
          have hReturning :
              tokensFrom 0 " RETURNING ".toList =
                [.word "RETURNING"] := rfl
          simp only [keepPieces, returningPieces,
            List.nil_append, tokensOf, Piece.tokens_text,
            hReturning]
          rfl

/-
  The rows of an insertion can be told apart: without any
  column there is one row only, or a column to name.
-/
def Told (i : Insert) : Prop :=
  i.columns = [] → i.rows.length ≤ 1 ∨ i.returning.isSome = true

/- No column is named for a single row without any. -/
theorem exists_rows_eq_of_named
    {i : Insert}
    (hSome : i.rows ≠ [])
    (hTold : i.Told)
    (hNone : i.named = []) :
    ∃ row, i.rows = [row] := by
  have hEmpty : i.columns = [] := by
    by_cases hColumns : i.columns = []
    · exact hColumns
    · simp [named, hColumns] at hNone
  have hOne : i.rows.length ≤ 1 := by
    rcases hTold hEmpty with hOne | hReturning
    · exact hOne
    · rcases Option.isSome_iff_exists.mp hReturning with
        ⟨c, hReturning⟩
      simpa [named, hEmpty, hReturning] using hNone
  have hLength := List.length_pos_iff.mpr hSome
  exact List.length_eq_one_iff.mp (by omega)

/- Columns and rows are read as they were given. -/
theorem columnsAndRows?_values
    {i : Insert}
    (hSome : i.rows ≠ [])
    (hTold : i.Told)
    (hBound : Bound bound n i.valuePieces)
    (hEnds : endsRows rest = true) :
    columnsAndRows? bound (tokensOf n i.valuePieces ++ rest) =
      some (i.readBack.columns, i.readBack.rows) := by
  rw [valuePieces_eq] at hBound ⊢
  by_cases hNone : i.named = []
  · rcases exists_rows_eq_of_named hSome hTold hNone with
      ⟨row, hRows⟩
    have hDefault :
        tokensFrom 0 " DEFAULT VALUES".toList =
          [.word "DEFAULT", .word "VALUES"] := rfl
    rw [if_pos hNone]
    simp only [tokensOf, Piece.tokens_text, hDefault,
      List.cons_append, List.nil_append, columnsAndRows?, hEnds]
    simp [readBack, hNone, hRows]
  · rw [if_neg hNone] at hBound ⊢
    have hOpening :
        tokensFrom 0 " (".toList = [.opening] := rfl
    have hValues :
        tokensFrom 0 ") VALUES ".toList =
          [.closing, .word "VALUES"] := rfl
    rcases rows?_tuples hNone hEnds hSome (fun _ hr => hr)
        hBound.right with
      ⟨later, hLater, hRead⟩
    have hTokens :
        tokensOf n
              (namePieces i.named ++
                joined ", " (i.rows.map i.tuplePieces)) ++ rest =
          .opening ::
            (tokensOf n
                (joined ", " (i.named.map fun c => [.name c])) ++
              .closing :: .word "VALUES" :: .opening :: later) := by
      rw [tokensOf_append, List.append_assoc, hLater]
      simp only [namePieces, List.cons_append, tokensOf,
        tokensOf_append, Piece.tokens_text, hOpening, hValues,
        List.append_nil, List.append_assoc, List.nil_append]
      rfl
    rw [hTokens]
    simp only [columnsAndRows?, names?_tokensOf hNone, hRead]
    rfl

/- An insertion is read back as what it was written for. -/
theorem inserted?_statement
    {i : Insert}
    (hSome : i.rows ≠ [])
    (hTold : i.Told) :
    i.statement.inserted? = some i.readBack := by
  have hInto :
      tokensFrom 0 "INSERT INTO ".toList =
        [.word "INSERT", .word "INTO"] := rfl
  have hTokens :
      i.statement.tokens =
        .word "INSERT" :: .word "INTO" :: .name i.table.name ::
          (tokensOf 0 i.valuePieces ++
            tokensOf (params i.valuePieces).length
              (keepPieces i.keep ++
                returningPieces i.returning)) := by
    rw [statement, i.lexes.tokens_assemble]
    simp only [pieces, List.cons_append, List.nil_append,
      List.append_assoc, tokensOf, Piece.tokens_text,
      Piece.tokens_name, hInto, tokensOf_append]
    simp [Piece.param?]
  have hBound : Bound i.statement.params 0 i.valuePieces := by
    refine
      ⟨params (keepPieces i.keep ++ returningPieces i.returning),
        ?_⟩
    simp [statement, assemble, pieces, params_cons, Piece.param?]
  have hRead :=
    columnsAndRows?_values hSome hTold hBound
      (i.endsRows_clauses (params i.valuePieces).length)
  have hLengths :
      i.readBack.rows.all (fun cells =>
          cells.length = i.readBack.columns.length) = true := by
    simp [readBack]
  simp only [Statement.inserted?, hTokens, hRead, hLengths, if_true]
  rfl

------------------------------------------------------------
-- Cells and columns
------------------------------------------------------------

/- The value that cells made for names give to one of them. -/
theorem get?_zip_map
    {β : Type}
    (names : List String)
    (f : String → β)
    (c : String) :
    Fields.get? (names.zip (names.map f)) c =
      if c ∈ names then some (f c) else none := by
  induction names with
  | nil => rfl
  | cons name names ih =>
      by_cases hName : name = c
      · simp [Fields.get?, hName]
      · have hOther : c ≠ name := fun h => hName h.symm
        simp [Fields.get?, hName, hOther, ih]

/-
  The cells of a row give each column what the row gives.  A
  column that is only named to tell rows apart has no value in
  any of them, and takes its default.
-/
theorem gives_named
    {i : Insert}
    {row : Fields Value}
    (hRow : row ∈ i.rows)
    (c : String) :
    i.readBack.gives (i.named.map (Fields.get? row)) c =
      Fields.get? row c := by
  rw [Inserted.gives, readBack, get?_zip_map]
  by_cases hc : c ∈ i.named
  · simp [hc]
  · have hColumns : c ∉ i.columns :=
      fun h => hc (mem_named_of_columns h)
    simp [hc, get?_eq_none_of_columns hRow hColumns]

/- Three rows, of which one has no column; a name has a quote. -/
example :
    let i : Insert :=
      { table := { name := "idea", source := none }
        rows :=
          [ [("a", .int 1)]
          , [("b\"", .null), ("a", .string "x")]
          , [] ]
        returning := some "id" }
    i.statement.inserted?.map (fun read =>
        (read.columns, read.rows.map (·.map Option.isSome))) =
      some
        (["a", "b\""],
          [[true, false], [true, true], [false, false]]) := by
  decide +kernel

end Insert

end Sql

end RelationalRest
