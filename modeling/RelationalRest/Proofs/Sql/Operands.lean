import RelationalRest.Proofs.Sql.Spelling
import RelationalRest.Sql.Change

/-
  This file defines the values that conditions, queries and
  changes hold, in the order in which their text shows them,
  and proves that the pieces of each spell these values.

  Conditions are read depth first, rows to insert one by one
  over the columns of all rows, and assigned values before
  the values of conditions.

  Key definitions include:
    * `Sql.Condition.sites`
    * `Sql.Query.sites`
    * `Sql.Query.sources`
    * `Sql.Insert.union`
    * `Sql.Insert.sites`
    * `Sql.Update.sites`
    * `Sql.Delete.sites`

  Key theorems include:
    * `Sql.Query.spells_select`
    * `Sql.Query.spells_count`
    * `Sql.Insert.columns_eq_union`
    * `Sql.Insert.spells`
    * `Sql.Update.spells`
    * `Sql.Delete.spells`
-/

namespace RelationalRest

namespace Sql

------------------------------------------------------------
-- Conditions
------------------------------------------------------------

/- How a comparison with an absent value is written. -/
def Comparison.absence : Comparison → Absence
| .ne => .isNotNull
| _ => .isNull

mutual

/- The values of a condition, depth first. -/
def Condition.sites : Condition → List Site
| .compare _ op value => [{ value, form := op.absence }]
| .anyOf parts => Condition.choiceSites parts
termination_by structural c => c

/- The values of the parts of a choice. -/
def Condition.choiceSites : List Condition → List Site
| [] => []
| c :: rest => Condition.sites c ++ Condition.choiceSites rest
termination_by structural cs => cs

end

/- A column holds no value. -/
theorem Column.spells (c : Column) : Spells c.pieces [] [] := by
  have hName := Spells.nil.name c.name detached_nil
  have hPoint : Spells [.text ".", .name c.name] [] [] :=
    hName.text rfl
  exact hPoint.name c.qualifier (detached_text rfl _)

namespace Condition

/- A comparison with an absent value is its column and a word. -/
theorem spells_absent
    {s : String}
    {form : Absence}
    {v : Value}
    (hForm :
      s = " IS NULL" ∧ form = .isNull ∨
        s = " IS NOT NULL" ∧ form = .isNotNull)
    (hNull : v.isNull = true) :
    Spells [.text s] [] [{ value := v, form }] where
  slots := by
    intro n later rest _
    rcases hForm with ⟨rfl, rfl⟩ | ⟨rfl, rfl⟩ <;>
      simp [textFrom, numbered, hNull, slotsFrom, opensDerived,
        slot?, opens, List.isPrefixOf]
  params := by
    simp [params, Piece.param?, present, hNull]

/- The word of a comparison is quiet between blanks. -/
theorem quiet_comparison (op : Comparison) :
    Quiet (" " ++ op.text ++ " ").toList = true := by
  cases op <;> rfl

/- A comparison spells its value. -/
theorem spells_compare
    (column : Column)
    (op : Comparison)
    (value : Value) :
    Spells (comparePieces column op value) []
      (sites (.compare column op value)) := by
  by_cases hNull : value.isNull = true
  · have hForm :
        (if op = .ne then " IS NOT NULL" else " IS NULL") =
              " IS NULL" ∧ op.absence = .isNull ∨
          (if op = .ne then " IS NOT NULL" else " IS NULL") =
              " IS NOT NULL" ∧ op.absence = .isNotNull := by
      cases op <;> simp [Comparison.absence]
    have hDetached :
        Detached
          [.text
            (if op = .ne then " IS NOT NULL" else " IS NULL")] := by
      apply detached_text
      cases op <;> rfl
    simpa [comparePieces, hNull, sites] using
      column.spells.append (spells_absent hForm hNull) hDetached
  · have hOperand := Spells.nil.operand value detached_nil
    have hText := hOperand.text (quiet_comparison op)
    have hDetached :
        Detached
          [.text (" " ++ op.text ++ " "), .operand value] := by
      apply detached_text
      cases op <;> rfl
    have hAll := column.spells.append hText hDetached
    -- the word for an absent value does not matter here
    refine ⟨?_, ?_⟩
    · intro n later rest hRest
      have hRead := hAll.slots n later rest hRest
      simpa [comparePieces, hNull, sites, numbered, Site.alone]
        using hRead
    · simpa [comparePieces, hNull, sites, present, Site.alone]
        using hAll.params

mutual

/- A condition spells its values. -/
theorem spells : ∀ c : Condition, Spells c.pieces [] c.sites
| .compare column op value => by
    simpa [pieces] using spells_compare column op value
| .anyOf parts => by
    have hClosed : Spells [.text ")"] [] [] :=
      Spells.nil.text rfl
    have hInside :=
      (spells_choice parts).append hClosed
        (detached_text rfl [])
    simpa [pieces, sites] using
      hInside.text (s := "(") rfl

/- The parts of a choice spell their values. -/
theorem spells_choice :
    ∀ parts : List Condition,
      Spells (choicePieces parts) [] (choiceSites parts)
| [] => Spells.nil
| [c] => by
    simpa [choicePieces, choiceSites] using spells c
| c :: d :: rest => by
    have hRest :=
      (spells_choice (d :: rest)).text (s := " OR ") rfl
    simpa [choicePieces, choiceSites] using
      (spells c).append hRest (detached_text rfl _)

end

end Condition

/- Conditions that must all hold spell their values. -/
theorem spells_wherePieces (conditions : List Condition) :
    Spells (wherePieces conditions) []
      (conditions.flatMap Condition.sites) := by
  have hJoined :=
    Spells.joined (s := " AND ") rfl rfl
      Condition.pieces Condition.sites Condition.spells conditions
  cases conditions with
  | nil => exact Spells.nil
  | cons c rest =>
      simpa [wherePieces] using
        hJoined.text (s := " WHERE ") rfl

/- Conditions that must all hold begin apart. -/
theorem detached_wherePieces (conditions : List Condition) :
    Detached (wherePieces conditions) := by
  cases conditions with
  | nil => exact detached_nil
  | cons c rest => exact detached_text rfl _

------------------------------------------------------------
-- Tables
------------------------------------------------------------

/- A text that names a table, and at which a reader stops. -/
def namesTable (s : String) : Prop :=
  s = " FROM " ∨ s = " LEFT JOIN " ∨ s = "DELETE FROM "

/- A text that names a table is quiet before a name. -/
theorem Spells.table
    {ps : List Piece}
    {as : List String}
    {xs : List Site}
    {s : String}
    (hTable : namesTable s)
    (name : String)
    (hDetached : Detached ps)
    (h : Spells ps as xs) :
    Spells (.text s :: .name name :: ps) as xs where
  slots := by
    intro n later rest hRest
    have hRead := (h.name name hDetached).slots n later rest hRest
    rw [← hRead]
    rcases hTable with rfl | rfl | rfl <;>
      simp [textFrom, slotsFrom, opensDerived, slot?, opens,
        List.isPrefixOf, quoted]
  params := (h.name name hDetached).params

/- A derived table is passed over, and its name is read. -/
theorem spells_derived
    {s : String}
    (hTable : s = " FROM " ∨ s = " LEFT JOIN ")
    (source label : String) :
    Spells
      [.text s, .text "(", .derived source, .text ") AS ",
        .name label]
      [source] [] where
  slots := by
    intro n later rest hRest
    have hLabel :=
      (Spells.nil.name label detached_nil).text (s := ") AS ") rfl
    have hTail := hLabel.slots n later rest hRest
    rcases hTable with rfl | rfl
    · rw [List.nil_append,
        ← slotsFrom_derived (.inl rfl) source later] at hTail
      rw [← hTail]
      simp [textFrom, slotsFrom, opensDerived, slot?, opens,
        List.isPrefixOf]
    · rw [List.nil_append,
        ← slotsFrom_derived (.inr rfl) source later] at hTail
      rw [← hTail]
      simp [textFrom, slotsFrom, opensDerived, slot?, opens,
        List.isPrefixOf]
  params := rfl

/- A table under a name holds no value but its derived text. -/
theorem Table.spells_piecesAs
    {s : String}
    (hTable : s = " FROM " ∨ s = " LEFT JOIN ")
    (t : Table)
    (label : String) :
    Spells (.text s :: t.piecesAs label) t.source.toList [] := by
  have hNames : namesTable s := by
    rcases hTable with h | h
    · exact .inl h
    · exact .inr (.inl h)
  cases hSource : t.source with
  | some source =>
      simpa [piecesAs, hSource] using
        spells_derived hTable source label
  | none =>
      by_cases hLabel : label = t.name
      · simpa [piecesAs, hSource, hLabel] using
          Spells.nil.table hNames t.name detached_nil
      · have hAs :=
          (Spells.nil.name label detached_nil).text
            (s := " AS ") rfl
        simpa [piecesAs, hSource, hLabel] using
          hAs.table hNames t.name (detached_text rfl _)

------------------------------------------------------------
-- Queries
------------------------------------------------------------

/- A join holds no value. -/
theorem Join.spells (j : Join) :
    Detached j.pieces ∧
      Spells j.pieces j.table.source.toList [] := by
  have hRight :=
    j.right.spells.text (s := " = ") rfl
  have hOn :=
    (j.left.spells.append hRight
      (detached_text rfl _)).text (s := " ON ") rfl
  have hTable := j.table.spells_piecesAs (.inr rfl) j.label
  have hAll := hTable.append hOn (detached_text rfl _)
  refine ⟨detached_text rfl _, ?_⟩
  simpa [pieces] using hAll

namespace Query

/- The texts of the derived tables of a query, in order. -/
def sources (q : Query) : List String :=
  q.root.source.toList ++
    q.joins.flatMap fun j => j.table.source.toList

/- The values of a query, which all stand in conditions. -/
def sites (q : Query) : List Site :=
  q.conditions.flatMap Condition.sites

/- Tables and conditions spell the values of a query. -/
theorem spells_body (q : Query) :
    Detached q.bodyPieces ∧
      Spells q.bodyPieces q.sources q.sites := by
  have hRoot := q.root.spells_piecesAs (.inl rfl) q.root.name
  rcases Spells.flatMap Join.pieces
      (fun j => j.table.source.toList)
      (fun j => j.spells.1) (fun j => j.spells.2) q.joins with
    ⟨hJoinsDetached, hJoins⟩
  have hWhere := spells_wherePieces q.conditions
  have hAll :=
    (hRoot.append hJoins hJoinsDetached).append hWhere
      (detached_wherePieces q.conditions)
  refine ⟨detached_text rfl _, ?_⟩
  simpa [bodyPieces, sources, sites] using hAll

/- Selected columns hold no value. -/
theorem spells_selection (q : Query) :
    Spells q.selectionPieces [] [] := by
  have hColumn :
      ∀ c : Column, Spells (columnPieces c) [] [] := by
    intro c
    have hAs :=
      (Spells.nil.name c.resultName detached_nil).text
        (s := " AS ") rfl
    simpa [columnPieces] using
      c.spells.append hAs (detached_text rfl _)
  by_cases hEmpty : q.columns.isEmpty = true
  · have hAll :=
      (Spells.nil.text (s := ".*") rfl).name q.root.name
        (detached_text rfl _)
    simpa [selectionPieces, hEmpty] using hAll
  · have hJoined :=
      Spells.joined_plain (s := ", ") rfl rfl
        columnPieces hColumn q.columns
    simpa [selectionPieces, hEmpty] using hJoined

/- A column with a direction holds no value. -/
theorem spells_term (term : Column × Direction) :
    Spells (term.1.pieces ++ [.text (" " ++ term.2.text)])
      [] [] := by
  obtain ⟨c, d⟩ := term
  have hText : Spells [.text (" " ++ d.text)] [] [] := by
    apply Spells.nil.text
    cases d <;> rfl
  have hDetached : Detached [.text (" " ++ d.text)] := by
    apply detached_text
    cases d <;> rfl
  exact c.spells.append hText hDetached

/- An ordering holds no value. -/
theorem spells_ordering (q : Query) :
    Detached q.orderingPieces ∧
      Spells q.orderingPieces [] [] := by
  by_cases hEmpty : q.ordering.isEmpty = true
  · simpa [orderingPieces, hEmpty] using
      And.intro detached_nil Spells.nil
  · have hJoined :=
      Spells.joined_plain (s := ", ") rfl rfl
        (fun term : Column × Direction =>
          term.1.pieces ++ [.text (" " ++ term.2.text)])
        spells_term q.ordering
    have hAll := hJoined.text (s := " ORDER BY ") rfl
    simp only [orderingPieces, hEmpty, Bool.false_eq_true,
      if_false]
    exact ⟨detached_text rfl _, hAll⟩

/- A bound on the page holds no value. -/
theorem spells_bound
    {s : String}
    (hQuiet : Quiet s.toList = true)
    (hBegins : beginsApart s = true)
    (bound : Option Nat) :
    Detached (boundPieces s bound) ∧
      Spells (boundPieces s bound) [] [] := by
  cases bound with
  | none => exact ⟨detached_nil, Spells.nil⟩
  | some n =>
      constructor
      · apply detached_text
        cases hList : s.toList with
        | nil => simp [beginsApart, hList] at hBegins
        | cons c cs =>
            simpa [beginsApart, hList] using hBegins
      · refine ⟨?_, rfl⟩
        intro k later rest _
        have hDigits :=
          slotsFrom_quiet (quiet_toString n) later rest
        rw [← slotsFrom_quiet hQuiet] at hDigits
        simpa [boundPieces, textFrom, numbered] using hDigits

/- The selection of rows spells the values of the query. -/
theorem spells_select (q : Query) :
    Spells q.selectPieces q.sources q.sites := by
  rcases q.spells_body with ⟨hBodyDetached, hBody⟩
  rcases q.spells_ordering with ⟨hOrderDetached, hOrder⟩
  rcases spells_bound (s := " LIMIT ") rfl rfl
      q.limit with
    ⟨hLimitDetached, hLimit⟩
  rcases spells_bound (s := " OFFSET ") rfl rfl q.offset with
    ⟨hOffsetDetached, hOffset⟩
  have hSelection :=
    q.spells_selection.text (s := "SELECT ") rfl
  have hAll :=
    (((hSelection.append hBody hBodyDetached).append hOrder
      hOrderDetached).append hLimit hLimitDetached).append
      hOffset hOffsetDetached
  simpa [selectPieces] using hAll

/- The count of rows spells the values of the query. -/
theorem spells_count (q : Query) :
    Spells q.countPieces q.sources q.sites := by
  rcases q.spells_body with ⟨hDetached, hBody⟩
  have hCount :=
    (Spells.nil.name "count" detached_nil).text
      (s := "SELECT COUNT(*) AS ") rfl
  simpa [countPieces] using hCount.append hBody hDetached

end Query

------------------------------------------------------------
-- Changes
------------------------------------------------------------

namespace Insert

/- The values that a row gives to columns. -/
def rowSites
    (columns : List String)
    (row : Fields Value) : List Site :=
  columns.flatMap fun c =>
    ((Fields.get? row c).map Site.alone).toList

/- The names of all rows, each where it is first seen. -/
def union (i : Insert) : List String :=
  (i.rows.flatMap Fields.keys).eraseDups

/- The values of an insertion, row by row over the union. -/
def sites (i : Insert) : List Site :=
  i.rows.flatMap (rowSites i.union)

/- Collecting names that were not seen leaves no name twice. -/
theorem foldl_seen (names seen : List String) :
    names.foldl
        (fun seen name =>
          if name ∈ seen then seen else seen ++ [name])
        seen =
      seen ++ (names.filter fun name => name ∉ seen).eraseDups := by
  induction names generalizing seen with
  | nil => simp
  | cons name names ih =>
      by_cases hSeen : name ∈ seen
      · simp [hSeen, ih]
      · have hFilter :
            (names.filter fun x => decide (x ∉ seen)).filter
                (fun x => !x == name) =
              names.filter fun x =>
                decide (x ∉ seen ++ [name]) := by
          rw [List.filter_filter]
          apply List.filter_congr
          intro x _
          by_cases hx : x = name <;> simp [hx]
        simp only [List.foldl_cons, hSeen, if_false, ih,
          List.filter_cons, not_false_eq_true, decide_true,
          if_true, List.eraseDups_cons, hFilter]
        simp

/- The columns of an insertion are the union of its names. -/
theorem columns_eq_union (i : Insert) : i.columns = i.union := by
  have h := foldl_seen (i.rows.flatMap Fields.keys) []
  rw [List.filter_eq_self.mpr (by simp)] at h
  simpa [columns, union] using h

/- A cell spells the value that the row gives, if it gives one. -/
theorem spells_cell
    (row : Fields Value)
    (c : String) :
    Spells [cellPiece row c] []
      ((Fields.get? row c).map Site.alone).toList := by
  cases hCell : Fields.get? row c with
  | none =>
      simpa [cellPiece, hCell] using
        Spells.nil.text (s := "DEFAULT") rfl
  | some v =>
      simpa [cellPiece, hCell] using
        Spells.nil.operand v detached_nil

/- A row spells its values over the columns. -/
theorem spells_row
    (columns : List String)
    (row : Fields Value) :
    Spells (rowPieces columns row) [] (rowSites columns row) := by
  have hCells :=
    Spells.joined (s := ", ") rfl rfl
      (fun c => [cellPiece row c])
      (fun c => ((Fields.get? row c).map Site.alone).toList)
      (spells_cell row) columns
  have hClosed : Spells [.text ")"] [] [] :=
    Spells.nil.text rfl
  have hAll :=
    (hCells.append hClosed (detached_text rfl [])).text
      (s := "(") rfl
  simpa [rowPieces, rowSites] using hAll

/- Rows under the names of their columns spell what each spells. -/
theorem spells_rows
    {α : Type}
    (columns : List String)
    (pieces : α → List Piece)
    (sites : α → List Site)
    (h : ∀ a, Spells (pieces a) [] (sites a))
    (items : List α) :
    Detached
        (namePieces columns ++
          joined ", " (items.map pieces)) ∧
      Spells
        (namePieces columns ++ joined ", " (items.map pieces)) []
        (items.flatMap sites) := by
  have hItems :=
    Spells.joined (s := ", ") rfl rfl pieces sites
      h items
  have hRows := hItems.text (s := ") VALUES ") rfl
  have hColumns :=
    Spells.joined_plain (s := ", ") rfl rfl
      (fun c : String => [Piece.name c])
      (fun c => Spells.nil.name c detached_nil) columns
  have hAll :=
    (hColumns.append hRows (detached_text rfl _)).text
      (s := " (") rfl
  constructor
  · exact detached_text rfl _
  · simpa [namePieces] using hAll

/- Default rows hold no value. -/
theorem sites_eq_nil_of_columns
    {i : Insert}
    (hEmpty : i.columns = []) :
    i.sites = [] := by
  simp [sites, rowSites, ← columns_eq_union, hEmpty]

/- Rows spell their values over the columns of all rows. -/
theorem spells_values (i : Insert) :
    Detached i.valuePieces ∧ Spells i.valuePieces [] i.sites := by
  by_cases hEmpty : i.columns = []
  · have hPlain :
        Detached [.text " DEFAULT VALUES"] ∧
          Spells [.text " DEFAULT VALUES"] [] [] :=
      ⟨detached_text rfl [],
        Spells.nil.text rfl⟩
    rw [sites_eq_nil_of_columns hEmpty]
    cases hReturning : i.returning with
    | none =>
        simpa [valuePieces, hEmpty, hReturning] using hPlain
    | some column =>
        by_cases hMany : 1 < i.rows.length
        · have hRows :=
            spells_rows [column]
              (fun _ => [Piece.text "(DEFAULT)"]) (fun _ => [])
              (fun _ => Spells.nil.text rfl) i.rows
          have hNone :
              i.rows.flatMap (fun _ => ([] : List Site)) = [] :=
            List.flatMap_eq_nil_iff.mpr fun _ _ => rfl
          rw [hNone] at hRows
          simpa only [valuePieces, hEmpty, hReturning, hMany,
            List.isEmpty_nil, if_true] using hRows
        · simpa [valuePieces, hEmpty, hReturning, hMany] using
            hPlain
  · have hRows :=
      spells_rows i.columns (rowPieces i.columns)
        (rowSites i.columns) (spells_row i.columns) i.rows
    have hSome : i.columns.isEmpty = false := by
      simpa [List.isEmpty_eq_false_iff] using hEmpty
    simpa only [valuePieces, hSome, Bool.false_eq_true, if_false,
      sites, ← columns_eq_union] using hRows

/- A keep column holds no value. -/
theorem spells_keep (keep : Option String) :
    Detached (keepPieces keep) ∧
      Spells (keepPieces keep) [] [] := by
  cases keep with
  | none => exact ⟨detached_nil, Spells.nil⟩
  | some c =>
      have hExcluded :=
        (Spells.nil.name c detached_nil).text
          (s := " = EXCLUDED.") rfl
      have hSet :=
        (hExcluded.name c (detached_text rfl _)).text
          (s := ") DO UPDATE SET ") rfl
      have hConflict :=
        (hSet.name c (detached_text rfl _)).text
          (s := " ON CONFLICT (") rfl
      exact ⟨detached_text rfl _, hConflict⟩

/- A returning column holds no value. -/
theorem spells_returning (returning : Option String) :
    Detached (returningPieces returning) ∧
      Spells (returningPieces returning) [] [] := by
  cases returning with
  | none => exact ⟨detached_nil, Spells.nil⟩
  | some c =>
      have hReturning :=
        (Spells.nil.name c detached_nil).text
          (s := " RETURNING ") rfl
      exact ⟨detached_text rfl _, hReturning⟩

/- An insertion spells the values of its rows. -/
theorem spells (i : Insert) : Spells i.pieces [] i.sites := by
  rcases i.spells_values with ⟨hValuesDetached, hValues⟩
  rcases spells_keep i.keep with ⟨hKeepDetached, hKeep⟩
  rcases spells_returning i.returning with
    ⟨hReturningDetached, hReturning⟩
  have hInto :=
    (Spells.nil.name i.table.name detached_nil).text
      (s := "INSERT INTO ") rfl
  have hAll :=
    ((hInto.append hValues hValuesDetached).append hKeep
      hKeepDetached).append hReturning hReturningDetached
  simpa [pieces] using hAll

end Insert

/- The values of an assignment: those assigned come first. -/
def Update.sites (u : Update) : List Site :=
  u.sets.map (fun set => Site.alone set.2) ++
    u.conditions.flatMap Condition.sites

/- An assignment spells its values. -/
theorem Update.spells (u : Update) :
    Spells u.pieces [] u.sites := by
  have hSet :
      ∀ set : String × Value,
        Spells
          [.name set.1, .text " = ", .operand set.2] []
          [Site.alone set.2] := by
    intro set
    have hOperand := Spells.nil.operand set.2 detached_nil
    exact
      (hOperand.text rfl).name set.1
        (detached_text rfl _)
  have hSets :=
    Spells.joined (s := ", ") rfl rfl
      (fun set : String × Value =>
        [Piece.name set.1, .text " = ", .operand set.2])
      (fun set => [Site.alone set.2]) hSet u.sets
  have hBody :=
    (hSets.append (spells_wherePieces u.conditions)
      (detached_wherePieces u.conditions)).text (s := " SET ") rfl
  have hAll :=
    (hBody.name u.table.name (detached_text rfl _)).text
      (s := "UPDATE ") rfl
  rw [sites, List.map_eq_flatMap]
  simpa [pieces] using hAll

/- The values of a deletion. -/
def Delete.sites (d : Delete) : List Site :=
  d.conditions.flatMap Condition.sites

/- A deletion spells its values. -/
theorem Delete.spells (d : Delete) :
    Spells d.pieces [] d.sites := by
  have hWhere := spells_wherePieces d.conditions
  have hAll :=
    hWhere.table (.inr (.inr rfl)) d.table.name
      (detached_wherePieces d.conditions)
  simpa [pieces, sites] using hAll

end Sql

end RelationalRest
