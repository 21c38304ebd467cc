import Mathlib.Data.List.Nodup
import Mathlib.Data.Set.List
import RelationalRest.Proofs.Listing.Selection
import RelationalRest.Proofs.Record.Owner

/-
  When the envelope of a row undoes the naming of its cells.

  The cells of selected columns are named by their qualifier,
  a low line and their name.  The names differ, and envelopes
  hold every column of a label under it, exactly when no table
  or label captures a selected column.

  Key definitions include:
    * `Resource.within`
    * `Row.Carries`
    * `Resource.Reconstructs`
    * `Resource.Restores`

  Main declarations:
    * `Resource.Reconstructs.place`
    * `Resource.exists_cell_of_within`
    * `Catalog.Resolved.restores_iff`
-/

namespace RelationalRest

------------------------------------------------------------
-- Rows and envelopes
------------------------------------------------------------

/-
  A row carries values of columns: its cells are named by the
  columns, and each holds the value of its column.
-/
structure Row.Carries
    (columns : List Sql.Column)
    (values : Sql.Column → Json)
    (row : Row) : Prop where
  distinct : Fields.Distinct row
  names :
    ∀ name ∈ Fields.keys row,
      ∃ col ∈ columns, col.resultName = name
  values :
    ∀ col ∈ columns,
      Fields.get? row col.resultName = some (values col)

namespace Resource

/- What an envelope holds under a column of a label. -/
def within
    (envelope : Fields Json)
    (label column : String) : Option Json :=
  match Fields.get? envelope label with
  | some (.object members) => Fields.get? members column
  | _ => none

/-
  An envelope reconstructs values of columns: a column of a
  relation is found under its label, and there is nothing in
  the envelope but columns of the table at the top and columns
  of relations in the objects of their labels.
-/
structure Reconstructs
    (r : Resource)
    (columns : List Sql.Column)
    (values : Sql.Column → Json)
    (envelope : Fields Json) : Prop where
  nested :
    ∀ col ∈ columns, col.qualifier ≠ r.table.name →
      within envelope col.qualifier col.name = some (values col)
  only :
    ∀ name v, Fields.get? envelope name = some v →
      (r.column name ∈ columns ∧ v = values (r.column name)) ∨
        name ∈ r.belongsTo.keys ∧
          ∃ members, v = .object members ∧
            ∀ column w, Fields.get? members column = some w →
              ⟨name, column⟩ ∈ columns ∧ w = values ⟨name, column⟩

/-
  Columns are restored from rows: no two of them share a name
  in a row, and whatever values a row carries, its envelope
  reconstructs them.
-/
structure Restores
    (r : Resource)
    (columns : List Sql.Column) : Prop where
  names :
    ∀ a ∈ columns, ∀ b ∈ columns,
      a.resultName = b.resultName → a = b
  envelopes :
    ∀ values row, Row.Carries columns values row →
      r.Reconstructs columns values (r.envelope row)

------------------------------------------------------------
-- Nesting
------------------------------------------------------------

variable {r : Resource}
variable {envelope : Fields Json}
variable {label column : String}

/- Values at the top do not change the objects of labels. -/
theorem within_insert_of_ne
    {name : String}
    (h : label ≠ name)
    (v : Json) :
    within (Fields.insert envelope name v) label column =
      within envelope label column := by
  unfold within
  rw [Fields.get?_insert_of_ne envelope v h]

/- Nesting under a label leaves the other names alone. -/
theorem get?_nest_of_ne
    {name : String}
    (h : name ≠ label)
    (v : Json) :
    Fields.get? (nest envelope label column v) name =
      Fields.get? envelope name := by
  unfold nest
  split
  · exact Fields.get?_insert_of_ne envelope _ h
  · exact Fields.get?_insert_of_ne envelope _ h
  · rfl

/-
  Where a label has an object or nothing, nesting stores the
  value and keeps what the object held under other columns.
-/
theorem exists_get?_nest
    (column : String)
    (v : Json)
    (h : ∀ v, Fields.get? envelope label = some v →
      ∃ members, v = .object members) :
    ∃ members,
      Fields.get? (nest envelope label column v) label =
          some (.object members) ∧
        Fields.get? members column = some v ∧
        ∀ other, other ≠ column →
          Fields.get? members other =
            within envelope label other := by
  unfold nest within
  cases hFound : Fields.get? envelope label with
  | none =>
      refine ⟨[(column, v)], by simp, by simp [Fields.get?], ?_⟩
      intro other hOther
      simp [Fields.get?, hOther.symm]
  | some held =>
      rcases h held hFound with ⟨members, rfl⟩
      refine ⟨Fields.insert members column v, by simp, by simp, ?_⟩
      intro other hOther
      exact Fields.get?_insert_of_ne members v hOther

------------------------------------------------------------
-- Placing cells
------------------------------------------------------------

variable {columns : List Sql.Column}
variable {values : Sql.Column → Json}
variable {col : Sql.Column}

/- Offered columns are those of a table or of a label. -/
theorem Offers.mem_owners
    (h : r.Offers col) :
    col.qualifier ∈ r.owners := by
  rcases h with ⟨hTable, _⟩ | hLabel
  · rw [hTable]
    exact List.mem_cons_self
  · exact List.mem_cons_of_mem _
      (mem_relations_of_belongsTo hLabel)

namespace Reconstructs

/- Nothing is reconstructed from no cells. -/
theorem nil
    (r : Resource)
    (values : Sql.Column → Json) :
    r.Reconstructs [] values [] where
  nested := by
    intro col hCol
    cases hCol
  only := by
    intro name v hFound
    cases hFound

/- Under a label there is an object of its columns or nothing. -/
theorem exists_members
    (hr : r.Sound)
    (hOffered : ∀ col ∈ columns, r.Offers col)
    (h : r.Reconstructs columns values envelope)
    (hLabel : label ∈ r.belongsTo.keys)
    {v : Json}
    (hFound : Fields.get? envelope label = some v) :
    ∃ members, v = .object members ∧
      ∀ column w, Fields.get? members column = some w →
        ⟨label, column⟩ ∈ columns ∧ w = values ⟨label, column⟩ := by
  rcases h.only label v hFound with ⟨hCol, _⟩ | ⟨_, hObject⟩
  · rcases hOffered _ hCol with ⟨_, hOwn⟩ | hTable
    · exact absurd rfl (hr.ne_of_owns hOwn hLabel)
    · have hRelation := mem_relations_of_belongsTo hTable
      exact absurd rfl (hr.ne_table hRelation)
  · exact hObject

/- What an envelope holds is still among more columns. -/
theorem only_of_more
    {columns' : List Sql.Column}
    (h : r.Reconstructs columns values envelope)
    (hMore : ∀ col ∈ columns, col ∈ columns')
    {name : String}
    {v : Json}
    (hFound : Fields.get? envelope name = some v) :
    (r.column name ∈ columns' ∧ v = values (r.column name)) ∨
      name ∈ r.belongsTo.keys ∧
        ∃ members, v = .object members ∧
          ∀ column w, Fields.get? members column = some w →
            ⟨name, column⟩ ∈ columns' ∧
              w = values ⟨name, column⟩ := by
  rcases h.only name v hFound with ⟨hCol, hValue⟩ | hNested
  · exact .inl ⟨hMore _ hCol, hValue⟩
  · rcases hNested with ⟨hLabel, members, hObject, hMembers⟩
    refine .inr ⟨hLabel, members, hObject, ?_⟩
    intro column w hw
    rcases hMembers column w hw with ⟨hCol, hValue⟩
    exact ⟨hMore _ hCol, hValue⟩

/- A column of the table goes to the top. -/
theorem insertRoot
    {name : String}
    (hr : r.Sound)
    (hOffered : ∀ col ∈ columns, r.Offers col)
    (hName : name ∈ r.owns.keys)
    (h : r.Reconstructs columns values envelope) :
    r.Reconstructs (columns ++ [r.column name]) values
      (Fields.insert envelope name (values (r.column name))) where
  nested := by
    intro col hCol hRelation
    rcases List.mem_append.mp hCol with hOld | hNew
    · have hLabel : col.qualifier ∈ r.belongsTo.keys := by
        rcases hOffered col hOld with ⟨hTable, _⟩ | hLabel
        · exact absurd hTable hRelation
        · exact hLabel
      rw [within_insert_of_ne (hr.ne_of_owns hName hLabel)]
      exact h.nested col hOld hRelation
    · rw [List.mem_singleton.mp hNew] at hRelation
      exact absurd rfl hRelation
  only := by
    intro other v hFound
    by_cases hSame : other = name
    · subst hSame
      rw [Fields.get?_insert_self] at hFound
      cases hFound
      exact .inl ⟨by simp, rfl⟩
    · rw [Fields.get?_insert_of_ne _ _ hSame] at hFound
      exact h.only_of_more
        (fun col hCol => List.mem_append_left _ hCol) hFound

/- What is under a label is the value of a column. -/
theorem mem_of_within
    (hr : r.Sound)
    (hOffered : ∀ col ∈ columns, r.Offers col)
    (h : r.Reconstructs columns values envelope)
    (hLabel : label ∈ r.belongsTo.keys)
    {w : Json}
    (hWithin : within envelope label column = some w) :
    ⟨label, column⟩ ∈ columns ∧ w = values ⟨label, column⟩ := by
  cases hFound : Fields.get? envelope label with
  | none => simp [within, hFound] at hWithin
  | some v =>
      rcases h.exists_members hr hOffered hLabel hFound with
        ⟨members, rfl, hMembers⟩
      simp only [within, hFound] at hWithin
      exact hMembers column w hWithin

/- A column of a relation goes to the object of its label. -/
theorem nest
    (hr : r.Sound)
    (hOffered : ∀ col ∈ columns, r.Offers col)
    (hLabel : label ∈ r.belongsTo.keys)
    (h : r.Reconstructs columns values envelope) :
    r.Reconstructs (columns ++ [⟨label, column⟩]) values
      (Resource.nest envelope label column
        (values ⟨label, column⟩)) := by
  have hHeld :
      ∀ v, Fields.get? envelope label = some v →
        ∃ members, v = .object members := by
    intro v hFound
    rcases h.exists_members hr hOffered hLabel hFound with
      ⟨members, hMembers, _⟩
    exact ⟨members, hMembers⟩
  rcases exists_get?_nest column (values ⟨label, column⟩) hHeld with
    ⟨members, hObject, hNew, hKept⟩
  refine ⟨?_, ?_⟩
  · rintro ⟨qualifier, name⟩ hCol hRelation
    by_cases hQualifier : qualifier = label
    · subst hQualifier
      simp only [within, hObject]
      by_cases hName : name = column
      · rw [hName]
        exact hNew
      · rw [hKept name hName]
        rcases List.mem_append.mp hCol with hOld | hLast
        · exact h.nested _ hOld hRelation
        · cases List.mem_singleton.mp hLast
          exact absurd rfl hName
    · unfold within
      rw [get?_nest_of_ne hQualifier]
      rcases List.mem_append.mp hCol with hOld | hLast
      · exact h.nested _ hOld hRelation
      · cases List.mem_singleton.mp hLast
        exact absurd rfl hQualifier
  · intro name v hFound
    by_cases hSame : name = label
    · subst hSame
      rw [hObject] at hFound
      cases hFound
      refine .inr ⟨hLabel, members, rfl, ?_⟩
      intro other w hw
      by_cases hOther : other = column
      · subst hOther
        rw [hNew] at hw
        cases hw
        exact ⟨by simp, rfl⟩
      · rw [hKept other hOther] at hw
        rcases h.mem_of_within hr hOffered hLabel hw with
          ⟨hCol, hValue⟩
        exact ⟨List.mem_append_left _ hCol, hValue⟩
    · rw [get?_nest_of_ne hSame] at hFound
      exact h.only_of_more
        (fun col hCol => List.mem_append_left _ hCol) hFound

/- A cell that nothing captures is placed where it belongs. -/
theorem place
    (hr : r.Sound)
    (hOffered : ∀ col ∈ columns, r.Offers col)
    (hCol : r.Offers col)
    (hFree : ¬ r.Captures col)
    (h : r.Reconstructs columns values envelope) :
    r.Reconstructs (columns ++ [col]) values
      (r.place envelope (col.resultName, values col)) := by
  obtain ⟨qualifier, name⟩ := col
  unfold Resource.place
  rw [owner?_resultName hCol.mem_owners hFree]
  rcases hCol with ⟨hTable, hName⟩ | hLabel
  · have hQualifier : qualifier = r.table.name := hTable
    subst hQualifier
    simp only [if_true]
    exact h.insertRoot hr hOffered hName
  · have hRelation := mem_relations_of_belongsTo hLabel
    have hQualifier : qualifier ≠ r.table.name :=
      hr.ne_table hRelation
    simp only [hQualifier, if_false]
    exact h.nest hr hOffered hLabel

/- Only which columns there are matters. -/
theorem of_mem_iff
    {columns' : List Sql.Column}
    (h : r.Reconstructs columns values envelope)
    (hSame : ∀ col, col ∈ columns ↔ col ∈ columns') :
    r.Reconstructs columns' values envelope where
  nested := fun col hCol => h.nested col ((hSame col).mpr hCol)
  only := fun _ _ hFound =>
    h.only_of_more (fun col => (hSame col).mp) hFound

/- Cells that nothing captures are placed one after the other. -/
theorem foldl_place
    {rest : List Sql.Column}
    (hr : r.Sound)
    (hOffered : ∀ col ∈ columns ++ rest, r.Offers col)
    (hFree : ∀ col ∈ rest, ¬ r.Captures col)
    (h : r.Reconstructs columns values envelope) :
    r.Reconstructs (columns ++ rest) values
      ((rest.map fun col => (col.resultName, values col)).foldl
        r.place envelope) := by
  induction rest generalizing columns envelope with
  | nil => simpa using h
  | cons col rest ih =>
      have hCol : r.Offers col := hOffered col (by simp)
      have hColumns : ∀ col ∈ columns, r.Offers col :=
        fun col hMem => hOffered col (List.mem_append_left _ hMem)
      have hNext :=
        h.place hr hColumns hCol (hFree col List.mem_cons_self)
      have hRest : columns ++ col :: rest = columns ++ [col] ++ rest := by
        simp
      rw [hRest] at hOffered ⊢
      exact ih hOffered
        (fun col hMem => hFree col (List.mem_cons_of_mem _ hMem))
        hNext

end Reconstructs

------------------------------------------------------------
-- Rows of selected columns
------------------------------------------------------------

/- A row is made of one cell for each column that it carries. -/
theorem exists_columns_of_carries
    {row : Row}
    (hNames :
      ∀ a ∈ columns, ∀ b ∈ columns,
        a.resultName = b.resultName → a = b)
    (h : Row.Carries columns values row) :
    ∃ cols : List Sql.Column,
      row = cols.map (fun col => (col.resultName, values col)) ∧
        ∀ col, col ∈ cols ↔ col ∈ columns := by
  let cell (col : { col // col ∈ columns }) : String × Json :=
    (col.1.resultName, values col.1)
  have hCells : row ∈ Set.range (List.map cell) := by
    rw [Set.range_list_map]
    rintro ⟨name, v⟩ hMem
    have hName : name ∈ Fields.keys row :=
      List.mem_map.mpr ⟨(name, v), hMem, rfl⟩
    rcases h.names name hName with ⟨col, hCol, rfl⟩
    have hFound := Fields.get?_eq_some_of_mem h.distinct hMem
    rw [h.values col hCol] at hFound
    cases hFound
    exact ⟨⟨col, hCol⟩, rfl⟩
  rcases hCells with ⟨cols, rfl⟩
  refine ⟨cols.map Subtype.val, by simp [cell], ?_⟩
  intro col
  constructor
  · intro hCol
    rcases List.mem_map.mp hCol with ⟨found, _, rfl⟩
    exact found.2
  · intro hCol
    have hMem :=
      Fields.mem_of_get?_eq_some (h.values col hCol)
    rcases List.mem_map.mp hMem with ⟨other, hOther, hPair⟩
    have hSame : other.1.resultName = col.resultName :=
      congrArg Prod.fst hPair
    rw [← hNames other.1 other.2 col hCol hSame]
    exact List.mem_map.mpr ⟨other, hOther, rfl⟩

/- Columns that nothing captures differ in their names in rows. -/
theorem resultName_inj
    (hOffered : ∀ col ∈ columns, r.Offers col)
    (hFree : ∀ col ∈ columns, ¬ r.Captures col) :
    ∀ a ∈ columns, ∀ b ∈ columns,
      a.resultName = b.resultName → a = b := by
  have hOwner :
      ∀ col ∈ columns,
        r.owner? col.resultName = some (col.qualifier, col.name) :=
    fun col hCol =>
      owner?_resultName (hOffered col hCol).mem_owners
        (hFree col hCol)
  intro a ha b hb hSame
  have hOwners := hOwner a ha
  rw [hSame, hOwner b hb] at hOwners
  cases a
  cases b
  cases hOwners
  rfl

/- Columns that nothing captures are restored. -/
theorem restores_of_not_captures
    (hr : r.Sound)
    (hOffered : ∀ col ∈ columns, r.Offers col)
    (hFree : ∀ col ∈ columns, ¬ r.Captures col) :
    r.Restores columns where
  names := resultName_inj hOffered hFree
  envelopes := by
    intro values row hRow
    rcases exists_columns_of_carries
        (resultName_inj hOffered hFree) hRow with
      ⟨cols, rfl, hCols⟩
    have hPlaced :
        r.Reconstructs ([] ++ cols) values
          (r.envelope
            (cols.map fun col => (col.resultName, values col))) :=
      Reconstructs.foldl_place hr
        (fun col hCol => hOffered col ((hCols col).mp hCol))
        (fun col hCol => hFree col ((hCols col).mp hCol))
        (Reconstructs.nil r values)
    exact hPlaced.of_mem_iff hCols

------------------------------------------------------------
-- Where nested values come from
------------------------------------------------------------

/- Nesting changes one column of one label. -/
theorem within_nest_of_ne
    {owner name : String}
    (h : ¬ (label = owner ∧ column = name))
    (v : Json) :
    within (nest envelope owner name v) label column =
      within envelope label column := by
  by_cases hLabel : label = owner
  · subst hLabel
    have hColumn : column ≠ name := fun hEq => h ⟨rfl, hEq⟩
    unfold nest within
    cases hFound : Fields.get? envelope label with
    | none => simp [Fields.get?, hColumn.symm]
    | some held =>
        cases held with
        | object members =>
            simp [Fields.get?_insert_of_ne members v hColumn]
        | _ => simp [hFound]
  · unfold within
    rw [get?_nest_of_ne hLabel]

/- The cell that nests a value under a column of a label. -/
theorem within_place
    {cell : String × Json}
    {w : Json}
    (hFlat : ∀ members, cell.2 ≠ .object members)
    (h : within (r.place envelope cell) label column = some w) :
    within envelope label column = some w ∨
      r.owner? cell.1 = some (label, column) := by
  have hInsert :
      ∀ name,
        within (Fields.insert envelope name cell.2) label column =
            some w →
          within envelope label column = some w := by
    intro name hWithin
    by_cases hSame : label = name
    · subst hSame
      unfold within at hWithin
      rw [Fields.get?_insert_self] at hWithin
      split at hWithin
      · next members hObject =>
          exact absurd (Option.some.inj hObject) (hFlat members)
      · cases hWithin
    · rwa [within_insert_of_ne hSame] at hWithin
  unfold place at h
  split at h
  · exact .inl (hInsert _ h)
  · next owner name hOwner =>
      by_cases hRoot : owner = r.table.name
      · simp only [hRoot, if_true] at h
        exact .inl (hInsert _ h)
      · simp only [hRoot, if_false] at h
        by_cases hSame : label = owner ∧ column = name
        · rcases hSame with ⟨rfl, rfl⟩
          exact .inr hOwner
        · rw [within_nest_of_ne hSame] at h
          exact .inl h

/- A value under a label comes from a cell that the label owns. -/
theorem exists_cell_of_within
    {row : Row}
    {w : Json}
    (hFlat : ∀ cell ∈ row, ∀ members, cell.2 ≠ .object members)
    (h : within (r.envelope row) label column = some w) :
    ∃ cell ∈ row, r.owner? cell.1 = some (label, column) := by
  have hFold :
      ∀ (cells : Row) (envelope : Fields Json),
        (∀ cell ∈ cells, ∀ members, cell.2 ≠ .object members) →
        within (cells.foldl r.place envelope) label column =
            some w →
        within envelope label column = some w ∨
          ∃ cell ∈ cells, r.owner? cell.1 = some (label, column) := by
    intro cells
    induction cells with
    | nil =>
        intro envelope _ hWithin
        exact .inl hWithin
    | cons cell rest ih =>
        intro envelope hFlat hWithin
        have hRest := ih _
          (fun c hc => hFlat c (List.mem_cons_of_mem _ hc)) hWithin
        rcases hRest with hPlaced | ⟨other, hOther, hOwner⟩
        · rcases within_place (hFlat cell List.mem_cons_self)
              hPlaced with hBefore | hOwner
          · exact .inl hBefore
          · exact .inr ⟨cell, List.mem_cons_self, hOwner⟩
        · exact .inr
            ⟨other, List.mem_cons_of_mem _ hOther, hOwner⟩
  rcases hFold row [] hFlat h with hNone | hCell
  · cases hNone
  · exact hCell

/- A column of a relation that is captured is not restored. -/
theorem not_captures_of_restores
    (hDistinct : columns.Nodup)
    (hCol : col ∈ columns)
    (hRelation : col.qualifier ≠ r.table.name)
    (h : r.Restores columns) :
    ¬ r.Captures col := by
  intro hCaptured
  -- Truth values are no objects: nothing but a cell that the
  -- label owns puts one under it.
  let row : Row :=
    columns.map fun col => (col.resultName, .bool true)
  have hRow : Row.Carries columns (fun _ => .bool true) row := by
    have hKeys : Fields.keys row = columns.map Sql.Column.resultName := by
      simp [row, Fields.keys]
    have hNodup : Fields.Distinct row := by
      unfold Fields.Distinct
      rw [hKeys]
      exact List.Nodup.map_on h.names hDistinct
    refine ⟨hNodup, ?_, ?_⟩
    · intro name hName
      rw [hKeys] at hName
      exact List.mem_map.mp hName
    · intro col hCol
      refine Fields.get?_eq_some_of_mem hNodup ?_
      exact List.mem_map.mpr ⟨col, hCol, rfl⟩
  have hNested :=
    (h.envelopes _ row hRow).nested col hCol hRelation
  have hFlat :
      ∀ cell ∈ row, ∀ members, cell.2 ≠ .object members := by
    intro cell hCell members hObject
    rcases List.mem_map.mp hCell with ⟨_, _, rfl⟩
    cases hObject
  rcases exists_cell_of_within hFlat hNested with
    ⟨cell, _, hOwner⟩
  have hName : cell.1 = col.resultName := (owner?_eq_some hOwner).2.1
  rw [hName] at hOwner
  exact owner?_ne_of_captures hCaptured hOwner

end Resource

------------------------------------------------------------
-- Resolved catalogs
------------------------------------------------------------

/-
  Over a resolved catalog a projection always selects columns,
  and they are restored exactly when nothing captures one.
-/
theorem Catalog.Resolved.restores_iff
    {c : Catalog}
    {r : Resource}
    (hResolved : c.Resolved)
    (hr : r ∈ c.resources)
    (p : Projection)
    {start : Sql.Query}
    (hStart : start.columns = []) :
    (p.apply c r start).error? = none ∧
      (r.Restores (p.apply c r start).query.columns ↔
        ∀ col ∈ (p.apply c r start).query.columns,
          ¬ r.Captures col) := by
  have hSound := hResolved.sound
  have hResource := hSound.resources r hr
  have hSelection := p.selection_apply (r := r) c hStart
  refine ⟨p.error?_apply hSound hr start, ?_⟩
  constructor
  · intro hRestores col hCol
    by_cases hRoot : col.qualifier = r.table.name
    · exact hResource.not_captures_root hRoot
    · exact Resource.not_captures_of_restores
        hSelection.distinct hCol hRoot hRestores
  · exact Resource.restores_of_not_captures hResource
      hSelection.offered

/- Ideas with their members are restored. -/
theorem Catalog.Resolved.restores_iff_sample :
    Resource.sample.Restores
      (Projection.byDefault.apply sample Resource.sample
        { root := Resource.sample.table }).query.columns := by
  have hSample :=
    restores_iff sample_resolved mem_sample .byDefault
      (show ({ root := Resource.sample.table } :
        Sql.Query).columns = [] from rfl)
  exact hSample.2.mpr (by decide)

/-
  A plan of a member, whose table begins with the label of the
  member: their plan's name is called `user_plan_name` in a
  row, as a name of the table itself would be.
-/
def Declaration.clashing : List Declaration :=
  [ { name := "users"
      table := "member"
      primaryKey := some "id"
      fields :=
        [ ("id", { type := .named "int", props := ["default"] })
        , ("plan_name",
            { type := .named "string", props := ["default"] }) ] }
  , { name := "subscriptions"
      table := "user_plan"
      primaryKey := some "id"
      fields :=
        [ ("id", { type := .named "int", props := ["default"] })
        , ("user_id", { type := .named "int" })
        , ("user",
            { type := .reference "users"
              props := ["default"]
              relation := some "belongs_to"
              mapping := some "user_id" }) ] } ]

/- The name of a plan is not put under the member. -/
theorem Catalog.exists_not_restored :
    ∃ c r,
      Declaration.resolve Declaration.clashing = .ok c ∧
        c.find? "subscriptions" = some r ∧
        (Projection.apply (.requested ["id", "user.plan_name"]) c r
            { root := r.table }).query.columns =
          [⟨"user_plan", "id"⟩, ⟨"user", "plan_name"⟩] ∧
        r.envelope
            [("user_plan_id", .number (.int 1)),
              ("user_plan_name", .string "gold")] =
          [("id", .number (.int 1)), ("name", .string "gold")] ∧
        ¬ r.Restores
          [⟨"user_plan", "id"⟩, ⟨"user", "plan_name"⟩] := by
  refine ⟨_, _, rfl, rfl, rfl, rfl, ?_⟩
  intro hRestores
  have hSelected :
      (⟨"user", "plan_name"⟩ : Sql.Column) ∈
        [⟨"user_plan", "id"⟩, ⟨"user", "plan_name"⟩] := by
    decide
  have hFree :=
    Resource.not_captures_of_restores (by decide) hSelected
      (by decide) hRestores
  exact hFree (by decide)

end RelationalRest
