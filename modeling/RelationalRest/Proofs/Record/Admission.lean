import RelationalRest.Proofs.Fields
import RelationalRest.Record.Creation

/-
  Which records become rows to insert, and which row.

  Each column either admits a record or offends in one way,
  whatever the record has under other names.  A row is made
  when every column admits the record; otherwise the first
  column that offends decides why there is none.

  Key definitions include:
    * `Resource.supplied?`
    * `Resource.Admits`
    * `Resource.Offends`
    * `Resource.Assembles`

  Main declarations:
    * `Resource.admits_or_offends`
    * `Resource.insertCells_of_admits`
    * `Resource.insertCells_of_offends`
    * `Resource.insertCells_congr`
    * `Resource.insertRow_assembles`
-/

namespace RelationalRest

namespace Resource

------------------------------------------------------------
-- Columns and records
------------------------------------------------------------

/- What stands for a column: what is sent, or its initial value. -/
def supplied?
    (now : Timestamp)
    (record : Record)
    (column : String × OwnedField) : Option Json :=
  (Fields.get? record column.1).or
    (column.2.initial.map (Initial.produce now))

/- The entry of a column in a row. -/
def cell?
    (now : Timestamp)
    (record : Record)
    (column : String × OwnedField) :
    Option (String × Sql.Value) :=
  (supplied? now record column).map fun v =>
    (column.1, column.2.type.kind.ofJson v)

/- A column admits a record. -/
structure Admits
    (now : Timestamp)
    (record : Record)
    (column : String × OwnedField) : Prop where
  sent : column.2.props.required → column.1 ∈ Fields.keys record
  unsent : column.2.props.readOnly → column.1 ∉ Fields.keys record
  accepted :
    ∀ v, supplied? now record column = some v →
      column.2.type.kind.acceptsJson v = true

/-
  A column offends: the later causes are those of columns that
  do not offend in an earlier way.
-/
inductive Offends
    (now : Timestamp)
    (record : Record)
    (column : String × OwnedField) : RequestError → Prop where
| missing
    (hRequired : column.2.props.required)
    (hAbsent : column.1 ∉ Fields.keys record) :
    Offends now record column (.missingField column.1)
| readOnly
    (hReadOnly : column.2.props.readOnly)
    (hSent : column.1 ∈ Fields.keys record) :
    Offends now record column (.readOnlyField column.1)
| invalid
    {v : Json}
    (hSent :
      column.2.props.required → column.1 ∈ Fields.keys record)
    (hUnsent :
      column.2.props.readOnly → column.1 ∉ Fields.keys record)
    (hSupplied : supplied? now record column = some v)
    (hRefused : column.2.type.kind.acceptsJson v = false) :
    Offends now record column (.invalidValue v.plainText column.1)

variable {now : Timestamp}
variable {record record' : Record}
variable {column : String × OwnedField}
variable {owns : Fields OwnedField}
variable {e : RequestError}

/- A column without a value in the record has its initial value. -/
theorem supplied?_of_not_mem
    (h : column.1 ∉ Fields.keys record) :
    supplied? now record column =
      column.2.initial.map (Initial.produce now) := by
  rw [supplied?, Fields.get?_eq_none_iff.mpr h, Option.none_or]

/- What is sent stands for a column. -/
theorem supplied?_of_sent
    {v : Json}
    (h : Fields.get? record column.1 = some v) :
    supplied? now record column = some v := by
  rw [supplied?, h, Option.some_or]

/- A column has a value if it is sent or has an initial value. -/
theorem isSome_supplied?
    (now : Timestamp)
    (record : Record)
    (column : String × OwnedField) :
    (supplied? now record column).isSome ↔
      column.1 ∈ Fields.keys record ∨ column.2.initial.isSome := by
  rw [supplied?, Option.isSome_or, Bool.or_eq_true,
    Option.isSome_map, ← Fields.contains,
    Fields.contains_iff_mem_keys]

/- A column that does not admit a record offends. -/
theorem admits_or_offends
    (now : Timestamp)
    (record : Record)
    (column : String × OwnedField) :
    Admits now record column ∨
      ∃ e, Offends now record column e := by
  by_cases hSent :
      column.2.props.required → column.1 ∈ Fields.keys record
  · by_cases hUnsent :
        column.2.props.readOnly → column.1 ∉ Fields.keys record
    · by_cases hAccepted :
          ∀ v, supplied? now record column = some v →
            column.2.type.kind.acceptsJson v = true
      · exact .inl ⟨hSent, hUnsent, hAccepted⟩
      · push Not at hAccepted
        rcases hAccepted with ⟨v, hSupplied, hRefused⟩
        exact .inr ⟨_, .invalid hSent hUnsent hSupplied
          (Bool.not_eq_true _ ▸ hRefused)⟩
    · push Not at hUnsent
      exact .inr ⟨_, .readOnly hUnsent.1 hUnsent.2⟩
  · push Not at hSent
    exact .inr ⟨_, .missing hSent.1 hSent.2⟩

/- What a column admits depends on what a record has for it. -/
theorem Admits.congr
    (hAdmits : Admits now record column)
    (h :
      Fields.get? record' column.1 = Fields.get? record column.1) :
    Admits now record' column := by
  have hKeys :
      column.1 ∈ Fields.keys record' ↔
        column.1 ∈ Fields.keys record := by
    rw [← Fields.contains_iff_mem_keys,
      ← Fields.contains_iff_mem_keys, Fields.contains, h,
      ← Fields.contains]
  have hSupplied :
      supplied? now record' column = supplied? now record column := by
    rw [supplied?, h, ← supplied?]
  exact
    ⟨fun hRequired => hKeys.mpr (hAdmits.sent hRequired),
      fun hReadOnly hSent =>
        hAdmits.unsent hReadOnly (hKeys.mp hSent),
      hSupplied.symm ▸ hAdmits.accepted⟩

------------------------------------------------------------
-- Cells
------------------------------------------------------------

/-
  The cell of a column by its flags and by what is supplied
  for it.
-/
theorem insertCell_eq
    (now : Timestamp)
    (record : Record)
    (column : String × OwnedField) :
    insertCell now record column.1 column.2 =
      if column.2.props.required ∧
          column.1 ∉ Fields.keys record then
        .error (.missingField column.1)
      else if column.2.props.readOnly ∧
          column.1 ∈ Fields.keys record then
        .error (.readOnlyField column.1)
      else
        (supplied? now record column).elim (.ok none) fun v =>
          if column.2.type.kind.acceptsJson v then
            .ok (some (column.2.type.kind.ofJson v))
          else
            .error (.invalidValue v.plainText column.1) := by
  simp only [insertCell, supplied?, ← Fields.contains_iff_mem_keys,
    Fields.contains, Bool.not_eq_true, Option.isSome_eq_false_iff,
    Option.orElse_eq_orElse, Option.orElse_eq_or]
  cases (Fields.get? record column.1).or
      (column.2.initial.map (Initial.produce now)) with
  | none => rfl
  | some v => rfl

/- A column whose flags allow a record checks what is supplied. -/
theorem insertCell_of_allowed
    (hSent :
      column.2.props.required → column.1 ∈ Fields.keys record)
    (hUnsent :
      column.2.props.readOnly → column.1 ∉ Fields.keys record) :
    insertCell now record column.1 column.2 =
      (supplied? now record column).elim (.ok none) fun v =>
        if column.2.type.kind.acceptsJson v then
          .ok (some (column.2.type.kind.ofJson v))
        else
          .error (.invalidValue v.plainText column.1) := by
  rw [insertCell_eq,
    if_neg fun hMissing => hMissing.2 (hSent hMissing.1),
    if_neg fun hReadOnly => hUnsent hReadOnly.1 hReadOnly.2]

/- A column that admits a record has a cell for what is supplied. -/
theorem insertCell_of_admits
    (h : Admits now record column) :
    insertCell now record column.1 column.2 =
      .ok
        ((supplied? now record column).map
          column.2.type.kind.ofJson) := by
  rw [insertCell_of_allowed h.sent h.unsent]
  cases hSupplied : supplied? now record column with
  | none => rfl
  | some v => simp [h.accepted v hSupplied]

/- A column that offends has no cell. -/
theorem insertCell_of_offends
    (h : Offends now record column e) :
    insertCell now record column.1 column.2 = .error e := by
  cases h with
  | missing hRequired hAbsent =>
      rw [insertCell_eq]
      exact if_pos ⟨hRequired, hAbsent⟩
  | readOnly hReadOnly hSent =>
      rw [insertCell_eq, if_neg fun hMissing => hMissing.2 hSent]
      exact if_pos ⟨hReadOnly, hSent⟩
  | invalid hSent hUnsent hSupplied hRefused =>
      rw [insertCell_of_allowed hSent hUnsent, hSupplied]
      simp [hRefused]

/- A cell depends on what the record has for the column. -/
theorem insertCell_congr
    {name : String}
    (h : Fields.get? record' name = Fields.get? record name)
    (f : OwnedField) :
    insertCell now record' name f = insertCell now record name f := by
  unfold insertCell
  rw [h]

------------------------------------------------------------
-- Rows
------------------------------------------------------------

/- Columns that admit a record have a row of their cells. -/
theorem insertCells_of_admits
    (h : ∀ column ∈ owns, Admits now record column) :
    insertCells now record owns =
      .ok (owns.filterMap (cell? now record)) := by
  induction owns with
  | nil => rfl
  | cons column owns ih =>
      have hCell :=
        insertCell_of_admits (h column List.mem_cons_self)
      have hRest :=
        ih fun other hOther => h other (List.mem_cons_of_mem _ hOther)
      rw [insertCells, hCell, hRest, List.filterMap_cons, cell?]
      cases supplied? now record column with
      | none => rfl
      | some v => rfl

/- The first column that offends decides. -/
theorem insertCells_of_offends
    {earlier later : Fields OwnedField}
    (hEarlier : ∀ column ∈ earlier, Admits now record column)
    (h : Offends now record column e) :
    insertCells now record (earlier ++ column :: later) =
      .error e := by
  induction earlier with
  | nil =>
      rw [List.nil_append, insertCells, insertCell_of_offends h]
  | cons first earlier ih =>
      have hCell :=
        insertCell_of_admits (hEarlier first List.mem_cons_self)
      have hRest :=
        ih fun other hOther =>
          hEarlier other (List.mem_cons_of_mem _ hOther)
      rw [List.cons_append, insertCells, hCell, hRest]
      cases supplied? now record first with
      | none => rfl
      | some v => rfl

/- Unless all columns admit a record, one offends first. -/
theorem all_admit_or_first_offends
    (now : Timestamp)
    (record : Record)
    (owns : Fields OwnedField) :
    (∀ column ∈ owns, Admits now record column) ∨
      ∃ earlier column later e,
        owns = earlier ++ column :: later ∧
          (∀ other ∈ earlier, Admits now record other) ∧
          Offends now record column e := by
  induction owns with
  | nil => exact .inl (by simp)
  | cons first owns ih =>
      rcases admits_or_offends now record first with
        hFirst | ⟨e, hFirst⟩
      · rcases ih with
          hAll | ⟨earlier, column, later, e, rfl, hEarlier, h⟩
        · exact .inl (List.forall_mem_cons.mpr ⟨hFirst, hAll⟩)
        · exact .inr ⟨first :: earlier, column, later, e, rfl,
            List.forall_mem_cons.mpr ⟨hFirst, hEarlier⟩, h⟩
      · exact .inr ⟨[], first, owns, e, rfl, by simp, hFirst⟩

/- A row is made exactly when every column admits the record. -/
theorem insertCells_eq_ok_iff
    {values : Fields Sql.Value} :
    insertCells now record owns = .ok values ↔
      (∀ column ∈ owns, Admits now record column) ∧
        values = owns.filterMap (cell? now record) := by
  constructor
  · intro h
    rcases all_admit_or_first_offends now record owns with
      hAll | ⟨earlier, column, later, e, rfl, hEarlier, hOffends⟩
    · rw [insertCells_of_admits hAll] at h
      cases h
      exact ⟨hAll, rfl⟩
    · rw [insertCells_of_offends hEarlier hOffends] at h
      cases h
  · rintro ⟨hAll, rfl⟩
    exact insertCells_of_admits hAll

/- No row is made exactly for what the first offence is. -/
theorem insertCells_eq_error_iff :
    insertCells now record owns = .error e ↔
      ∃ earlier column later,
        owns = earlier ++ column :: later ∧
          (∀ other ∈ earlier, Admits now record other) ∧
          Offends now record column e := by
  constructor
  · intro h
    rcases all_admit_or_first_offends now record owns with
      hAll | ⟨earlier, column, later, e', rfl, hEarlier, hOffends⟩
    · rw [insertCells_of_admits hAll] at h
      cases h
    · rw [insertCells_of_offends hEarlier hOffends] at h
      cases h
      exact ⟨earlier, column, later, rfl, hEarlier, hOffends⟩
  · rintro ⟨earlier, column, later, rfl, hEarlier, hOffends⟩
    exact insertCells_of_offends hEarlier hOffends

/-
  A column may not be set exactly if it is the first to offend
  and the record that is assembled has it.
-/
theorem insertCells_eq_readOnly_iff
    {name : String} :
    insertCells now record owns = .error (.readOnlyField name) ↔
      ∃ earlier field later,
        owns = earlier ++ (name, field) :: later ∧
          (∀ other ∈ earlier, Admits now record other) ∧
          field.props.readOnly ∧ name ∈ Fields.keys record := by
  rw [insertCells_eq_error_iff]
  constructor
  · rintro ⟨earlier, ⟨_, field⟩, later, hOwns, hEarlier, hOffends⟩
    cases hOffends with
    | readOnly hReadOnly hSent =>
        exact ⟨earlier, field, later, hOwns, hEarlier, hReadOnly,
          hSent⟩
  · rintro ⟨earlier, field, later, hOwns, hEarlier, hReadOnly,
      hSent⟩
    exact ⟨earlier, (name, field), later, hOwns, hEarlier,
      .readOnly hReadOnly hSent⟩

/- A row depends on what the record has for the columns. -/
theorem insertCells_congr
    (h :
      ∀ name ∈ owns.keys,
        Fields.get? record' name = Fields.get? record name) :
    insertCells now record' owns = insertCells now record owns := by
  induction owns with
  | nil => rfl
  | cons column owns ih =>
      have hRest :=
        ih fun name hName => h name (List.mem_cons_of_mem _ hName)
      rw [insertCells, insertCells, hRest,
        insertCell_congr (h column.1 List.mem_cons_self)]

/- A row names the columns that something stands for. -/
theorem keys_filterMap_cell?
    (now : Timestamp)
    (record : Record)
    (owns : Fields OwnedField) :
    Fields.keys (owns.filterMap (cell? now record)) =
      Fields.keys
        (owns.filter fun column =>
          column.1 ∈ Fields.keys record ∨
            column.2.initial.isSome) := by
  simp only [← isSome_supplied? now]
  induction owns with
  | nil => rfl
  | cons column owns ih =>
      cases hSupplied : supplied? now record column with
      | none =>
          simpa [Fields.keys, cell?, hSupplied] using ih
      | some v =>
          simpa [Fields.keys, cell?, hSupplied] using ih

/- A row has for a column what the column makes of its value. -/
theorem get?_filterMap_cell?
    (hDistinct : owns.Distinct)
    (hColumn : column ∈ owns) :
    Fields.get? (owns.filterMap (cell? now record)) column.1 =
      (supplied? now record column).map
        column.2.type.kind.ofJson := by
  have hCells :
      Fields.Distinct (owns.filterMap (cell? now record)) := by
    rw [Fields.Distinct, keys_filterMap_cell?]
    exact (List.filter_sublist.map Prod.fst).nodup hDistinct
  refine Option.ext fun v => ?_
  rw [Fields.get?_eq_some_iff hCells, List.mem_filterMap]
  constructor
  · rintro ⟨other, hOther, hCell⟩
    rcases Option.map_eq_some_iff.mp hCell with
      ⟨w, hSupplied, hEntry⟩
    obtain ⟨hName, hValue⟩ := Prod.mk.inj hEntry
    have hSame : other = column :=
      List.inj_on_of_nodup_map hDistinct hOther hColumn hName
    subst hSame
    exact Option.map_eq_some_iff.mpr ⟨w, hSupplied, hValue⟩
  · intro h
    rcases Option.map_eq_some_iff.mp h with ⟨w, hSupplied, rfl⟩
    exact ⟨column, hColumn, by rw [cell?, hSupplied]; rfl⟩

------------------------------------------------------------
-- What rows are made of
------------------------------------------------------------

/-
  A resource assembles the row of a record: when it does, what
  is in the row, why it does not, and what of the record that
  depends on.
-/
structure Assembles
    (r : Resource)
    (now : Timestamp)
    (record : Record) : Prop where
  accepts :
    (∃ values, r.insertRow now record = .ok values) ↔
      ∀ column ∈ r.owns, Admits now record column
  cells :
    ∀ values, r.insertRow now record = .ok values →
      values = r.owns.filterMap (cell? now record)
  names :
    ∀ values, r.insertRow now record = .ok values →
      Fields.keys values =
        Fields.keys
          (r.owns.filter fun column =>
            column.1 ∈ Fields.keys record ∨
              column.2.initial.isSome)
  initials :
    ∀ values, r.insertRow now record = .ok values →
      ∀ column ∈ r.owns, column.2.props.readOnly →
        cell? now record column =
          column.2.initial.map fun i =>
            (column.1, column.2.type.kind.ofJson (i.produce now))
  refuses :
    ∀ e, r.insertRow now record = .error e ↔
      ∃ earlier column later,
        r.owns = earlier ++ column :: later ∧
          (∀ other ∈ earlier, Admits now record other) ∧
          Offends now record column e
  reads :
    ∀ record' : Record,
      (∀ name ∈ r.owns.keys,
        Fields.get? record' name = Fields.get? record name) →
        r.insertRow now record' = r.insertRow now record

/-
  Every resource assembles rows so, whatever its columns are
  and whatever a record holds.
-/
theorem insertRow_assembles
    (r : Resource)
    (now : Timestamp)
    (record : Record) :
    r.Assembles now record where
  accepts := by
    simp [insertRow, insertCells_eq_ok_iff]
  cells := fun values h => (insertCells_eq_ok_iff.mp h).2
  names := fun values h => by
    rw [(insertCells_eq_ok_iff.mp h).2, keys_filterMap_cell?]
  initials := fun values h column hColumn hReadOnly => by
    have hAdmits := (insertCells_eq_ok_iff.mp h).1 column hColumn
    rw [cell?, supplied?_of_not_mem (hAdmits.unsent hReadOnly),
      Option.map_map]
    rfl
  refuses := fun e => insertCells_eq_error_iff
  reads := fun record' h => insertCells_congr h

end Resource

end RelationalRest
