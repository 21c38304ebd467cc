import RelationalRest.Proofs.Record.Placement

/-
  Columns of the table in envelopes.  What is found at a name
  of an envelope depends only on the cells whose spots lie
  there.  No label is longer than the table and begins with
  it, so the cell of a column goes to the top; and no label is
  a column, so no other cell goes to the name of the column.

  Key definitions include:
    * `Resource.Aliases`

  Main declarations:
    * `Resource.get?_envelope`
    * `Resource.Sound.name_spot_iff`
    * `ResourceDraft.columns_hoisted`
-/

namespace RelationalRest

namespace Resource

variable {r : Resource}
variable {row : Row}
variable {cell name label column : String}

------------------------------------------------------------
-- Cells of one name
------------------------------------------------------------

/- The cells of a row whose spots lie at a name. -/
def cellsAt
    (r : Resource)
    (row : Row)
    (name : String) : Row :=
  row.filter fun cell => (r.spot cell.1).name = name

/- What is found at a name is settled by its cells in order. -/
theorem get?_foldl_place
    (r : Resource)
    (row : Row)
    (e : Fields Json)
    (name : String) :
    Fields.get? (row.foldl r.place e) name =
      (r.cellsAt row name).foldl
        (fun held cell => some ((r.spot cell.1).settle cell.2 held))
        (Fields.get? e name) := by
  unfold cellsAt
  induction row generalizing e with
  | nil => rfl
  | cons cell row ih =>
      obtain ⟨cell, v⟩ := cell
      rw [List.foldl_cons, ih, get?_place]
      by_cases hName : (r.spot cell).name = name
      · simp [hName]
      · simp [hName, Ne.symm hName]

/- What an envelope has at a name is settled by the cells there. -/
theorem get?_envelope
    (r : Resource)
    (row : Row)
    (name : String) :
    Fields.get? (r.envelope row) name =
      (r.cellsAt row name).foldl
        (fun held cell => some ((r.spot cell.1).settle cell.2 held))
        none :=
  get?_foldl_place r row [] name

/- A cell that lies elsewhere is not one of the cells at a name. -/
theorem cellsAt_erase
    (h : (r.spot cell).name ≠ name) :
    r.cellsAt (Fields.erase row cell) name =
      r.cellsAt row name := by
  let keeps (cell : String) : Bool := (r.spot cell).name = name
  have hKeeps : keeps cell = false := by
    simpa [keeps] using h
  exact Fields.filter_erase row hKeeps

------------------------------------------------------------
-- Cells of columns
------------------------------------------------------------

/-
  A cell is named by a column of the table, or by a relation
  and any column.
-/
def Aliases
    (r : Resource)
    (cell : String) : Prop :=
  (∃ name ∈ r.owns.keys, cell = r.table.name ++ "_" ++ name) ∨
    ∃ label ∈ r.relations.keys, ∃ column,
      cell = label ++ "_" ++ column

instance (r : Resource) (cell : String) :
    Decidable (r.Aliases cell) :=
  decidable_of_iff
    ((∃ name ∈ r.owns.keys, cell = r.table.name ++ "_" ++ name) ∨
      ∃ label ∈ r.relations.keys,
        (Text.after? (label ++ "_") cell).isSome = true)
    (by
      simp only [Aliases, Option.isSome_iff_exists,
        Text.after?_eq_some_iff])

/- A cell that is named by a column or a relation has a spot. -/
theorem Aliases.cell_spot
    (h : r.Aliases cell) :
    (r.spot cell).cell r = cell := by
  rcases h with ⟨name, _, hCell⟩ | ⟨label, hLabel, column, hCell⟩
  · exact Resource.cell_spot List.mem_cons_self hCell
  · exact
      Resource.cell_spot (List.mem_cons_of_mem _ hLabel) hCell

/- Only labels of relations have columns under them. -/
theorem mem_relations_of_spot
    (h : r.spot cell = .under label column) :
    label ∈ r.relations.keys := by
  unfold spot at h
  split at h
  · cases h
  · next owner rest hOwner =>
      split at h
      · cases h
      · next hTable =>
          cases h
          exact (List.mem_cons.mp (owner?_eq_some hOwner).1).resolve_left
            hTable

namespace Sound

/- The cell of a column of the table goes to the top. -/
theorem spot_column
    (h : r.Sound)
    (name : String) :
    r.spot (r.table.name ++ "_" ++ name) = .top name := by
  have hSpot :
      r.spot (r.column name).resultName =
        if (r.column name).qualifier = r.table.name then .top name
        else .under (r.column name).qualifier name :=
    spot_resultName List.mem_cons_self (h.not_captures_root rfl)
  simpa [Resource.column, Sql.Column.resultName] using hSpot

/- No other cell goes to the name of a column. -/
theorem name_spot_iff
    (h : r.Sound)
    (hCell : r.Aliases cell)
    (hName : name ∈ r.owns.keys) :
    (r.spot cell).name = name ↔
      cell = r.table.name ++ "_" ++ name := by
  constructor
  · intro hSpot
    rw [← hCell.cell_spot]
    cases hs : r.spot cell with
    | top other =>
        rw [hs] at hSpot
        rw [← show other = name from hSpot]
        rfl
    | under label column =>
        rw [hs] at hSpot
        have hLabel := mem_relations_of_spot hs
        have hApart := (List.nodup_append.mp h.distinct).2.2
        exact absurd hSpot.symm (hApart name hName label hLabel)
  · rintro rfl
    rw [h.spot_column]
    rfl

/- The cells at the name of a column are those of the column. -/
theorem cellsAt_column
    (h : r.Sound)
    (hRow : ∀ cell ∈ Fields.keys row, r.Aliases cell)
    (hName : name ∈ r.owns.keys) :
    r.cellsAt row name =
      row.filter fun cell =>
        cell.1 = r.table.name ++ "_" ++ name := by
  refine List.filter_congr fun cell hCell => ?_
  have hAlias := hRow cell.1 (List.mem_map.mpr ⟨cell, hCell, rfl⟩)
  simp [h.name_spot_iff hAlias hName]

end Sound

end Resource

------------------------------------------------------------
-- A plan of a member
------------------------------------------------------------

/-
  A plan of a member, whose table begins with the label of the
  member and a low line.
-/
def ResourceDraft.plan : ResourceDraft where
  name := "subscriptions"
  table := { name := "user_plan" }
  pathSegment := "subscriptions"
  primaryKey := some "id"
  softDelete := none
  ownership := none
  keepColumn := none
  hidden := []
  fields :=
    [ ("id",
        { type := .value .integer
          props := {}
          initial := none
          relation := none })
    , ("user_id",
        { type := .value .integer
          props := {}
          initial := none
          relation := none })
    , ("user",
        { type := .reference "users"
          props := {}
          initial := none
          relation :=
            some
              { kind := .belongsTo
                mapping := "user_id"
                limit := none
                sortBy := none } }) ]

/- The resource of plans. -/
def Resource.plan : Resource :=
  ResourceDraft.plan.check.toOption.get rfl

/- A plan with its member, whose key is also a column of the plan. -/
def Row.plan : Row :=
  [ ("user_id", .number (.int 7))
  , ("user_plan_id", .number (.int 1))
  , ("user_plan_user_id", .number (.int 7)) ]

------------------------------------------------------------
-- Accepted drafts
------------------------------------------------------------

/-
  Where a draft is accepted, an envelope has at the name of a
  column exactly what the row has in the cell of that column,
  and without this cell nothing else in the envelope changes.
-/
theorem ResourceDraft.columns_hoisted
    {d : ResourceDraft}
    {r : Resource}
    {row : Row}
    {name : String}
    (hFields : d.fields.Distinct)
    (hCheck : d.check = .ok r)
    (hDistinct : Fields.Distinct row)
    (hRow : ∀ cell ∈ Fields.keys row, r.Aliases cell)
    (hName : name ∈ r.owns.keys) :
    Fields.get? (r.envelope row) name =
        Fields.get? row (r.table.name ++ "_" ++ name) ∧
      ∀ other, other ≠ name →
        Fields.get?
            (r.envelope
              (Fields.erase row (r.table.name ++ "_" ++ name)))
            other =
          Fields.get? (r.envelope row) other := by
  have hSound := sound_of_check hFields hCheck
  refine ⟨?_, ?_⟩
  · rw [Resource.get?_envelope, hSound.cellsAt_column hRow hName,
      Fields.filter_eq_toList hDistinct]
    cases Fields.get? row (r.table.name ++ "_" ++ name) with
    | none => rfl
    | some v =>
        simp [hSound.spot_column, Resource.Spot.settle]
  · intro other hOther
    have hElsewhere :
        (r.spot (r.table.name ++ "_" ++ name)).name ≠ other := by
      rw [hSound.spot_column]
      exact hOther.symm
    rw [Resource.get?_envelope, Resource.get?_envelope,
      Resource.cellsAt_erase hElsewhere]

/- The key of a plan is not taken for one of its member. -/
theorem ResourceDraft.columns_hoisted_sample :
    plan.fields.Distinct ∧ plan.check = .ok Resource.plan ∧
      Fields.Distinct Row.plan ∧
      (∀ cell ∈ Fields.keys Row.plan, Resource.plan.Aliases cell) ∧
      "id" ∈ Resource.plan.owns.keys ∧
      Fields.get? (Resource.plan.envelope Row.plan) "id" =
        some (.number (.int 1)) := by
  have hFields : plan.fields.Distinct := by decide
  have hDistinct : Fields.Distinct Row.plan := by decide
  have hRow :
      ∀ cell ∈ Fields.keys Row.plan,
        Resource.plan.Aliases cell := by
    decide
  have hName : "id" ∈ Resource.plan.owns.keys := by decide
  exact ⟨hFields, rfl, hDistinct, hRow, hName,
    (columns_hoisted hFields rfl hDistinct hRow hName).1⟩

end RelationalRest
