import RelationalRest.Proofs.Catalog.Resolved
import RelationalRest.Proofs.Fields

/-
  The columns that the parts of a resource name: over a
  resolved catalog the primary key, the column that is kept on
  a conflict and the columns that hold related keys are all
  declared.  The column that marks deleted records is the only
  one that no check compares with the fields.  What can be
  filtered by is what the fields do not say otherwise of.

  Key definitions include:
    * `Resource.Grounded`
    * `Resource.OpenFilters`
    * `Catalog.Declares`
    * `Resource.Marks`

  Main declarations:
    * `ResourceDraft.grounded_of_check`
    * `Catalog.Resolved.exists_draft`
    * `Catalog.Resolved.grounded`
    * `Catalog.Resolved.nodup_filterable`
    * `Catalog.Resolved.openFilters`
-/

namespace RelationalRest

------------------------------------------------------------
-- Grounded resources
------------------------------------------------------------

/-
  The columns that a resource is known by are declared, and
  every declared column has a type.
-/
structure Resource.Grounded (r : Resource) : Prop where
  key : ∀ name, r.primaryKey = some name → name ∈ r.owns.keys
  keep : ∀ name, r.keepColumn = some name → name ∈ r.owns.keys
  mappings :
    ∀ entry ∈ r.belongsTo, entry.2.mapping ∈ r.owns.keys
  types : ∀ name ∈ r.owns.keys, name ∈ r.types.keys

/-
  The fields that can be filtered by are listed in the order
  of declaration: the columns and the relations to one record
  that do not say otherwise.
-/
structure Resource.OpenFilters (r : Resource) : Prop where
  declared : r.filterable.Sublist r.types.keys
  owns :
    ∀ name field, Fields.get? r.owns name = some field →
      (name ∈ r.filterable ↔ field.props.noFilter = false)
  belongsTo :
    ∀ label relation,
      Fields.get? r.belongsTo label = some relation →
        (label ∈ r.filterable ↔ relation.props.noFilter = false)

namespace ResourceDraft

/- A resource that passes the check is grounded. -/
theorem grounded_of_check
    {d : ResourceDraft}
    {r : Resource}
    (h : d.check = .ok r) :
    r.Grounded := by
  rcases check_eq_ok_iff.mp h with ⟨hFits, rfl⟩
  refine ⟨?_, ?_, ?_, ?_⟩
  · intro name hKey
    exact mem_keys_owns_iff.mpr (hFits.key name hKey)
  · intro name hKeep
    exact mem_keys_owns_iff.mpr (hFits.keep name hKeep)
  · intro entry hEntry
    exact mem_keys_owns_iff.mpr (hFits.declares_mapping hEntry)
  · intro name hName
    rcases mem_keys_owns_iff.mp hName with ⟨f, hField, _⟩
    have hType := (d.part_types.entries name f.type).mpr
      ⟨f, hField, rfl⟩
    exact List.mem_map_of_mem hType

/- A field can be filtered by unless it says that it cannot. -/
theorem mem_filterable_iff
    {d : ResourceDraft}
    {name : String}
    {f : FieldDraft}
    (hDistinct : d.fields.Distinct)
    (h : (name, f) ∈ d.fields) :
    name ∈ d.filterable ↔ f.props.noFilter = false := by
  rw [d.filterable_part.2]
  constructor
  · rintro ⟨other, hOther, hOpen⟩
    rw [hDistinct.eq_of_mem h hOther]
    exact hOpen
  · intro hOpen
    exact ⟨f, h, hOpen⟩

/- Which fields of a resource that passes the check are filterable. -/
theorem openFilters_of_check
    {d : ResourceDraft}
    {r : Resource}
    (hDistinct : d.fields.Distinct)
    (h : d.check = .ok r) :
    r.OpenFilters := by
  rcases check_eq_ok_iff.mp h with ⟨_, rfl⟩
  refine ⟨?_, ?_, ?_⟩
  · have hTypes :
        Fields.keys
            (d.fields.map fun entry => (entry.1, entry.2.type)) =
          d.fields.keys := by
      simp [Fields.keys, Function.comp_def]
    rw [hTypes]
    exact d.filterable_part.1
  · intro name column hColumn
    rcases (d.part_owns.entries name column).mp
        (Fields.mem_of_get?_eq_some hColumn) with ⟨f, hField, hIs⟩
    rw [hIs.props]
    exact mem_filterable_iff hDistinct hField
  · intro label relation hRelation
    rcases ((d.part_relations .belongsTo).entries label relation).mp
        (Fields.mem_of_get?_eq_some hRelation) with
      ⟨f, hField, tag, hIs, _⟩
    rw [hIs.props]
    exact mem_filterable_iff hDistinct hField

/- No field of a resource that passes the check is filterable twice. -/
theorem nodup_filterable_of_check
    {d : ResourceDraft}
    {r : Resource}
    (hDistinct : d.fields.Distinct)
    (h : d.check = .ok r) :
    r.filterable.Nodup := by
  rcases check_eq_ok_iff.mp h with ⟨_, rfl⟩
  exact d.filterable_part.1.nodup hDistinct

end ResourceDraft

namespace Catalog.Resolved

variable {c : Catalog}
variable {r : Resource}

/-
  Every resource of a resolved catalog is that of a draft with
  distinct fields that passes the check.
-/
theorem exists_draft
    (h : c.Resolved)
    (hr : r ∈ c.resources) :
    ∃ draft : ResourceDraft,
      draft.fields.Distinct ∧ draft.check = .ok r := by
  rcases h with ⟨declarations, resolved, hResolve, hSame⟩
  rw [hSame] at hr
  rcases Success.exists_of_mem_results
      (Declaration.resolve_eq_ok_iff.mp hResolve).1 hr with
    ⟨d, _, hResource⟩
  unfold Declaration.resource at hResource
  rcases Success.bind_eq_ok_iff.mp hResource with
    ⟨draft, hDraft, hCheck⟩
  refine ⟨draft, ?_, hCheck⟩
  unfold Fields.Distinct
  rw [Declaration.keys_draft hDraft]
  exact d.distinct

/- The resources of a resolved catalog are grounded. -/
theorem grounded
    (h : c.Resolved)
    (hr : r ∈ c.resources) :
    r.Grounded := by
  rcases h.exists_draft hr with ⟨draft, _, hCheck⟩
  exact ResourceDraft.grounded_of_check hCheck

/- No field of a resource in a resolved catalog is filterable twice. -/
theorem nodup_filterable
    (h : c.Resolved)
    (hr : r ∈ c.resources) :
    r.filterable.Nodup := by
  rcases h.exists_draft hr with ⟨draft, hDistinct, hCheck⟩
  exact ResourceDraft.nodup_filterable_of_check hDistinct hCheck

/- Which fields of a resource in a resolved catalog are filterable. -/
theorem openFilters
    (h : c.Resolved)
    (hr : r ∈ c.resources) :
    r.OpenFilters := by
  rcases h.exists_draft hr with ⟨draft, hDistinct, hCheck⟩
  exact ResourceDraft.openFilters_of_check hDistinct hCheck

end Catalog.Resolved

/- A label of a sound resource is no column. -/
theorem Resource.Sound.get?_owns_of_label
    {r : Resource}
    {label : String}
    (h : r.Sound)
    (hLabel : label ∈ r.relations.keys) :
    Fields.get? r.owns label = none := by
  rw [Fields.get?_eq_none_iff]
  intro hColumn
  have hApart := (List.nodup_append.mp h.distinct).2.2
  exact hApart label hColumn label hLabel rfl

/- The key of a grounded resource has a kind. -/
theorem Resource.Grounded.exists_keyKind
    {r : Resource}
    {key : String}
    (h : r.Grounded)
    (hKey : r.primaryKey = some key) :
    ∃ type, Fields.get? r.types key = some type := by
  have hMem := h.types key (h.key key hKey)
  exact Option.isSome_iff_exists.mp
    (Fields.contains_iff_mem_keys.mpr hMem)

------------------------------------------------------------
-- Declared columns
------------------------------------------------------------

/-
  A catalog declares a column for queries on a resource: it is
  a column of the table of the resource, or one of the
  resource that the label of a relation stands for.
-/
def Catalog.Declares
    (c : Catalog)
    (r : Resource)
    (col : Sql.Column) : Prop :=
  (col.qualifier = r.table.name ∧ col.name ∈ r.owns.keys) ∨
    ∃ relation related,
      Fields.get? r.belongsTo col.qualifier = some relation ∧
        c.find? relation.resource = some related ∧
        col.name ∈ related.owns.keys

/- A column marks the deleted records of a resource. -/
def Resource.Marks
    (r : Resource)
    (col : Sql.Column) : Prop :=
  ∃ mark, r.softDelete = some mark ∧ col = r.column mark.column

/- A column that a resource has is declared. -/
theorem Catalog.declares_column
    {c : Catalog}
    {r : Resource}
    {name : String}
    (h : name ∈ r.owns.keys) :
    c.Declares r (r.column name) :=
  .inl ⟨rfl, h⟩

end RelationalRest
