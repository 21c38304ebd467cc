import RelationalRest.Proofs.Fields
import RelationalRest.Resource.Draft

/-
  What the check of a draft asks, said of the declared fields
  alone, and where it puts them: a draft passes exactly if its
  parts fit each other, and each of its fields then lies in
  one bucket, that of its relation tag, with all its data.

  Key definitions include:
    * `ResourceDraft.Fits`
    * `ResourceDraft.Part`
    * `Resource.bucket`
    * `ResourceDraft.Sorts`

  Main declarations:
    * `ResourceDraft.error?_eq_none_iff`
    * `ResourceDraft.check_eq_ok_iff`
    * `ResourceDraft.sorts_of_check`
    * `ResourceDraft.Sorts.nodup_keys`
    * `ResourceDraft.check_sorts`
-/

namespace RelationalRest

------------------------------------------------------------
-- Fields as columns and as relations
------------------------------------------------------------

/- The target of a type is the resource that it refers to. -/
theorem FieldType.target?_eq_some_iff
    {type : FieldType}
    {resource : String} :
    type.target? = some resource ↔ type = .reference resource := by
  cases type <;> simp [target?]

namespace FieldDraft

variable {f : FieldDraft}

/- A field is declared as this column. -/
structure IsColumn
    (f : FieldDraft)
    (column : OwnedField) : Prop where
  untagged : f.relation = none
  type : column.type = f.type
  props : column.props = f.props
  initial : column.initial = f.initial

/- A field is declared as this relation, by this tag. -/
structure IsRelation
    (f : FieldDraft)
    (tag : RelationTag)
    (relation : Relation) : Prop where
  tagged : f.relation = some tag
  resource : f.type = .reference relation.resource
  props : relation.props = f.props
  mapping : relation.mapping = tag.mapping
  limit : relation.limit = tag.limit
  sortBy : relation.sortBy = tag.sortBy

/- The column that a field is kept as is the declared one. -/
theorem owned?_eq_some_iff
    {column : OwnedField} :
    f.owned? = some column ↔ f.IsColumn column := by
  unfold owned?
  split
  · next hNone =>
      rw [Option.some.injEq]
      constructor
      · rintro rfl
        exact ⟨hNone, rfl, rfl, rfl⟩
      · rintro ⟨-, hType, hProps, hInitial⟩
        rw [← hType, ← hProps, ← hInitial]
  · next tag hTag =>
      constructor
      · intro h
        cases h
      · intro h
        rw [h.untagged] at hTag
        cases hTag

/- The relation that a field is kept as is the declared one. -/
theorem relation?_eq_some_iff
    {kind : RelationKind}
    {relation : Relation} :
    f.relation? kind = some relation ↔
      ∃ tag, f.IsRelation tag relation ∧ tag.kind = kind := by
  unfold relation?
  constructor
  · intro h
    split at h
    · next tag resource hTag hTarget =>
        split at h
        · next hKind =>
            cases h
            have hType := FieldType.target?_eq_some_iff.mp hTarget
            exact ⟨tag, ⟨hTag, hType, rfl, rfl, rfl, rfl⟩, hKind⟩
        · cases h
    · cases h
  · rintro
      ⟨tag, ⟨hTag, hType, hProps, hMapping, hLimit, hSort⟩, hKind⟩
    rw [hTag, FieldType.target?_eq_some_iff.mpr hType]
    simp only [if_pos hKind, ← hProps, ← hMapping, ← hLimit, ← hSort]

/- A field without a tag is a column. -/
theorem exists_isColumn_iff :
    (∃ column, f.IsColumn column) ↔ f.relation = none := by
  constructor
  · rintro ⟨column, h⟩
    exact h.untagged
  · intro h
    exact ⟨⟨f.type, f.props, f.initial⟩, h, rfl, rfl, rfl⟩

end FieldDraft

/-
  The names in one of the buckets into which fields are put:
  the columns, or the relations of a kind.
-/
def Resource.bucket
    (r : Resource) : Option RelationKind → List String
| none => r.owns.keys
| some .belongsTo => r.belongsTo.keys
| some .hasMany => r.hasMany.keys

------------------------------------------------------------
-- Drafts that fit
------------------------------------------------------------

namespace ResourceDraft

variable {d : ResourceDraft}

/- A draft declares a column: a field without a relation tag. -/
def DeclaresColumn
    (d : ResourceDraft)
    (name : String) : Prop :=
  ∃ f, (name, f) ∈ d.fields ∧ f.relation = none

/- A draft declares a relation: a field with this tag. -/
def DeclaresRelation
    (d : ResourceDraft)
    (label : String)
    (tag : RelationTag) : Prop :=
  ∃ f, (label, f) ∈ d.fields ∧ f.relation = some tag

/- The fields with a relation tag have resource types. -/
def TargetsGiven (d : ResourceDraft) : Prop :=
  ∀ label f, (label, f) ∈ d.fields → f.relation ≠ none →
    ∃ resource, f.type = .reference resource

/-
  The parts of a draft fit each other: relations lead to
  resources, every column that is named elsewhere is declared,
  and no label captures the columns of the table.
-/
structure Fits (d : ResourceDraft) : Prop where
  targets : d.TargetsGiven
  key : ∀ name, d.primaryKey = some name → d.DeclaresColumn name
  owner :
    ∀ o, d.ownership = some o → d.DeclaresColumn o.column
  keep : ∀ name, d.keepColumn = some name → d.DeclaresColumn name
  mappings :
    ∀ label tag, d.DeclaresRelation label tag →
      tag.kind = .belongsTo → d.DeclaresColumn tag.mapping
  labels :
    ∀ label tag, d.DeclaresRelation label tag →
      label ≠ d.table.name ∧
        ∀ rest, label ≠ d.table.name ++ "_" ++ rest

/- Picked fields keep their order. -/
theorem keys_pick_sublist
    {β : Type}
    (d : ResourceDraft)
    (f : FieldDraft → Option β) :
    (d.pick f).keys.Sublist d.fields.keys := by
  unfold pick
  generalize d.fields = fields
  induction fields with
  | nil => exact List.Sublist.slnil
  | cons entry rest ih =>
      obtain ⟨label, field⟩ := entry
      cases hField : f field with
      | none => simpa [Fields.keys, hField] using ih.cons label
      | some b =>
          simpa [Fields.keys, hField] using ih.cons_cons label

/- What is picked is what the function keeps of a field. -/
theorem mem_pick_iff
    {β : Type}
    {f : FieldDraft → Option β}
    {label : String}
    {b : β} :
    (label, b) ∈ d.pick f ↔
      ∃ field, (label, field) ∈ d.fields ∧ f field = some b := by
  simp only [pick, List.mem_filterMap, Option.map_eq_some_iff,
    Prod.mk.injEq, Prod.exists]
  constructor
  · rintro ⟨label', field, hField, b', hKept, rfl, rfl⟩
    exact ⟨field, hField, hKept⟩
  · rintro ⟨field, hField, hKept⟩
    exact ⟨label, field, hField, b, hKept, rfl, rfl⟩

/- The columns that are kept are the declared ones. -/
theorem mem_keys_owns_iff
    {name : String} :
    name ∈ d.owns.keys ↔ d.DeclaresColumn name := by
  constructor
  · intro h
    rcases List.mem_map.mp h with ⟨⟨label, column⟩, hColumn, hLabel⟩
    cases hLabel
    rcases mem_pick_iff.mp hColumn with ⟨f, hField, hKept⟩
    have hIs := FieldDraft.owned?_eq_some_iff.mp hKept
    exact ⟨f, hField, hIs.untagged⟩
  · rintro ⟨f, hField, hNone⟩
    rcases FieldDraft.exists_isColumn_iff.mpr hNone with
      ⟨column, hIs⟩
    have hColumn := FieldDraft.owned?_eq_some_iff.mpr hIs
    exact List.mem_map.mpr
      ⟨(name, column), mem_pick_iff.mpr ⟨f, hField, hColumn⟩, rfl⟩

/- The relations that are kept are declared. -/
theorem exists_tag_of_mem_relations
    {kind : RelationKind}
    {label : String}
    {relation : Relation}
    (h : (label, relation) ∈ d.relations kind) :
    ∃ tag,
      d.DeclaresRelation label tag ∧ tag.kind = kind ∧
        relation.mapping = tag.mapping := by
  rcases mem_pick_iff.mp h with ⟨f, hField, hKept⟩
  rcases FieldDraft.relation?_eq_some_iff.mp hKept with
    ⟨tag, hIs, hKind⟩
  exact ⟨tag, ⟨f, hField, hIs.tagged⟩, hKind, hIs.mapping⟩

/- A tagged field is a relation if all of them lead somewhere. -/
theorem TargetsGiven.exists_isRelation
    (h : d.TargetsGiven)
    {label : String}
    {f : FieldDraft}
    {tag : RelationTag}
    (hField : (label, f) ∈ d.fields)
    (hTag : f.relation = some tag) :
    ∃ relation, f.IsRelation tag relation := by
  have hTagged : f.relation ≠ none := by
    rw [hTag]
    exact Option.some_ne_none tag
  rcases h label f hField hTagged with ⟨resource, hType⟩
  exact
    ⟨⟨resource, f.props, tag.mapping, tag.limit, tag.sortBy⟩,
      hTag, hType, rfl, rfl, rfl, rfl⟩

/- A declared relation is kept if it leads to a resource. -/
theorem exists_mem_relations
    (hTargets : d.TargetsGiven)
    {label : String}
    {tag : RelationTag}
    (h : d.DeclaresRelation label tag) :
    ∃ relation,
      (label, relation) ∈ d.relations tag.kind ∧
        relation.mapping = tag.mapping := by
  rcases h with ⟨f, hField, hTag⟩
  rcases hTargets.exists_isRelation hField hTag with ⟨relation, hIs⟩
  have hKept :=
    FieldDraft.relation?_eq_some_iff.mpr ⟨tag, hIs, rfl⟩
  exact ⟨relation, mem_pick_iff.mpr ⟨f, hField, hKept⟩, hIs.mapping⟩

------------------------------------------------------------
-- The checks, one by one
------------------------------------------------------------

/- No relation leads nowhere if all have resource types. -/
theorem relationTypeError?_eq_none_iff :
    d.relationTypeError? = none ↔ d.TargetsGiven := by
  have hField :
      ∀ f : FieldDraft,
        f.leadsNowhere = true ↔
          ¬ (f.relation ≠ none →
            ∃ resource, f.type = .reference resource) := by
    intro f
    have hTarget :
        f.type.target? = none ↔
          ¬ ∃ resource, f.type = .reference resource := by
      cases f.type <;> simp [FieldType.target?]
    simp [FieldDraft.leadsNowhere, Option.isSome_iff_ne_none,
      hTarget]
  simp only [relationTypeError?, List.findSome?_eq_none_iff,
    Prod.forall, ite_eq_right_iff, reduceCtorEq, imp_false, hField,
    not_not, TargetsGiven]

/- The primary key is missing unless it is a declared column. -/
theorem primaryKeyError?_eq_none_iff :
    d.primaryKeyError? = none ↔
      ∀ name, d.primaryKey = some name → d.DeclaresColumn name := by
  simp only [primaryKeyError?, Option.bind_eq_none_iff,
    ite_eq_left_iff, reduceCtorEq, imp_false, not_not,
    Fields.contains_iff_mem_keys, mem_keys_owns_iff]

/- No named column is missing if all of them are declared. -/
theorem namedColumnError?_eq_none_iff :
    d.namedColumnError? = none ↔
      ∀ name ∈ d.namedColumns, d.DeclaresColumn name := by
  simp only [namedColumnError?, List.findSome?_eq_none_iff,
    ite_eq_left_iff, reduceCtorEq, imp_false, not_not,
    Fields.contains_iff_mem_keys, mem_keys_owns_iff]

/- The columns that other parts name. -/
theorem mem_namedColumns_iff
    {name : String} :
    name ∈ d.namedColumns ↔
      (∃ o, d.ownership = some o ∧ o.column = name) ∨
        d.keepColumn = some name ∨
        ∃ entry ∈ d.relations .belongsTo,
          entry.2.mapping = name := by
  simp only [namedColumns, Fields.values, List.map_map,
    List.mem_append, Option.mem_toList, Option.map_eq_some_iff,
    List.mem_map, Function.comp_apply, or_assoc]

/- A label captures no column of a table. -/
theorem clashes_eq_false_iff
    {label table : String} :
    clashes label table = false ↔
      label ≠ table ∧ ∀ rest, label ≠ table ++ "_" ++ rest := by
  have hNot :
      clashes label table = true ↔
        label = table ∨ ∃ rest, label = table ++ "_" ++ rest := by
    simp only [clashes, Bool.or_eq_true, decide_eq_true_eq,
      Option.isSome_iff_exists, Text.after?_eq_some_iff]
  rw [← Bool.not_eq_true, hNot, not_or, not_exists]

/- No label clashes if none captures a column of the table. -/
theorem labelError?_eq_none_iff :
    d.labelError? = none ↔
      ∀ kind, ∀ label ∈ (d.relations kind).keys,
        clashes label d.table.name = false := by
  simp only [labelError?, List.findSome?_eq_none_iff,
    ite_eq_right_iff, reduceCtorEq, imp_false, List.mem_append,
    Bool.not_eq_true, or_imp, forall_and]
  constructor
  · rintro ⟨hOne, hMany⟩ kind label hLabel
    cases kind with
    | belongsTo => exact hOne label hLabel
    | hasMany => exact hMany label hLabel
  · intro h
    exact ⟨h .belongsTo, h .hasMany⟩

/- The columns that hold related keys are declared. -/
theorem Fits.declares_mapping
    (h : d.Fits)
    {entry : String × Relation}
    (hEntry : entry ∈ d.relations .belongsTo) :
    d.DeclaresColumn entry.2.mapping := by
  rcases exists_tag_of_mem_relations hEntry with
    ⟨tag, hTag, hKind, hMapping⟩
  rw [hMapping]
  exact h.mappings entry.1 tag hTag hKind

/- No relation that is kept captures a column of the table. -/
theorem Fits.clashes_eq_false
    (h : d.Fits)
    {kind : RelationKind}
    {label : String}
    (hLabel : label ∈ (d.relations kind).keys) :
    clashes label d.table.name = false := by
  rcases List.mem_map.mp hLabel with ⟨entry, hEntry, rfl⟩
  rcases exists_tag_of_mem_relations hEntry with ⟨tag, hTag, _⟩
  exact clashes_eq_false_iff.mpr (h.labels entry.1 tag hTag)

/- Nothing is wrong with a draft exactly if its parts fit. -/
theorem error?_eq_none_iff :
    d.error? = none ↔ d.Fits := by
  simp only [error?, Option.orElse_eq_orElse, Option.orElse_eq_or,
    Option.or_eq_none_iff, relationTypeError?_eq_none_iff,
    primaryKeyError?_eq_none_iff, namedColumnError?_eq_none_iff,
    labelError?_eq_none_iff]
  constructor
  · rintro ⟨hTargets, hKey, hNamed, hLabels⟩
    refine ⟨hTargets, hKey, ?_, ?_, ?_, ?_⟩
    · intro o hOwner
      exact hNamed _ (mem_namedColumns_iff.mpr (.inl ⟨o, hOwner, rfl⟩))
    · intro name hKeep
      exact hNamed _ (mem_namedColumns_iff.mpr (.inr (.inl hKeep)))
    · intro label tag hTag hKind
      rcases exists_mem_relations hTargets hTag with
        ⟨relation, hKept, hMapping⟩
      rw [hKind] at hKept
      refine hNamed _ (mem_namedColumns_iff.mpr (.inr (.inr ?_)))
      exact ⟨(label, relation), hKept, hMapping⟩
    · intro label tag hTag
      rcases exists_mem_relations hTargets hTag with
        ⟨relation, hKept, _⟩
      exact clashes_eq_false_iff.mp
        (hLabels tag.kind label (List.mem_map_of_mem hKept))
  · intro h
    refine ⟨h.targets, h.key, ?_, ?_⟩
    · intro name hName
      rcases mem_namedColumns_iff.mp hName with
        ⟨o, hOwner, rfl⟩ | hKeep | ⟨entry, hEntry, rfl⟩
      · exact h.owner o hOwner
      · exact h.keep name hKeep
      · exact h.declares_mapping hEntry
    · intro kind label hLabel
      exact h.clashes_eq_false hLabel

/- A draft passes the check exactly as the resource of its parts. -/
theorem check_eq_ok_iff
    {r : Resource} :
    d.check = .ok r ↔
      d.Fits ∧
        r =
          { name := d.name
            table := d.table
            pathSegment := d.pathSegment
            primaryKey := d.primaryKey
            softDelete := d.softDelete
            ownership := d.ownership
            keepColumn := d.keepColumn
            hidden := d.hidden
            types := d.fields.map fun (label, f) => (label, f.type)
            owns := d.owns
            belongsTo := d.relations .belongsTo
            hasMany := d.relations .hasMany
            filterable := d.filterable } := by
  rw [← error?_eq_none_iff]
  unfold check
  cases d.error? with
  | some e => simp
  | none => simp [eq_comm]

------------------------------------------------------------
-- Where fields are put
------------------------------------------------------------

/-
  A part of the declared fields, in their order: those that
  stand for something, each with what it stands for.
-/
structure Part
    {β : Type}
    (d : ResourceDraft)
    (stands : FieldDraft → β → Prop)
    (m : Fields β) : Prop where
  order : m.keys.Sublist d.fields.keys
  entries :
    ∀ label b,
      (label, b) ∈ m ↔ ∃ f, (label, f) ∈ d.fields ∧ stands f b

/-
  The fields of a draft are sorted into a resource.  Each lies
  in one bucket only, that of the kind of its tag; the buckets
  and the types are parts of the declared fields, and so are
  the names that can be filtered by.
-/
structure Sorts
    (d : ResourceDraft)
    (r : Resource) : Prop where
  bucket :
    ∀ label f, (label, f) ∈ d.fields →
      ∀ kind,
        label ∈ r.bucket kind ↔
          kind = f.relation.map RelationTag.kind
  owns : d.Part FieldDraft.IsColumn r.owns
  belongsTo :
    d.Part
      (fun f relation =>
        ∃ tag, f.IsRelation tag relation ∧ tag.kind = .belongsTo)
      r.belongsTo
  hasMany :
    d.Part
      (fun f relation =>
        ∃ tag, f.IsRelation tag relation ∧ tag.kind = .hasMany)
      r.hasMany
  types : d.Part (fun f type => type = f.type) r.types
  filterable :
    r.filterable.Sublist d.fields.keys ∧
      ∀ label,
        label ∈ r.filterable ↔
          ∃ f, (label, f) ∈ d.fields ∧ f.props.noFilter = false

/- Picked fields are a part of the declared ones. -/
theorem part_pick
    {β : Type}
    {stands : FieldDraft → β → Prop}
    {f : FieldDraft → Option β}
    (h : ∀ field b, f field = some b ↔ stands field b) :
    d.Part stands (d.pick f) := by
  refine ⟨d.keys_pick_sublist f, ?_⟩
  intro label b
  rw [mem_pick_iff]
  simp only [h]

/- A name lies in a part if its field stands for something. -/
theorem Part.mem_keys_iff
    {β : Type}
    {stands : FieldDraft → β → Prop}
    {m : Fields β}
    (h : d.Part stands m)
    (hDistinct : d.fields.Distinct)
    {label : String}
    {f : FieldDraft}
    (hField : (label, f) ∈ d.fields) :
    label ∈ m.keys ↔ ∃ b, stands f b := by
  constructor
  · intro hLabel
    rcases List.mem_map.mp hLabel with ⟨⟨name, b⟩, hEntry, hName⟩
    cases hName
    rcases (h.entries name b).mp hEntry with ⟨f', hField', hStands⟩
    rw [hDistinct.eq_of_mem hField hField']
    exact ⟨b, hStands⟩
  · rintro ⟨b, hStands⟩
    have hEntry := (h.entries label b).mpr ⟨f, hField, hStands⟩
    exact List.mem_map_of_mem hEntry

/- The columns are a part of the declared fields. -/
theorem part_owns (d : ResourceDraft) :
    d.Part FieldDraft.IsColumn d.owns :=
  part_pick fun _ _ => FieldDraft.owned?_eq_some_iff

/- The relations of a kind are a part of the declared fields. -/
theorem part_relations
    (d : ResourceDraft)
    (kind : RelationKind) :
    d.Part
      (fun f relation =>
        ∃ tag, f.IsRelation tag relation ∧ tag.kind = kind)
      (d.relations kind) :=
  part_pick fun _ _ => FieldDraft.relation?_eq_some_iff

/- A field is a relation of the kind of its tag. -/
theorem mem_keys_relations_iff
    (hDistinct : d.fields.Distinct)
    (hTargets : d.TargetsGiven)
    {label : String}
    {f : FieldDraft}
    (hField : (label, f) ∈ d.fields)
    (kind : RelationKind) :
    label ∈ (d.relations kind).keys ↔
      some kind = f.relation.map RelationTag.kind := by
  rw [(d.part_relations kind).mem_keys_iff hDistinct hField]
  constructor
  · rintro ⟨relation, tag, hIs, hKind⟩
    rw [hIs.tagged, Option.map_some, hKind]
  · intro hKind
    rcases Option.map_eq_some_iff.mp hKind.symm with
      ⟨tag, hTag, hSame⟩
    rcases hTargets.exists_isRelation hField hTag with
      ⟨relation, hIs⟩
    exact ⟨relation, tag, hIs, hSame⟩

/- The types are those of all declared fields. -/
theorem part_types (d : ResourceDraft) :
    d.Part (fun f type => type = f.type)
      (d.fields.map fun (label, f) => (label, f.type)) := by
  refine ⟨?_, ?_⟩
  · simp [Fields.keys, Function.comp_def]
  · intro label type
    simp only [List.mem_map, Prod.mk.injEq, Prod.exists]
    constructor
    · rintro ⟨label', f, hField, rfl, rfl⟩
      exact ⟨f, hField, rfl⟩
    · rintro ⟨f, hField, rfl⟩
      exact ⟨label, f, hField, rfl, rfl⟩

/- The names that can be filtered by, in their order. -/
theorem filterable_part (d : ResourceDraft) :
    d.filterable.Sublist d.fields.keys ∧
      ∀ label,
        label ∈ d.filterable ↔
          ∃ f, (label, f) ∈ d.fields ∧ f.props.noFilter = false := by
  refine ⟨List.filter_sublist.map Prod.fst, ?_⟩
  intro label
  simp [filterable]

/- A draft that passes the check is sorted into its resource. -/
theorem sorts_of_check
    {r : Resource}
    (hDistinct : d.fields.Distinct)
    (h : d.check = .ok r) :
    d.Sorts r := by
  rcases check_eq_ok_iff.mp h with ⟨hFits, rfl⟩
  refine
    ⟨?_, d.part_owns, d.part_relations .belongsTo,
      d.part_relations .hasMany, d.part_types, d.filterable_part⟩
  intro label f hField kind
  cases kind with
  | none =>
      have hColumn := d.part_owns.mem_keys_iff hDistinct hField
      rw [FieldDraft.exists_isColumn_iff] at hColumn
      exact hColumn.trans (eq_comm.trans Option.map_eq_none_iff).symm
  | some kind =>
      have hRelation :=
        mem_keys_relations_iff hDistinct hFits.targets hField kind
      cases kind with
      | belongsTo => exact hRelation
      | hasMany => exact hRelation

namespace Sorts

variable {r : Resource}

/- The names in a bucket are in the order of declaration. -/
theorem bucket_sublist
    (h : d.Sorts r)
    (kind : Option RelationKind) :
    (r.bucket kind).Sublist d.fields.keys :=
  match kind with
  | none => h.owns.order
  | some .belongsTo => h.belongsTo.order
  | some .hasMany => h.hasMany.order

/- No name lies in two buckets. -/
theorem kind_eq
    (h : d.Sorts r)
    {label : String}
    {kind other : Option RelationKind}
    (hKind : label ∈ r.bucket kind)
    (hOther : label ∈ r.bucket other) :
    kind = other := by
  rcases List.mem_map.mp ((h.bucket_sublist kind).subset hKind) with
    ⟨⟨name, f⟩, hField, hName⟩
  cases hName
  rw [(h.bucket _ f hField kind).mp hKind,
    (h.bucket _ f hField other).mp hOther]

/- So the names in all buckets are distinct. -/
theorem nodup_keys
    (h : d.Sorts r)
    (hDistinct : d.fields.Distinct) :
    (r.owns.keys ++ (r.belongsTo.keys ++ r.hasMany.keys)).Nodup := by
  have hNodup : ∀ kind, (r.bucket kind).Nodup :=
    fun kind => (h.bucket_sublist kind).nodup hDistinct
  have hApart :
      ∀ kind other, kind ≠ other →
        ∀ a ∈ r.bucket kind, ∀ b ∈ r.bucket other, a ≠ b := by
    rintro kind other hNe a ha b hb rfl
    exact hNe (h.kind_eq ha hb)
  rw [List.nodup_append, List.nodup_append]
  refine
    ⟨hNodup none,
      ⟨hNodup (some .belongsTo), hNodup (some .hasMany), ?_⟩, ?_⟩
  · exact hApart (some .belongsTo) (some .hasMany) nofun
  · intro a ha b hb
    rcases List.mem_append.mp hb with hb | hb
    · exact hApart none (some .belongsTo) nofun a ha b hb
    · exact hApart none (some .hasMany) nofun a ha b hb

end Sorts

/-
  A draft with distinct fields passes the check exactly if its
  parts fit each other, and is then sorted into its resource.
-/
theorem check_sorts
    (hDistinct : d.fields.Distinct) :
    ((∃ r, d.check = .ok r) ↔ d.Fits) ∧
      ∀ r, d.check = .ok r → d.Sorts r := by
  constructor
  · simp only [check_eq_ok_iff, exists_and_left, exists_eq, and_true]
  · intro r h
    exact sorts_of_check hDistinct h

/- Ideas, whose creator is a member and which have parts. -/
def ideas : ResourceDraft where
  name := "entries"
  table := { name := "idea" }
  pathSegment := "entries"
  primaryKey := some "id"
  softDelete := none
  ownership := some ⟨"creator_id", "id"⟩
  keepColumn := none
  hidden := ["secret"]
  fields :=
    [ ("id", ⟨.value .integer, { byDefault := true }, none, none⟩)
    , ("creator",
        ⟨.reference "users", {}, none,
          some ⟨.belongsTo, "creator_id", none, none⟩⟩)
    , ("secret", ⟨.value .string, { noFilter := true }, none, none⟩)
    , ("children",
        ⟨.reference "entries", { noFilter := true }, none,
          some ⟨.hasMany, "parent_id", some 10, some "id"⟩⟩)
    , ("creator_id", ⟨.value .integer, {}, none, none⟩) ]

/- The draft of ideas fits, and its fields are sorted. -/
theorem check_sorts_sample :
    ideas.fields.Distinct ∧ ideas.Fits ∧
      ∃ r,
        ideas.check = .ok r ∧ ideas.Sorts r ∧
          r.bucket none = ["id", "secret", "creator_id"] ∧
          r.bucket (some .belongsTo) = ["creator"] ∧
          r.bucket (some .hasMany) = ["children"] ∧
          r.filterable = ["id", "creator", "creator_id"] := by
  have hDistinct : ideas.fields.Distinct := by decide
  rcases check_sorts hDistinct with ⟨hFits, hSorts⟩
  obtain ⟨r, hCheck⟩ : ∃ r, ideas.check = .ok r := ⟨_, rfl⟩
  refine
    ⟨hDistinct, hFits.mp ⟨r, hCheck⟩, r, hCheck, hSorts r hCheck, ?_⟩
  cases hCheck
  exact ⟨rfl, rfl, rfl, rfl⟩

end ResourceDraft

end RelationalRest
