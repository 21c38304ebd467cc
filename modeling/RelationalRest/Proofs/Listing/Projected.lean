import RelationalRest.Proofs.Listing.Kept

/-
  What each projection promises.  Everything is every declared
  column; by default the flagged columns of the root and of the
  relations that are flagged themselves are selected; requested
  entries select the columns that they name, and the flagged
  ones where the name is empty.

  A projection selects exactly what it promises.  It joins the
  labels of the columns that it selects and no others, and an
  entry that names nothing changes nothing.

  Key definitions include:
    * `Resource.Flags`
    * `Catalog.Named`
    * `Projection.Promises`
    * `Projection.Names`
    * `Projection.Delivers`

  Main declarations:
    * `Projection.selects_iff_promises`
    * `Projection.mem_labels_apply_iff`
    * `Projection.apply_eq_of_not_names`
    * `Catalog.Resolved.projection_delivers`
-/

namespace RelationalRest

variable {c : Catalog}
variable {r root related : Resource}
variable {label name entry : String}
variable {relation : Relation}
variable {p : Projection}
variable {entries : List String}
variable {q : Sql.Query}

------------------------------------------------------------
-- Promises
------------------------------------------------------------

/- A column that is flagged to be selected by default. -/
def Resource.Flags
    (r : Resource)
    (name : String) : Prop :=
  ∃ field, (name, field) ∈ r.owns ∧ field.props.byDefault = true

/- No field of a resource has an empty name. -/
def Catalog.Named (c : Catalog) : Prop :=
  ∀ r ∈ c.resources, "" ∉ r.types.keys

namespace Projection

/-
  What a projection promises to select: columns of the root,
  and columns of the resource that a label stands for.
-/
def Promises
    (c : Catalog)
    (r : Resource)
    (col : Sql.Column) : Projection → Prop
| .everything => c.Declares r col
| .byDefault =>
    (col.qualifier = r.table.name ∧ r.Flags col.name) ∨
      ∃ relation related,
        Fields.get? r.belongsTo col.qualifier = some relation ∧
          relation.props.byDefault = true ∧
          c.find? relation.resource = some related ∧
          related.Flags col.name
| .requested entries =>
    (col.qualifier = r.table.name ∧ col.name ∈ r.owns.keys ∧
        (col.name ∈ entries ∨
          "" ∈ entries ∧ r.Flags col.name)) ∨
      ∃ relation related,
        Fields.get? r.belongsTo col.qualifier = some relation ∧
          c.find? relation.resource = some related ∧
          col.name ∈ related.owns.keys ∧
          (col.qualifier ++ "." ++ col.name ∈ entries ∨
            col.qualifier ++ "." ∈ entries ∧
              related.Flags col.name)

/-
  A requested entry names something: it is empty or a column
  of the root, or such an entry of a related resource after
  its label and a point.
-/
def Names
    (c : Catalog)
    (r : Resource)
    (entry : String) : Prop :=
  entry = "" ∨ entry ∈ r.owns.keys ∨
    ∃ label relation related name,
      Fields.get? r.belongsTo label = some relation ∧
        c.find? relation.resource = some related ∧
        (name = "" ∨ name ∈ related.owns.keys) ∧
        entry = label ++ "." ++ name

/- What opens an entry: nothing for the root, else the label. -/
def opening : Option String → String
| none => ""
| some label => label ++ "."

/-
  A query delivers what a projection promises: each promised
  column once and no others, and joins for the labels of these
  columns alone.
-/
structure Delivers
    (p : Projection)
    (c : Catalog)
    (r : Resource)
    (q : Sql.Query) : Prop where
  distinct : q.columns.Nodup
  columns : ∀ col, col ∈ q.columns ↔ p.Promises c r col
  labels :
    ∀ label, label ∈ q.labels ↔
      label ∈ r.belongsTo.keys ∧ ∃ name, ⟨label, name⟩ ∈ q.columns

------------------------------------------------------------
-- Chosen columns
------------------------------------------------------------

/- The columns that are selected by default are the flagged ones. -/
theorem mem_defaultColumns_iff :
    name ∈ defaultColumns r ↔ r.Flags name := by
  unfold defaultColumns Resource.Flags
  simp

/- What an entry is for the root or for a label. -/
theorem nameFor?_eq_some_iff
    {label : Option String} :
    nameFor? label entry = some name ↔
      entry = opening label ++ name := by
  cases label with
  | none => simp [nameFor?, opening]
  | some label => simp [nameFor?, opening, Text.after?_eq_some_iff]

/- The columns that an entry chooses. -/
theorem mem_ofEntry_iff
    {label : Option String}
    (hNamed : "" ∉ r.owns.keys) :
    name ∈ ofEntry r label entry ↔
      (nameFor? label entry = some name ∧ name ∈ r.owns.keys) ∨
        nameFor? label entry = some "" ∧ r.Flags name := by
  unfold ofEntry
  cases nameFor? label entry with
  | none => simp
  | some found =>
      simp only [Resource.ownsColumn, Fields.contains_iff_mem_keys,
        Option.some.injEq]
      by_cases hOwn : found ∈ r.owns.keys
      · have hFound : found ≠ "" := fun hEmpty =>
          hNamed (hEmpty ▸ hOwn)
        simp only [hOwn, if_true, List.mem_singleton, hFound,
          false_and, or_false]
        constructor
        · rintro rfl
          exact ⟨rfl, hOwn⟩
        · exact fun h => h.1.symm
      · by_cases hEmpty : found = ""
        · subst hEmpty
          simp only [hOwn, if_false, if_true,
            mem_defaultColumns_iff, true_and]
          constructor
          · exact .inr
          · rintro (⟨rfl, hName⟩ | hFlags)
            · exact absurd hName hOwn
            · exact hFlags
        · simp only [hOwn, hEmpty, if_false, List.not_mem_nil,
            false_and, or_false, false_iff]
          rintro ⟨rfl, hName⟩
          exact hOwn hName

/- The columns that requested entries choose. -/
theorem mem_chosen_requested_iff
    {label : Option String}
    (hNamed : "" ∉ r.owns.keys) :
    name ∈ (requested entries).chosen r label ↔
      name ∈ r.owns.keys ∧
        (opening label ++ name ∈ entries ∨
          opening label ∈ entries ∧ r.Flags name) := by
  have hFlagged : r.Flags name → name ∈ r.owns.keys := by
    rintro ⟨field, hField, _⟩
    exact List.mem_map.mpr ⟨(name, field), hField, rfl⟩
  simp only [chosen, List.mem_flatMap, mem_ofEntry_iff hNamed,
    nameFor?_eq_some_iff, String.append_empty]
  constructor
  · rintro ⟨entry, hEntry, ⟨rfl, hName⟩ | ⟨rfl, hFlags⟩⟩
    · exact ⟨hName, .inl hEntry⟩
    · exact ⟨hFlagged hFlags, .inr ⟨hEntry, hFlags⟩⟩
  · rintro ⟨hName, hEntry | ⟨hEntry, hFlags⟩⟩
    · exact ⟨_, hEntry, .inl ⟨rfl, hName⟩⟩
    · exact ⟨_, hEntry, .inr ⟨rfl, hFlags⟩⟩

/- No column of a named catalog has an empty name. -/
theorem not_mem_owns_of_named
    (hResolved : c.Resolved)
    (hNamed : c.Named)
    (hr : r ∈ c.resources) :
    "" ∉ r.owns.keys :=
  fun hName => hNamed r hr ((hResolved.grounded hr).types "" hName)

/- A projection selects what it promises. -/
theorem selects_iff_promises
    {col : Sql.Column}
    (hResolved : c.Resolved)
    (hNamed : c.Named)
    (hr : r ∈ c.resources) :
    p.Selects c r col ↔ p.Promises c r col := by
  unfold Selects
  cases p with
  | everything =>
      simp [chosen, considers, Promises, Catalog.Declares]
  | byDefault =>
      simp [chosen, considers, Promises, mem_defaultColumns_iff]
  | requested entries =>
      refine or_congr (and_congr_right fun _ => ?_) ?_
      · have hOwn := not_mem_owns_of_named hResolved hNamed hr
        simp [mem_chosen_requested_iff hOwn, opening]
      · refine exists_congr fun relation =>
          exists_congr fun related => and_congr_right fun _ => ?_
        simp only [considers, ne_eq, reduceCtorEq,
          not_false_eq_true, decide_true, Bool.true_or, true_and]
        refine and_congr_right fun hFind => ?_
        have hOwn :=
          not_mem_owns_of_named hResolved hNamed
            (Catalog.mem_resources_of_find? hFind)
        simp [mem_chosen_requested_iff hOwn, opening]

end Projection

------------------------------------------------------------
-- Joined labels
------------------------------------------------------------

/- The labels after a table is joined. -/
theorem Sql.Query.mem_labels_leftJoin_iff
    {j : Join} :
    label ∈ (q.leftJoin j).labels ↔
      label ∈ q.labels ∨ label = j.label := by
  unfold leftJoin
  by_cases hJoined : q.isJoined j.label = true
  · have hMem : j.label ∈ q.labels :=
      Scoped.isJoined_iff.mp hJoined
    rw [if_pos hJoined]
    constructor
    · exact .inl
    · rintro (hOld | rfl)
      · exact hOld
      · exact hMem
  · simp [hJoined, labels]

namespace Projection

/- Selecting columns joins nothing. -/
theorem labels_addColumns
    {qualifier : String}
    (names : List String)
    (q : Sql.Query) :
    (addColumns qualifier names q).labels = q.labels := by
  unfold addColumns
  induction names generalizing q with
  | nil => rfl
  | cons name names ih => rw [List.foldl_cons, ih, labels_addColumn]

/-
  The step of a relation joins its label, if the relation is
  considered and columns are chosen from its resource.
-/
theorem mem_labels_applyRelation_iff
    {label' : String}
    (hResolved : c.Resolved)
    (hr : r ∈ c.resources)
    (hRelation : Fields.get? r.belongsTo label' = some relation)
    (hFind : c.find? relation.resource = some related) :
    label ∈ (p.applyRelation c r label' relation q).query.labels ↔
      label ∈ q.labels ∨
        label = label' ∧ p.considers relation = true ∧
          p.chosen related (some label') ≠ [] := by
  have hRelated : c.related relation = .ok related :=
    Catalog.related_of_find? hFind
  rcases hResolved.sound.exists_primaryKey hr hRelation hFind with
    ⟨key, hKey⟩
  -- the key of the resource is a column, so everything is never nothing
  have hEverything :
      p = .everything → p.chosen related (some label') ≠ [] := by
    rintro rfl
    have hMem := Catalog.mem_resources_of_find? hFind
    exact List.ne_nil_of_mem
      ((hResolved.grounded hMem).key key hKey)
  unfold applyRelation
  by_cases hConsiders : p.considers relation = true
  · simp only [hConsiders, if_true, hRelated, true_and]
    by_cases hChosen : p.chosen related (some label') = []
    · have hSome : p ≠ .everything :=
        fun hAll => hEverything hAll hChosen
      simp [hChosen, hSome, Building.ok, labels_addColumns]
    · simp only [ne_eq, hChosen, not_false_eq_true, or_true,
        if_true, and_true]
      rw [Listing.join_eq hRelation hKey]
      show label ∈ Sql.Query.labels (Sql.Query.leftJoin _ _) ↔ _
      rw [Sql.Query.mem_labels_leftJoin_iff, labels_addColumns]
      rfl
  · simp [hConsiders, Building.ok]

/-
  A projection joins the labels from whose resources it
  selects columns.
-/
theorem mem_labels_apply_iff
    (hResolved : c.Resolved)
    (hr : r ∈ c.resources) :
    label ∈ (p.apply c r q).query.labels ↔
      label ∈ q.labels ∨
        label ∈ r.belongsTo.keys ∧
          ∃ name, p.Selects c r ⟨label, name⟩ := by
  have hSound := hResolved.sound
  rw [p.mem_view_apply_iff hSound hr
      fun _ _ _ hRelation hFind _ =>
        mem_labels_applyRelation_iff hResolved hr hRelation hFind,
    labels_addColumns]
  refine or_congr_right ?_
  constructor
  · rintro ⟨_, relation, related, hRelation, hFind, rfl,
      hConsiders, hChosen⟩
    rcases List.exists_mem_of_ne_nil _ hChosen with ⟨name, hName⟩
    exact ⟨Fields.mem_keys_of_get?_eq_some hRelation, name,
      .inr ⟨relation, related, hRelation, hConsiders, hFind, hName⟩⟩
  · rintro ⟨hLabel, name, ⟨hTable, _⟩ | ⟨relation, related,
      hRelation, hConsiders, hFind, hName⟩⟩
    · have hApart :=
        (hSound.resources r hr).ne_table
          (Resource.mem_relations_of_belongsTo hLabel)
      exact absurd hTable hApart
    · exact ⟨label, relation, related, hRelation, hFind, rfl,
        hConsiders, List.ne_nil_of_mem hName⟩

end Projection

------------------------------------------------------------
-- Entries that name nothing
------------------------------------------------------------

namespace Projection

/- An entry that stands for no column chooses none. -/
theorem ofEntry_eq_nil
    {label : Option String}
    (h : ∀ name, entry = opening label ++ name →
      name ≠ "" ∧ name ∉ r.owns.keys) :
    ofEntry r label entry = [] := by
  unfold ofEntry
  cases hName : nameFor? label entry with
  | none => rfl
  | some name =>
      rcases h name (nameFor?_eq_some_iff.mp hName) with
        ⟨hEmpty, hOwn⟩
      simp [Resource.ownsColumn, Fields.contains_iff_mem_keys,
        hEmpty, hOwn]

/- An entry that chooses nothing may be left out. -/
theorem chosen_eq_of_ofEntry
    {before after : List String}
    {label : Option String}
    (h : ofEntry r label entry = []) :
    (requested (before ++ entry :: after)).chosen r label =
      (requested (before ++ after)).chosen r label := by
  simp [chosen, h]

/- An entry that names nothing has no effect. -/
theorem apply_eq_of_not_names
    {before after : List String}
    (hr : r.Sound)
    (h : ¬ Names c r entry)
    (q : Sql.Query) :
    (requested (before ++ entry :: after)).apply c r q =
      (requested (before ++ after)).apply c r q := by
  have hRoot : ofEntry r none entry = [] := by
    refine ofEntry_eq_nil fun name hName => ?_
    rw [opening, String.empty_append] at hName
    subst hName
    exact ⟨fun hEmpty => h (.inl hEmpty),
      fun hOwn => h (.inr (.inl hOwn))⟩
  unfold apply
  rw [chosen_eq_of_ofEntry hRoot]
  refine congrFun (Building.each_congr ?_) _
  rintro ⟨label, relation⟩ hEntry
  funext q
  dsimp only
  unfold applyRelation
  cases hRelated : c.related relation with
  | error e => rfl
  | ok related =>
      have hNothing : ofEntry related (some label) entry = [] := by
        refine ofEntry_eq_nil fun name hName => ?_
        rw [← not_or]
        intro hNamed
        exact h (.inr (.inr ⟨label, relation, related, name,
          Fields.get?_eq_some_of_mem hr.distinct_belongsTo hEntry,
          Catalog.find?_of_related hRelated, hNamed, hName⟩))
      dsimp only
      rw [chosen_eq_of_ofEntry hNothing]
      simp [considers]

end Projection

------------------------------------------------------------
-- Projections of fresh queries
------------------------------------------------------------

/-
  Over a resolved catalog whose fields have names, a projection
  of a fresh query never fails.  It delivers what it promises,
  and requested entries that name nothing might be missing.
-/
theorem Catalog.Resolved.projection_delivers
    (hResolved : c.Resolved)
    (hNamed : c.Named)
    (hr : r ∈ c.resources)
    (p : Projection)
    (table : Sql.Table) :
    ∃ q, p.apply c r { root := table } = .ok q ∧
      p.Delivers c r q ∧
      ∀ before entry after,
        p = .requested (before ++ entry :: after) →
          ¬ Projection.Names c r entry →
            (Projection.requested (before ++ after)).apply c r
              { root := table } = .ok q := by
  have hApply := p.result_apply hResolved.sound hr { root := table }
  rw [Building.result_eq_ok_iff] at hApply
  refine ⟨_, hApply, ⟨?_, ?_, ?_⟩, ?_⟩
  · exact (p.selection_apply (r := r) c rfl).distinct
  · intro col
    rw [p.mem_columns_apply_iff hResolved.sound hr,
      Projection.selects_iff_promises hResolved hNamed hr]
    simp
  · intro label
    rw [p.mem_labels_apply_iff hResolved hr]
    simp [p.mem_columns_apply_iff hResolved.sound hr,
      Sql.Query.labels]
  · rintro before entry after rfl hUnknown
    rw [← Projection.apply_eq_of_not_names
      (hResolved.sound.resources r hr) hUnknown]
    exact hApply

/- The flagged columns of the creator are promised and delivered. -/
theorem Catalog.Resolved.projection_delivers_sample :
    sample.Resolved ∧ sample.Named ∧
      Resource.sample ∈ sample.resources ∧
      ∃ q, (Projection.requested ["title", "creator.", "x.y"]).apply
          sample Resource.sample { root := Resource.sample.table } =
            .ok q ∧
        q.labels = ["creator"] ∧
        (Projection.requested ["title", "creator.", "x.y"]).Delivers
          sample Resource.sample q := by
  have hNamed : sample.Named := by
    unfold Named
    decide
  rcases sample_resolved.projection_delivers hNamed mem_sample
      (.requested ["title", "creator.", "x.y"])
      Resource.sample.table with ⟨q, hApply, hDelivers, _⟩
  refine ⟨sample_resolved, hNamed, mem_sample, q, hApply, ?_,
    hDelivers⟩
  have hQuery := congrArg Building.query hApply
  rw [← show _ = q from hQuery]
  decide

end RelationalRest
