import RelationalRest.Proofs.Listing.Scope

/-
  Every step of a listing keeps a query in scope, and stops
  it only for a fault of the request: over a sound catalog no
  relation is missing and none leads to a resource without a
  primary key.

  A step may mention the label of a relation before it joins
  the relation; the label is announced in between.

  Main declarations:
    * `Listing.meets_join`
    * `Projection.meets_apply`
    * `Filter.meets_apply`
    * `Sorting.meets_apply`
    * `Paging.meets_apply`
-/

namespace RelationalRest

variable {c : Catalog}
variable {root related : Resource}
variable {label : String}
variable {relation : Relation}
variable {pending : List String}
variable {q : Sql.Query}

------------------------------------------------------------
-- Relations
------------------------------------------------------------

/- A resource that is found is what the relation leads to. -/
theorem Catalog.related_of_find?
    (h : c.find? relation.resource = some related) :
    c.related relation = .ok related := by
  simp only [Catalog.related, h]

/- A relation of a sound catalog leads to a resource. -/
theorem Catalog.Sound.exists_related
    (hSound : c.Sound)
    (hRoot : root ∈ c.resources)
    (hRelation :
      Fields.get? root.belongsTo label = some relation) :
    ∃ related, c.related relation = .ok related ∧
      c.find? relation.resource = some related := by
  rcases hSound.belongsTo root hRoot (label, relation)
      (Fields.mem_of_get?_eq_some hRelation) with
    ⟨related, key, hFind, _⟩
  exact ⟨related, related_of_find? hFind, hFind⟩

/- The resource that a relation leads to has a primary key. -/
theorem Catalog.Sound.exists_primaryKey
    (hSound : c.Sound)
    (hRoot : root ∈ c.resources)
    (hRelation :
      Fields.get? root.belongsTo label = some relation)
    (hFind : c.find? relation.resource = some related) :
    ∃ key, related.primaryKey = some key := by
  rcases hSound.belongsTo root hRoot (label, relation)
      (Fields.mem_of_get?_eq_some hRelation) with
    ⟨target, key, hTarget, hKey⟩
  rw [hFind] at hTarget
  cases hTarget
  exact ⟨key, hKey⟩

/- A relation to a resource with a key is joined. -/
theorem Listing.join_eq
    {key : String}
    (hRelation :
      Fields.get? root.belongsTo label = some relation)
    (hKey : related.primaryKey = some key)
    (q : Sql.Query) :
    join root label related q =
      .ok (q.leftJoin (root.joinOf label relation related key)) := by
  unfold join Sql.Query.leftJoin
  by_cases hJoined : q.isJoined label = true
  · simp [hJoined, Resource.joinOf]
  · simp [hJoined, hRelation, hKey, Resource.joinOf]

/- The relation of a label joins what it leads to. -/
theorem Listing.meets_join
    (hSound : c.Sound)
    (hRoot : root ∈ c.resources)
    (hRelation :
      Fields.get? root.belongsTo label = some relation)
    (hFind : c.find? relation.resource = some related)
    (h : Scoped c root (label :: pending) q) :
    (join root label related q).Meets (Scoped c root pending) := by
  rcases hSound.exists_primaryKey hRoot hRelation hFind with
    ⟨key, hKey⟩
  rw [join_eq hRelation hKey]
  refine Building.meets_ok ?_
  by_cases hJoined : q.isJoined label = true
  · have hSame :
        q.leftJoin (root.joinOf label relation related key) = q := by
      simp [Sql.Query.leftJoin, Resource.joinOf, hJoined]
    rw [hSame]
    exact h.settle (Scoped.isJoined_iff.mp hJoined)
  · have hFollows :
        Follows c root (root.joinOf label relation related key) :=
      ⟨relation, related, key, hRelation, hFind, hKey, rfl⟩
    have hNew : label ∉ q.labels :=
      fun hMem => hJoined (Scoped.isJoined_iff.mpr hMem)
    rcases h.leftJoin hFollows hNew with ⟨hNext, hLabel⟩
    exact hNext.settle hLabel

------------------------------------------------------------
-- Projections
------------------------------------------------------------

namespace Projection

/- Selecting a column leaves the labels of a query. -/
theorem labels_addColumn
    (col : Sql.Column) :
    (q.addColumn col).labels = q.labels := by
  unfold Sql.Query.addColumn
  by_cases hMem : col ∈ q.columns
  · simp [hMem]
  · simp [hMem, Sql.Query.labels]

/- Selecting columns of a qualifier in scope. -/
theorem scoped_addColumns
    {qualifier : String}
    (names : List String)
    (hQualifier : InScope root pending q qualifier)
    (h : Scoped c root pending q) :
    Scoped c root pending (addColumns qualifier names q) := by
  unfold addColumns
  induction names generalizing q with
  | nil => exact h
  | cons name names ih =>
      let col : Sql.Column := { qualifier, name }
      have hNext : Scoped c root pending (q.addColumn col) :=
        h.addColumn hQualifier
      have hStill :
          InScope root pending (q.addColumn col) qualifier := by
        unfold InScope
        rw [labels_addColumn]
        exact hQualifier
      exact ih hStill hNext

/- The columns of a relation are selected where it is joined. -/
theorem meets_applyRelation
    (p : Projection)
    (hSound : c.Sound)
    (hRoot : root ∈ c.resources)
    (hRelation :
      Fields.get? root.belongsTo label = some relation)
    (h : Scoped c root pending q) :
    (p.applyRelation c root label relation q).Meets
      (Scoped c root pending) := by
  rcases hSound.exists_related hRoot hRelation with
    ⟨related, hRelated, hFind⟩
  unfold applyRelation
  by_cases hConsiders : p.considers relation = true
  · simp only [hConsiders, if_true, hRelated]
    by_cases hJoins :
        p = .everything ∨ p.chosen related (some label) ≠ []
    · simp only [hJoins, if_true]
      have hAnnounced : InScope root (label :: pending) q label :=
        .inr (.inr List.mem_cons_self)
      have hSelected :=
        scoped_addColumns (p.chosen related (some label))
          hAnnounced (h.announce label)
      exact Listing.meets_join hSound hRoot hRelation hFind
        hSelected
    · have hNone : p.chosen related (some label) = [] := by
        by_contra hSome
        exact hJoins (.inr hSome)
      simp only [hJoins, if_false]
      rw [hNone]
      exact Building.meets_ok h
  · simp only [hConsiders, Bool.false_eq_true, if_false]
    exact Building.meets_ok h

/- A projection keeps a query in scope. -/
theorem meets_apply
    (p : Projection)
    (hSound : c.Sound)
    (hRoot : root ∈ c.resources)
    (h : Scoped c root pending q) :
    (p.apply c root q).Meets (Scoped c root pending) := by
  have hDistinct : root.belongsTo.Distinct :=
    (hSound.resources root hRoot).distinct_belongsTo
  refine Building.meets_each ?_
    (scoped_addColumns _ (.inl rfl) h)
  rintro ⟨label, relation⟩ hEntry q hq
  exact p.meets_applyRelation hSound hRoot
    (Fields.get?_eq_some_of_mem hDistinct hEntry) hq

end Projection

------------------------------------------------------------
-- Filters
------------------------------------------------------------

namespace Filter

/- A filter of a column in scope keeps a query in scope. -/
theorem meets_applyColumn
    (field : OwnedField)
    {col : Sql.Column}
    (value : String)
    (hCol : InScope root pending q col.qualifier)
    (h : Scoped c root pending q) :
    (applyColumn field col value q).Meets
      (Scoped c root pending) := by
  unfold applyColumn
  cases hCondition : field.type.kind.condition col value with
  | ok condition =>
      refine Building.meets_ok (h.addCondition ?_)
      intro col' hCol'
      rw [Kind.columns_of_condition hCondition hCol']
      exact hCol
  | error e =>
      exact Building.meets_stop q
        (Kind.refusal_of_condition hCondition)

/- Filters of a relation mention its label alone. -/
theorem meets_applyLabelled
    (r : Resource)
    (requests : Fields String)
    (hLabel : label ∈ pending)
    (h : Scoped c root pending q) :
    (applyLabelled r label requests q).Meets
      (Scoped c root pending) := by
  refine Building.meets_each ?_ h
  intro name _ q hq
  unfold applyLabelledField
  cases Fields.get? requests name with
  | none => exact Building.meets_ok hq
  | some value =>
      cases Fields.get? r.owns name with
      | none =>
          exact Building.meets_stop q ⟨trivial, id⟩
      | some field =>
          exact meets_applyColumn field value
            (.inr (.inr hLabel)) hq

/- A filter by a relation joins what the relation leads to. -/
theorem meets_applyRelation
    (value : String)
    (hSound : c.Sound)
    (hRoot : root ∈ c.resources)
    (h : Scoped c root pending q) :
    (applyRelation c root label value q).Meets
      (Scoped c root pending) := by
  unfold applyRelation
  cases hRelation : Fields.get? root.belongsTo label with
  | none =>
      exact Building.meets_stop q ⟨trivial, id⟩
  | some relation =>
      rcases hSound.exists_related hRoot hRelation with
        ⟨related, hRelated, hFind⟩
      simp only [hRelated]
      have hFilters :=
        meets_applyLabelled related (subrequests value)
          List.mem_cons_self (h.announce label)
      exact hFilters.andThen fun q hq =>
        Listing.meets_join hSound hRoot hRelation hFind hq

/- Filters keep a query in scope. -/
theorem meets_apply
    (requests : Fields String)
    (hSound : c.Sound)
    (hRoot : root ∈ c.resources)
    (h : Scoped c root pending q) :
    (apply c root requests q).Meets
      (Scoped c root pending) := by
  refine Building.meets_each ?_ h
  intro name _ q hq
  unfold applyField
  cases Fields.get? requests name with
  | none => exact Building.meets_ok hq
  | some value =>
      cases Fields.get? root.owns name with
      | none => exact meets_applyRelation value hSound hRoot hq
      | some field =>
          exact meets_applyColumn field value (.inl rfl) hq

end Filter

------------------------------------------------------------
-- Sorting
------------------------------------------------------------

namespace Sorting

/-
  A field to sort by is looked up without error, and if it is
  one of a relation, the relation leads to where it was found.
-/
theorem exists_target
    (field : String)
    (hSound : c.Sound)
    (hRoot : root ∈ c.resources) :
    ∃ t, target c root field = .ok t ∧
      ∀ label name related, t = .related label name related →
        ∃ relation,
          Fields.get? root.belongsTo label = some relation ∧
            c.find? relation.resource = some related := by
  unfold target
  by_cases hOwn : root.ownsColumn field = true
  · refine ⟨.own, by simp [hOwn], ?_⟩
    intro label name related hEq
    cases hEq
  · simp only [hOwn, Bool.false_eq_true, if_false]
    unfold relatedTarget
    split
    · next label name _ =>
        cases hRelation : Fields.get? root.belongsTo label with
        | none =>
            refine ⟨.unknown, rfl, ?_⟩
            intro label' name' related' hEq
            cases hEq
        | some relation =>
            rcases hSound.exists_related hRoot hRelation with
              ⟨related, hRelated, hFind⟩
            simp only [hRelated]
            by_cases hColumn : related.ownsColumn name = true
            · refine ⟨_, if_pos hColumn, ?_⟩
              intro label' name' related' hEq
              cases hEq
              exact ⟨relation, hRelation, hFind⟩
            · refine ⟨_, if_neg hColumn, ?_⟩
              intro label' name' related' hEq
              cases hEq
    · refine ⟨.unknown, rfl, ?_⟩
      intro label name related hEq
      cases hEq

/- A term keeps a query in scope. -/
theorem meets_applyTerm
    (quiet : Bool)
    (t : Term)
    (hSound : c.Sound)
    (hRoot : root ∈ c.resources)
    (h : Scoped c root pending q) :
    (applyTerm c root quiet t q).Meets
      (Scoped c root pending) := by
  rcases exists_target t.field hSound hRoot with
    ⟨found, hTarget, hRelated⟩
  unfold applyTerm
  rw [hTarget]
  cases found with
  | own =>
      exact Building.meets_ok (h.orderBy (.inl rfl) t.direction)
  | related label name related =>
      rcases hRelated label name related rfl with
        ⟨relation, hRelation, hFind⟩
      have hAnnounced : InScope root (label :: pending) q label :=
        .inr (.inr List.mem_cons_self)
      let col : Sql.Column := { qualifier := label, name }
      have hOrdered :
          Scoped c root (label :: pending)
            (q.orderBy col t.direction) :=
        (h.announce label).orderBy hAnnounced t.direction
      exact Listing.meets_join hSound hRoot hRelation hFind
        hOrdered
  | unknown =>
      cases quiet with
      | true => exact Building.meets_ok h
      | false =>
          exact Building.meets_stop q ⟨trivial, id⟩

/- Sorting keeps a query in scope. -/
theorem meets_apply
    (params : Params)
    (quiet : Bool)
    (hSound : c.Sound)
    (hRoot : root ∈ c.resources)
    (h : Scoped c root pending q) :
    (apply c root params quiet q).Meets
      (Scoped c root pending) := by
  unfold apply
  cases params.get? "sort_by" with
  | none => exact Building.meets_ok h
  | some s =>
      exact Building.meets_each
        (fun t _ q hq => meets_applyTerm quiet t hSound hRoot hq)
        h

end Sorting

------------------------------------------------------------
-- Paging
------------------------------------------------------------

namespace Paging

/- An offset mentions nothing. -/
theorem meets_applyOffset
    (params : Params)
    (quiet : Bool)
    (h : Scoped c root pending q) :
    (applyOffset params quiet q).Meets
      (Scoped c root pending) := by
  unfold applyOffset
  cases params.get? "offset" with
  | none => exact Building.meets_ok h
  | some s =>
      cases hBound : bound? s with
      | some n =>
          simp only [hBound]
          exact Building.meets_ok
            (h.extend rfl rfl fun _ hCol => .inl hCol)
      | none =>
          simp only [hBound]
          cases quiet with
          | true => exact Building.meets_ok h
          | false =>
              exact Building.meets_stop q ⟨trivial, id⟩

/- A page mentions nothing. -/
theorem meets_apply
    (params : Params)
    (quiet : Bool)
    (h : Scoped c root pending q) :
    (apply params quiet q).Meets
      (Scoped c root pending) := by
  unfold apply
  cases params.get? "limit" with
  | none => exact Building.meets_ok h
  | some s =>
      cases hBound : bound? s with
      | some n =>
          simp only [hBound]
          exact meets_applyOffset params quiet
            (h.extend rfl rfl fun _ hCol => .inl hCol)
      | none =>
          simp only [hBound]
          cases quiet with
          | true => exact Building.meets_ok h
          | false =>
              exact Building.meets_stop q ⟨trivial, id⟩

end Paging

end RelationalRest
