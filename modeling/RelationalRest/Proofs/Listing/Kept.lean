import RelationalRest.Operation.Survey
import RelationalRest.Proofs.Catalog.Declared
import RelationalRest.Proofs.Listing.Selection

/-
  What every step of a listing keeps of a query.  A projection
  selects declared columns, filters demand conditions on
  declared columns, sorting orders by declared columns, and all
  of them join relations of the root; so what these additions
  keep of any query is kept by the whole step.

  Main declarations:
    * `Listing.query_join`
    * `Projection.query_apply`
    * `Filter.query_apply`
    * `Sorting.query_apply`
    * `Paging.query_apply`
    * `Projection.mem_columns_apply_iff`
    * `Survey.query_rowQuery`
-/

namespace RelationalRest

variable {c : Catalog}
variable {root related : Resource}
variable {label : String}
variable {relation : Relation}
variable {P : Sql.Query → Prop}
variable {q : Sql.Query}

/- The resource that a relation is related to is found. -/
theorem Catalog.find?_of_related
    (h : c.related relation = .ok related) :
    c.find? relation.resource = some related := by
  unfold Catalog.related at h
  split at h
  · next found hFound =>
      cases h
      exact hFound
  · cases h

/- A column of a related resource is declared under the label. -/
theorem Catalog.declares_related
    {name : String}
    (hRelation :
      Fields.get? root.belongsTo label = some relation)
    (hFind : c.find? relation.resource = some related)
    (hName : name ∈ related.owns.keys) :
    c.Declares root { qualifier := label, name } :=
  .inr ⟨relation, related, hRelation, hFind, hName⟩

------------------------------------------------------------
-- Joins
------------------------------------------------------------

/- What joining a relation keeps is kept by its step. -/
theorem Listing.query_join
    (hJoin : ∀ q j, Follows c root j → P q → P (q.leftJoin j))
    (hRelation :
      Fields.get? root.belongsTo label = some relation)
    (hFind : c.find? relation.resource = some related)
    (h : P q) :
    P (join root label related q).query := by
  unfold join
  split
  · exact h
  · rw [hRelation]
    cases hKey : related.primaryKey with
    | none => exact h
    | some key =>
        refine hJoin q _ ?_ h
        exact ⟨relation, related, key, hRelation, hFind, hKey, rfl⟩

------------------------------------------------------------
-- Projections
------------------------------------------------------------

namespace Projection

/- What selecting columns keeps is kept by selecting several. -/
theorem query_addColumns
    {qualifier : String}
    {names : List String}
    (hColumn : ∀ q col, c.Declares root col → P q →
      P (q.addColumn col))
    (hNames : ∀ name ∈ names, c.Declares root { qualifier, name })
    (h : P q) :
    P (addColumns qualifier names q) := by
  unfold addColumns
  refine List.foldlRecOn names _ h ?_
  intro q hq name hName
  exact hColumn q _ (hNames name hName) hq

/- What declared columns and joins keep is kept by a projection. -/
theorem query_apply
    (p : Projection)
    (hr : root.Sound)
    (hColumn : ∀ q col, c.Declares root col → P q →
      P (q.addColumn col))
    (hJoin : ∀ q j, Follows c root j → P q → P (q.leftJoin j))
    (h : P q) :
    P (p.apply c root q).query := by
  refine Building.query_each ?_
    (query_addColumns hColumn
      (fun _ hName =>
        Catalog.declares_column (mem_owns_of_mem_chosen hName)) h)
  rintro ⟨label, relation⟩ hEntry q hq
  have hRelation :
      Fields.get? root.belongsTo label = some relation :=
    Fields.get?_eq_some_of_mem hr.distinct_belongsTo hEntry
  dsimp only
  unfold applyRelation
  split
  · cases hRelated : c.related relation with
    | error e => exact hq
    | ok related =>
        have hFind := Catalog.find?_of_related hRelated
        have hSelected :
            P (addColumns label (p.chosen related (some label)) q) :=
          query_addColumns hColumn
            (fun _ hName =>
              Catalog.declares_related hRelation hFind
                (mem_owns_of_mem_chosen hName)) hq
        dsimp only
        split
        · exact
            Listing.query_join hJoin hRelation hFind hSelected
        · exact hSelected
  · exact hq

end Projection

------------------------------------------------------------
-- Selected columns
------------------------------------------------------------

/-
  A projection selects a column: one that it chooses from the
  root, or one that it chooses from the resource of a relation
  which it considers.
-/
def Projection.Selects
    (p : Projection)
    (c : Catalog)
    (r : Resource)
    (col : Sql.Column) : Prop :=
  (col.qualifier = r.table.name ∧ col.name ∈ p.chosen r none) ∨
    ∃ relation related,
      Fields.get? r.belongsTo col.qualifier = some relation ∧
        p.considers relation = true ∧
        c.find? relation.resource = some related ∧
        col.name ∈ p.chosen related (some col.qualifier)

/-
  What a view of a query holds after steps that nothing stops
  and that each add some to it.
-/
theorem Building.mem_view_each_iff
    {α β : Type}
    {view : Sql.Query → List β}
    {step : α → Sql.Query → Building}
    {items : List α}
    {adds : α → Prop}
    {b : β}
    (hNone : ∀ a ∈ items, ∀ q, (step a q).error? = none)
    (hStep : ∀ a ∈ items, ∀ q,
      b ∈ view (step a q).query ↔ b ∈ view q ∨ adds a)
    (q : Sql.Query) :
    b ∈ view (each step items q).query ↔
      b ∈ view q ∨ ∃ a ∈ items, adds a := by
  induction items generalizing q with
  | nil => simp [each, ok]
  | cons a items ih =>
      have hHead := hStep a List.mem_cons_self q
      have hRest :=
        ih (fun b hb => hNone b (List.mem_cons_of_mem a hb))
          (fun b hb => hStep b (List.mem_cons_of_mem a hb))
          (step a q).query
      unfold each andThen
      rw [hNone a List.mem_cons_self q]
      dsimp only
      rw [hRest, hHead, or_assoc]
      simp

namespace Projection

/- Selected columns are declared. -/
theorem Selects.declares
    {p : Projection}
    {col : Sql.Column}
    (h : p.Selects c root col) :
    c.Declares root col := by
  rcases h with ⟨hTable, hName⟩ | ⟨relation, related, hRelation,
    _, hFind, hName⟩
  · exact .inl ⟨hTable, mem_owns_of_mem_chosen hName⟩
  · exact .inr ⟨relation, related, hRelation, hFind,
      mem_owns_of_mem_chosen hName⟩

/- The columns after some of a qualifier are selected. -/
theorem mem_columns_addColumns_iff
    {qualifier : String}
    {names : List String}
    {col : Sql.Column} :
    col ∈ (addColumns qualifier names q).columns ↔
      col ∈ q.columns ∨
        col.qualifier = qualifier ∧ col.name ∈ names := by
  unfold addColumns
  induction names generalizing q with
  | nil => simp
  | cons name names ih =>
      rw [List.foldl_cons, ih, mem_columns_addColumn_iff]
      have hCol :
          col = ⟨qualifier, name⟩ ↔
            col.qualifier = qualifier ∧ col.name = name := by
        cases col
        simp
      rw [hCol, List.mem_cons]
      tauto

/- The columns after the step of a relation. -/
theorem mem_columns_applyRelation_iff
    {p : Projection}
    {col : Sql.Column}
    (hFind : c.find? relation.resource = some related) :
    col ∈ (p.applyRelation c root label relation q).query.columns ↔
      col ∈ q.columns ∨
        p.considers relation = true ∧ col.qualifier = label ∧
          col.name ∈ p.chosen related (some label) := by
  unfold applyRelation
  by_cases hConsiders : p.considers relation = true
  · have hRelated : c.related relation = .ok related :=
      Catalog.related_of_find? hFind
    simp only [hConsiders, if_true, hRelated, true_and]
    rw [← mem_columns_addColumns_iff]
    split
    · rw [Listing.columns_join]
    · rfl
  · simp [hConsiders, Building.ok]

/-
  Over a sound catalog a view of a query holds, after a
  projection, what selecting columns of the root leaves in it
  and what the relations add.
-/
theorem mem_view_apply_iff
    {β : Type}
    {view : Sql.Query → List β}
    {adds : String → Relation → Resource → Prop}
    {b : β}
    (p : Projection)
    (hSound : c.Sound)
    (hr : root ∈ c.resources)
    (hStep : ∀ label relation related,
      Fields.get? root.belongsTo label = some relation →
        c.find? relation.resource = some related →
          ∀ q : Sql.Query,
            b ∈ view (p.applyRelation c root label relation q).query ↔
              b ∈ view q ∨ adds label relation related)
    (q : Sql.Query) :
    b ∈ view (p.apply c root q).query ↔
      b ∈ view (addColumns root.table.name (p.chosen root none) q) ∨
        ∃ label relation related,
          Fields.get? root.belongsTo label = some relation ∧
            c.find? relation.resource = some related ∧
            adds label relation related := by
  have hFound :
      ∀ entry ∈ root.belongsTo,
        Fields.get? root.belongsTo entry.1 = some entry.2 :=
    fun _ hEntry =>
      Fields.get?_eq_some_of_mem
        (hSound.resources root hr).distinct_belongsTo hEntry
  have hEach :
      ∀ entry ∈ root.belongsTo, ∀ q : Sql.Query,
        b ∈ view (p.applyRelation c root entry.1 entry.2 q).query ↔
          b ∈ view q ∨
            ∃ related, c.find? entry.2.resource = some related ∧
              adds entry.1 entry.2 related := by
    rintro ⟨label, relation⟩ hEntry q
    rcases hSound.exists_related hr (hFound _ hEntry) with
      ⟨related, _, hFind⟩
    rw [hStep label relation related (hFound _ hEntry) hFind]
    simp [hFind]
  unfold apply
  rw [Building.mem_view_each_iff
    (fun entry hEntry q =>
      p.error?_applyRelation hSound hr (hFound entry hEntry) q)
    hEach]
  refine or_congr_right ?_
  constructor
  · rintro ⟨⟨label, relation⟩, hEntry, related, hFind, hAdds⟩
    exact ⟨label, relation, related, hFound _ hEntry, hFind, hAdds⟩
  · rintro ⟨label, relation, related, hRelation, hFind, hAdds⟩
    exact ⟨(label, relation), Fields.mem_of_get?_eq_some hRelation,
      related, hFind, hAdds⟩

/-
  Over a sound catalog a projection adds exactly the columns
  that it selects.
-/
theorem mem_columns_apply_iff
    {p : Projection}
    {col : Sql.Column}
    (hSound : c.Sound)
    (hr : root ∈ c.resources) :
    col ∈ (p.apply c root q).query.columns ↔
      col ∈ q.columns ∨ p.Selects c root col := by
  rw [p.mem_view_apply_iff hSound hr fun label relation related
    _ hFind _ => mem_columns_applyRelation_iff hFind,
    mem_columns_addColumns_iff, or_assoc]
  refine or_congr_right (or_congr_right ?_)
  constructor
  · rintro ⟨label, relation, related, hRelation, hFind, hConsiders,
      rfl, hName⟩
    exact ⟨relation, related, hRelation, hConsiders, hFind, hName⟩
  · rintro ⟨relation, related, hRelation, hConsiders, hFind, hName⟩
    exact ⟨col.qualifier, relation, related, hRelation, hFind,
      hConsiders, rfl, hName⟩

end Projection

------------------------------------------------------------
-- Filters
------------------------------------------------------------

namespace Filter

variable
  (hCondition : ∀ q condition,
    (∀ col ∈ condition.columns, c.Declares root col) → P q →
      P (q.addCondition condition))

include hCondition

/- What conditions keep is kept by the filter of a column. -/
theorem query_applyColumn
    (field : OwnedField)
    {col : Sql.Column}
    (value : String)
    (hCol : c.Declares root col)
    (h : P q) :
    P (applyColumn field col value q).query := by
  unfold applyColumn
  cases hMade : field.type.kind.condition col value with
  | error e => exact h
  | ok condition =>
      refine hCondition q condition ?_ h
      intro col' hCol'
      rw [Kind.columns_of_condition hMade hCol']
      exact hCol

/- What conditions keep is kept by the filters of a relation. -/
theorem query_applyLabelled
    (requests : Fields String)
    (hRelation :
      Fields.get? root.belongsTo label = some relation)
    (hFind : c.find? relation.resource = some related)
    (h : P q) :
    P (applyLabelled related label requests q).query := by
  refine Building.query_each ?_ h
  intro name _ q hq
  unfold applyLabelledField
  cases Fields.get? requests name with
  | none => exact hq
  | some value =>
      cases hField : Fields.get? related.owns name with
      | none => exact hq
      | some field =>
          refine query_applyColumn hCondition field value ?_ hq
          exact Catalog.declares_related hRelation hFind
            (Fields.mem_keys_of_get?_eq_some hField)

/- What conditions and joins keep is kept by filters. -/
theorem query_apply
    (hJoin : ∀ q j, Follows c root j → P q → P (q.leftJoin j))
    (requests : Fields String)
    (h : P q) :
    P (apply c root requests q).query := by
  refine Building.query_each ?_ h
  intro name _ q hq
  unfold applyField
  cases Fields.get? requests name with
  | none => exact hq
  | some value =>
      cases hField : Fields.get? root.owns name with
      | some field =>
          exact query_applyColumn hCondition field value
            (Catalog.declares_column
              (Fields.mem_keys_of_get?_eq_some hField)) hq
      | none =>
          dsimp only
          unfold applyRelation
          cases hRelation : Fields.get? root.belongsTo name with
          | none => exact hq
          | some relation =>
              dsimp only
              cases hRelated : c.related relation with
              | error e => exact hq
              | ok related =>
                  have hFind := Catalog.find?_of_related hRelated
                  exact Building.query_andThen
                    (fun _ hNext =>
                      Listing.query_join hJoin hRelation hFind hNext)
                    (query_applyLabelled hCondition _ hRelation
                      hFind hq)

end Filter

------------------------------------------------------------
-- Sorting and paging
------------------------------------------------------------

namespace Sorting

/- What a field to sort by stands for is declared. -/
theorem declares_of_target
    {field : String}
    {found : Target}
    (h : target c root field = .ok found) :
    (found = .own → field ∈ root.owns.keys) ∧
      ∀ label name related, found = .related label name related →
        ∃ relation,
          Fields.get? root.belongsTo label = some relation ∧
            c.find? relation.resource = some related ∧
            name ∈ related.owns.keys := by
  unfold target at h
  by_cases hOwn : root.ownsColumn field = true
  · rw [if_pos hOwn] at h
    cases h
    refine ⟨fun _ => Fields.contains_iff_mem_keys.mp hOwn, ?_⟩
    intro label name related hEq
    cases hEq
  · rw [if_neg hOwn] at h
    unfold relatedTarget at h
    split at h
    · next label name _ =>
        split at h
        · cases h
          simp
        · next relation hRelation =>
            split at h
            · cases h
            · next related hRelated =>
                split at h
                · next hColumn =>
                    cases h
                    refine ⟨by simp, ?_⟩
                    rintro _ _ _ ⟨⟩
                    exact ⟨relation, hRelation,
                      Catalog.find?_of_related hRelated,
                      Fields.contains_iff_mem_keys.mp hColumn⟩
                · cases h
                  simp
    · cases h
      simp

/- What orderings and joins keep is kept by sorting. -/
theorem query_apply
    (hOrder : ∀ q col d, c.Declares root col → P q →
      P (q.orderBy col d))
    (hJoin : ∀ q j, Follows c root j → P q → P (q.leftJoin j))
    (params : Params)
    (quiet : Bool)
    (h : P q) :
    P (apply c root params quiet q).query := by
  unfold apply
  split
  · exact h
  · refine Building.query_each ?_ h
    intro t _ q hq
    unfold applyTerm
    cases hTarget : target c root t.field with
    | error e => exact hq
    | ok found =>
        have hDeclared := declares_of_target hTarget
        cases found with
        | own =>
            exact hOrder q _ t.direction
              (Catalog.declares_column (hDeclared.1 rfl)) hq
        | related label name related =>
            rcases hDeclared.2 label name related rfl with
              ⟨relation, hRelation, hFind, hName⟩
            exact Listing.query_join hJoin hRelation hFind
              (hOrder q _ t.direction
                (Catalog.declares_related hRelation hFind hName) hq)
        | unknown =>
            dsimp only
            split
            · exact hq
            · exact hq

end Sorting

/- What bounds keep is kept by paging. -/
theorem Paging.query_apply
    (hLimit : ∀ q n, P q → P { q with limit := some n })
    (hOffset : ∀ q n, P q → P { q with offset := some n })
    (params : Params)
    (quiet : Bool)
    (h : P q) :
    P (apply params quiet q).query := by
  have hLater :
      ∀ q, P q → P (applyOffset params quiet q).query := by
    intro q hq
    unfold applyOffset
    split
    · exact hq
    · split
      · exact hOffset q _ hq
      · split
        · exact hq
        · exact hq
  unfold apply
  split
  · exact h
  · split
    · exact hLater _ (hLimit q _ h)
    · split
      · exact h
      · exact h

------------------------------------------------------------
-- Surveys
------------------------------------------------------------

/- What filters keep is kept of the query for live records. -/
theorem Survey.query_countQuery
    (hCondition : ∀ q condition,
      (∀ col ∈ condition.columns, c.Declares root col) → P q →
        P (q.addCondition condition))
    (hJoin : ∀ q j, Follows c root j → P q → P (q.leftJoin j))
    {params : Params}
    (hStart : P root.liveQuery)
    (h : countQuery c root params = .ok q) :
    P q := by
  have hFiltered :=
    Filter.query_apply hCondition hJoin params.pairs hStart
  rwa [Building.result_eq_ok_iff.mp h] at hFiltered

/- What the later steps keep of a projection is kept to the end. -/
theorem Survey.query_rowQuery
    (hCondition : ∀ q condition,
      (∀ col ∈ condition.columns, c.Declares root col) → P q →
        P (q.addCondition condition))
    (hOrder : ∀ q col d, c.Declares root col → P q →
      P (q.orderBy col d))
    (hJoin : ∀ q j, Follows c root j → P q → P (q.leftJoin j))
    (hLimit : ∀ q n, P q → P { q with limit := some n })
    (hOffset : ∀ q n, P q → P { q with offset := some n })
    {params : Params}
    (hProjected :
      P ((Projection.ofParams params).apply c root
        root.liveQuery).query)
    (h : rowQuery c root params = .ok q) :
    P q := by
  have hFiltered := Building.query_andThen (fun _ hNext =>
    Filter.query_apply hCondition hJoin params.pairs hNext)
    hProjected
  have hSorted := Building.query_andThen (fun _ hNext =>
    Sorting.query_apply hOrder hJoin params false hNext) hFiltered
  have hPaged := Building.query_andThen (fun _ hNext =>
    Paging.query_apply hLimit hOffset params false hNext) hSorted
  rwa [Building.result_eq_ok_iff.mp h] at hPaged

end RelationalRest
