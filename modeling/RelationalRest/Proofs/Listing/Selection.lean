import RelationalRest.Proofs.Listing.Steps

/-
  The columns that a projection selects: each of them once,
  and each a column of the resource itself or of one of its
  relations to one record.

  Main declarations:
    * `Resource.Offers`
    * `Selection`
    * `Projection.error?_apply`
    * `Projection.selection_apply`
-/

namespace RelationalRest

/-
  A resource offers the columns of its own table, and the
  columns of each relation to one record under its label.
-/
def Resource.Offers
    (r : Resource)
    (col : Sql.Column) : Prop :=
  (col.qualifier = r.table.name ∧ col.name ∈ r.owns.keys) ∨
    col.qualifier ∈ r.belongsTo.keys

/- A query selects columns that are offered, each of them once. -/
structure Selection
    (r : Resource)
    (q : Sql.Query) : Prop where
  distinct : q.columns.Nodup
  offered : ∀ col ∈ q.columns, r.Offers col

/- What two steps keep of a query is kept of both together. -/
theorem Building.query_andThen
    {b : Building}
    {step : Sql.Query → Building}
    {P : Sql.Query → Prop}
    (hStep : ∀ q, P q → P (step q).query)
    (h : P b.query) :
    P (b.andThen step).query := by
  unfold andThen
  cases b.error? with
  | none => exact hStep _ h
  | some e => exact h

/- What every step keeps of a query is kept of all steps. -/
theorem Building.query_each
    {α : Type}
    {step : α → Sql.Query → Building}
    {items : List α}
    {P : Sql.Query → Prop}
    (hStep : ∀ a ∈ items, ∀ q, P q → P (step a q).query)
    {q : Sql.Query}
    (h : P q) :
    P (each step items q).query := by
  induction items generalizing q with
  | nil => exact h
  | cons a items ih =>
      have hHead := hStep a List.mem_cons_self q h
      have hRest :
          ∀ b ∈ items, ∀ q, P q → P (step b q).query :=
        fun b hb => hStep b (List.mem_cons_of_mem a hb)
      exact query_andThen (fun _ hNext => ih hRest hNext) hHead

/- Steps that never stop do not stop together. -/
theorem Building.error?_each
    {α : Type}
    {step : α → Sql.Query → Building}
    {items : List α}
    (hStep : ∀ a ∈ items, ∀ q, (step a q).error? = none)
    (q : Sql.Query) :
    (each step items q).error? = none := by
  induction items generalizing q with
  | nil => rfl
  | cons a items ih =>
      have hHead := hStep a List.mem_cons_self q
      unfold each andThen
      rw [hHead]
      exact ih (fun b hb => hStep b (List.mem_cons_of_mem a hb)) _

/- Joining a relation selects nothing. -/
theorem Listing.columns_join
    (root : Resource)
    (label : String)
    (related : Resource)
    (q : Sql.Query) :
    (join root label related q).query.columns = q.columns := by
  unfold join
  by_cases hJoined : q.isJoined label = true
  · simp [hJoined, Building.ok]
  · simp only [hJoined, Bool.false_eq_true, if_false]
    cases Fields.get? root.belongsTo label with
    | none => rfl
    | some relation =>
        cases related.primaryKey with
        | none => rfl
        | some key =>
            simp [Building.ok, Sql.Query.leftJoin,
              Resource.joinOf, hJoined]

namespace Projection

variable {c : Catalog}
variable {r : Resource}
variable {q : Sql.Query}

/- The columns chosen from a resource are its own. -/
theorem mem_owns_of_mem_chosen
    {p : Projection}
    {label : Option String}
    {name : String}
    (h : name ∈ p.chosen r label) :
    name ∈ r.owns.keys := by
  have hDefault :
      ∀ name ∈ defaultColumns r, name ∈ r.owns.keys := by
    intro name hName
    rcases List.mem_map.mp hName with ⟨entry, hEntry, rfl⟩
    have hMem := (List.mem_filter.mp hEntry).1
    exact List.mem_map.mpr ⟨entry, hMem, rfl⟩
  cases p with
  | everything => exact h
  | byDefault => exact hDefault name h
  | requested entries =>
      rcases List.mem_flatMap.mp h with ⟨entry, _, hEntry⟩
      unfold ofEntry at hEntry
      cases hName : nameFor? label entry with
      | none => simp [hName] at hEntry
      | some own =>
          simp only [hName] at hEntry
          by_cases hOwn : r.ownsColumn own = true
          · simp only [hOwn, if_true, List.mem_singleton] at hEntry
            rw [hEntry]
            exact Fields.contains_iff_mem_keys.mp hOwn
          · simp only [hOwn, Bool.false_eq_true, if_false] at hEntry
            split at hEntry
            · exact hDefault name hEntry
            · cases hEntry

/- The selected columns after one more is selected. -/
theorem mem_columns_addColumn_iff
    {col new : Sql.Column} :
    col ∈ (q.addColumn new).columns ↔
      col ∈ q.columns ∨ col = new := by
  unfold Sql.Query.addColumn
  by_cases hMem : new ∈ q.columns
  · simp only [hMem, if_true]
    constructor
    · exact .inl
    · rintro (hOld | rfl)
      · exact hOld
      · exact hMem
  · simp [hMem]

/- Selecting offered columns of a qualifier. -/
theorem selection_addColumns
    {qualifier : String}
    {names : List String}
    (hOffers : ∀ name ∈ names, r.Offers { qualifier, name })
    (h : Selection r q) :
    Selection r (addColumns qualifier names q) := by
  unfold addColumns
  induction names generalizing q with
  | nil => exact h
  | cons name names ih =>
      have hHead := hOffers name List.mem_cons_self
      have hRest :
          ∀ n ∈ names, r.Offers { qualifier, name := n } :=
        fun n hn => hOffers n (List.mem_cons_of_mem name hn)
      refine ih hRest ⟨?_, ?_⟩
      · exact Sql.Query.nodup_columns_addColumn h.distinct _
      · intro col hCol
        rcases mem_columns_addColumn_iff.mp hCol with hOld | rfl
        · exact h.offered col hOld
        · exact hHead

/- The columns of a relation are offered under its label. -/
theorem selection_applyRelation
    (p : Projection)
    (c : Catalog)
    {label : String}
    (relation : Relation)
    (hLabel : label ∈ r.belongsTo.keys)
    (h : Selection r q) :
    Selection r (p.applyRelation c r label relation q).query := by
  unfold applyRelation
  by_cases hConsiders : p.considers relation = true
  · simp only [hConsiders, if_true]
    cases c.related relation with
    | error e => exact h
    | ok related =>
        have hSelected :
            Selection r
              (addColumns label (p.chosen related (some label))
                q) :=
          selection_addColumns (fun _ _ => .inr hLabel) h
        dsimp only
        split
        · refine ⟨?_, ?_⟩
          · rw [Listing.columns_join]
            exact hSelected.distinct
          · rw [Listing.columns_join]
            exact hSelected.offered
        · exact hSelected
  · simp only [hConsiders, Bool.false_eq_true, if_false]
    exact h

/- A projection selects offered columns, each of them once. -/
theorem selection_apply
    (p : Projection)
    (c : Catalog)
    (hNone : q.columns = []) :
    Selection r (p.apply c r q).query := by
  have hStart : Selection r q := by
    refine ⟨?_, ?_⟩
    · rw [hNone]
      exact List.nodup_nil
    · rw [hNone]
      intro col hCol
      cases hCol
  refine Building.query_each ?_
    (selection_addColumns
      (fun _ hName => .inl ⟨rfl, mem_owns_of_mem_chosen hName⟩)
      hStart)
  rintro ⟨label, relation⟩ hEntry q hq
  have hLabel : label ∈ r.belongsTo.keys :=
    List.mem_map.mpr ⟨(label, relation), hEntry, rfl⟩
  exact p.selection_applyRelation c relation hLabel hq

end Projection

------------------------------------------------------------
-- Errors
------------------------------------------------------------

section Errors

variable {c : Catalog}
variable {r related : Resource}
variable {label : String}
variable {relation : Relation}

/- Over a sound catalog, joining a relation never stops. -/
theorem Listing.error?_join
    (hSound : c.Sound)
    (hr : r ∈ c.resources)
    (hRelation : Fields.get? r.belongsTo label = some relation)
    (hFind : c.find? relation.resource = some related)
    (q : Sql.Query) :
    (join r label related q).error? = none := by
  rcases hSound.exists_primaryKey hr hRelation hFind with
    ⟨key, hKey⟩
  rw [join_eq hRelation hKey]
  rfl

/- Over a sound catalog, the step of a relation never stops. -/
theorem Projection.error?_applyRelation
    (p : Projection)
    (hSound : c.Sound)
    (hr : r ∈ c.resources)
    (hRelation : Fields.get? r.belongsTo label = some relation)
    (q : Sql.Query) :
    (p.applyRelation c r label relation q).error? = none := by
  rcases hSound.exists_related hr hRelation with
    ⟨related, hRelated, hFind⟩
  unfold applyRelation
  by_cases hConsiders : p.considers relation = true
  · simp only [hConsiders, if_true, hRelated]
    split
    · exact Listing.error?_join hSound hr hRelation hFind _
    · rfl
  · simp only [hConsiders, Bool.false_eq_true, if_false]
    rfl

/- Over a sound catalog, a projection never stops. -/
theorem Projection.error?_apply
    (p : Projection)
    (hSound : c.Sound)
    (hr : r ∈ c.resources)
    (q : Sql.Query) :
    (p.apply c r q).error? = none := by
  refine Building.error?_each ?_ _
  rintro ⟨label, relation⟩ hEntry q
  exact p.error?_applyRelation hSound hr
    (Fields.get?_eq_some_of_mem
      (hSound.resources r hr).distinct_belongsTo hEntry) q

/- Over a sound catalog, a projection ends in its query. -/
theorem Projection.result_apply
    (p : Projection)
    (hSound : c.Sound)
    (hr : r ∈ c.resources)
    (q : Sql.Query) :
    (p.apply c r q).result = .ok (p.apply c r q).query := by
  simp [Building.result, p.error?_apply hSound hr q]

end Errors

end RelationalRest
