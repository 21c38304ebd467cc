import RelationalRest.Proofs.Listing.Kept
import RelationalRest.Proofs.Listing.Parallel

/-
  A query covers another if both demand the same conditions
  and it joins all labels that the other joins.  Projections
  and sorting only add joins, so a query that they extend is
  covered; filters by one request keep a query covered.

  What filters add to a bare query leaves it bare: they select
  nothing, order nothing and set no page.

  Key definitions include:
    * `Sql.Query.Covers`
    * `Sql.Query.Bare`

  Main declarations:
    * `Projection.covers_apply`
    * `Sorting.covers_apply`
    * `Paging.covers_apply`
    * `Filter.congruent_covers`
    * `Sql.Query.Bare.addCondition`
    * `Sql.Query.Bare.leftJoin`
-/

namespace RelationalRest

------------------------------------------------------------
-- Covered queries
------------------------------------------------------------

/- A query demands what another does, and joins all its labels. -/
structure Sql.Query.Covers (q k : Query) : Prop where
  conditions : q.conditions = k.conditions
  labels : ∀ label ∈ k.labels, label ∈ q.labels

namespace Sql.Query.Covers

variable {q k l : Query}

/- Every query covers itself. -/
theorem refl (q : Query) : q.Covers q where
  conditions := rfl
  labels := fun _ h => h

/- What a covered query covers is covered. -/
theorem trans
    (hq : q.Covers k)
    (hk : k.Covers l) :
    q.Covers l where
  conditions := hq.conditions.trans hk.conditions
  labels := fun label h => hq.labels label (hk.labels label h)

/- Selecting a column changes nothing that matters. -/
theorem addColumn
    (q : Query)
    (col : Column) :
    (q.addColumn col).Covers q := by
  unfold Query.addColumn
  split
  · exact refl q
  · exact ⟨rfl, fun _ h => h⟩

/- Joining a table joins one more label. -/
theorem leftJoin
    (q : Query)
    (j : Join) :
    (q.leftJoin j).Covers q := by
  unfold Query.leftJoin
  split
  · exact refl q
  · refine ⟨rfl, ?_⟩
    intro label h
    simpa [Query.labels] using Or.inl h

end Sql.Query.Covers

------------------------------------------------------------
-- Joins
------------------------------------------------------------

variable {c : Catalog}
variable {root related : Resource}
variable {label : String}
variable {q : Sql.Query}

namespace Listing

/- Joining a relation extends a query. -/
theorem covers_join
    (root : Resource)
    (label : String)
    (related : Resource)
    (q : Sql.Query) :
    (join root label related q).query.Covers q := by
  unfold join
  split
  · exact .refl q
  · split
    · exact .refl q
    · exact .refl q
    · exact .leftJoin q _

/- What is joined is joined under its label. -/
theorem mem_labels_join
    (h : (join root label related q).error? = none) :
    label ∈ (join root label related q).query.labels := by
  unfold join at h ⊢
  by_cases hJoined : q.isJoined label = true
  · simp only [hJoined, if_true]
    exact Scoped.isJoined_iff.mp hJoined
  · simp only [hJoined, Bool.false_eq_true, if_false] at h ⊢
    split at h
    · cases h
    · cases h
    · simp [Building.ok, Sql.Query.leftJoin, Sql.Query.labels,
        Resource.joinOf, hJoined]

/- No other label is joined. -/
theorem mem_labels_of_join
    {other : String}
    (h : other ∈ (join root label related q).query.labels) :
    other ∈ q.labels ∨ other = label := by
  unfold join at h
  by_cases hJoined : q.isJoined label = true
  · simp only [hJoined, if_true] at h
    exact .inl h
  · simp only [hJoined, Bool.false_eq_true, if_false] at h
    split at h
    · exact .inl h
    · exact .inl h
    · simpa [Building.ok, Sql.Query.leftJoin, Sql.Query.labels,
        Resource.joinOf, hJoined] using h

end Listing

------------------------------------------------------------
-- Steps
------------------------------------------------------------

/- A projection demands nothing. -/
theorem Projection.covers_apply
    (p : Projection)
    (c : Catalog)
    (root : Resource)
    (q : Sql.Query) :
    (p.apply c root q).query.Covers q := by
  have hColumns :
      ∀ (qualifier : String) (names : List String)
        (q : Sql.Query),
        (addColumns qualifier names q).Covers q := by
    intro qualifier names
    unfold addColumns
    induction names with
    | nil => exact fun q => .refl q
    | cons name names ih =>
        exact fun q => (ih _).trans (.addColumn q _)
  refine Building.query_each (P := fun next => next.Covers q) ?_
    (hColumns _ _ q)
  intro entry _ next hNext
  dsimp only
  unfold applyRelation
  split
  · split
    · exact hNext
    · dsimp only
      split
      · exact (Listing.covers_join _ _ _ _).trans
          ((hColumns _ _ next).trans hNext)
      · exact (hColumns _ _ next).trans hNext
  · exact hNext

/- Sorting demands nothing. -/
theorem Sorting.covers_apply
    (c : Catalog)
    (root : Resource)
    (params : Params)
    (quiet : Bool)
    (q : Sql.Query) :
    (apply c root params quiet q).query.Covers q :=
  query_apply (P := fun next => next.Covers q)
    (fun _ _ _ _ h => ⟨h.conditions, h.labels⟩)
    (fun next j _ h => (Sql.Query.Covers.leftJoin next j).trans h)
    params quiet (.refl q)

/- A page demands nothing. -/
theorem Paging.covers_apply
    (params : Params)
    (quiet : Bool)
    (q : Sql.Query) :
    (apply params quiet q).query.Covers q :=
  query_apply (P := fun next => next.Covers q)
    (fun _ _ h => ⟨h.conditions, h.labels⟩)
    (fun _ _ h => ⟨h.conditions, h.labels⟩)
    params quiet (.refl q)

/- Filters by the same texts keep a query covered. -/
theorem Filter.congruent_covers :
    Congruent (fun _ s s' => s = s') Sql.Query.Covers where
  addCondition := by
    intro kind column s s' condition condition' q k hTexts
      hFirst hSecond h
    subst hTexts
    rw [hFirst] at hSecond
    cases hSecond
    refine ⟨?_, h.labels⟩
    simp [Sql.Query.addCondition, h.conditions]
  join := by
    intro root label related q k h hFirst _
    have hRows := Listing.covers_join root label related q
    have hCount := Listing.covers_join root label related k
    refine ⟨?_, ?_⟩
    · rw [hRows.conditions, hCount.conditions, h.conditions]
    · intro other hOther
      rcases Listing.mem_labels_of_join hOther with hOld | rfl
      · exact hRows.labels other (h.labels other hOld)
      · exact Listing.mem_labels_join hFirst

------------------------------------------------------------
-- Bare queries
------------------------------------------------------------

/- A query without a projection, an ordering and a page. -/
structure Sql.Query.Bare (q : Query) : Prop where
  columns : q.columns = []
  ordering : q.ordering = []
  limit : q.limit = none
  offset : q.offset = none

namespace Sql.Query.Bare

/- A condition keeps a query bare. -/
theorem addCondition
    (h : q.Bare)
    (condition : Sql.Condition) :
    (q.addCondition condition).Bare :=
  ⟨h.columns, h.ordering, h.limit, h.offset⟩

/- Joining a table keeps a query bare. -/
theorem leftJoin
    (h : q.Bare)
    (j : Sql.Join) :
    (q.leftJoin j).Bare := by
  unfold Sql.Query.leftJoin
  split
  · exact h
  · exact ⟨h.columns, h.ordering, h.limit, h.offset⟩

end Sql.Query.Bare

end RelationalRest
