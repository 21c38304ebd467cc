import RelationalRest.Listing.Paging
import RelationalRest.Listing.Projection
import RelationalRest.Listing.Sorting
import RelationalRest.Proofs.Kind.Operator
import RelationalRest.Proofs.Listing.Parallel
import RelationalRest.Proofs.Sql.Masking

/-
  Queries that are alike stay alike: every step of a listing
  does the same to both, and filters by texts of one form
  demand conditions that differ in present values only.

  An accepted text gives present operands, so nothing of it
  is written in place.

  Key definitions include:
    * `Kind.SameForm`

  Main declarations:
    * `Kind.masked_condition`
    * `Filter.congruent_alike`
    * `Projection.alike_apply`
    * `Sorting.alike_apply`
    * `Paging.alike_apply`
-/

namespace RelationalRest

------------------------------------------------------------
-- Texts of one form
------------------------------------------------------------

namespace Kind

/-
  Two filter texts have one form for a kind: the same operator
  and as many operands.
-/
def SameForm
    (k : Kind)
    (s s' : String) : Prop :=
  (k.resolve s).1 = (k.resolve s').1 ∧
    (Text.split ',' (k.resolve s).2).length =
      (Text.split ',' (k.resolve s').2).length

/- A choice is masked by masking its parts. -/
theorem masked_choice (parts : List Sql.Condition) :
    (choice parts).masked =
      choice (parts.map Sql.Condition.masked) := by
  rcases parts with _ | ⟨c, _ | ⟨d, rest⟩⟩
  · rfl
  · rfl
  · simp [choice, Sql.Condition.masked,
      Sql.Condition.choiceMasked_eq_map]

/-
  A mask leaves of the condition of a filter its column, its
  comparison and the number of its operands.
-/
theorem masked_condition
    {k : Kind}
    {column : Sql.Column}
    {s : String}
    {condition : Sql.Condition}
    (h : k.condition column s = .ok condition) :
    condition.masked =
      choice
        (List.replicate (Text.split ',' (k.resolve s).2).length
          (.compare column (k.resolve s).1.comparison
            (.bool true))) := by
  unfold Kind.condition at h
  by_cases hAccepts : k.accepts (k.resolve s).2 = true
  · simp only [hAccepts, if_true, Except.ok.injEq] at h
    subst h
    rw [masked_choice, List.map_map]
    congr 1
    refine List.eq_replicate_iff.mpr ⟨by simp, ?_⟩
    intro masked hMasked
    rcases List.mem_map.mp hMasked with ⟨part, hPart, rfl⟩
    have hAccepted := List.all_eq_true.mp hAccepts part hPart
    have hPresent :
        (k.operand (k.resolve s).1 part).isNull = false :=
      (standsFor_iff.mpr ⟨hAccepted, rfl⟩).isNull
    simp [Sql.Condition.masked,
      Sql.Value.masked_of_present hPresent]
  · simp [hAccepts] at h

end Kind

------------------------------------------------------------
-- Steps on queries that are alike
------------------------------------------------------------

namespace Sql.Query.Alike

variable {q q' : Query}

/- Selecting one column in both. -/
theorem addColumn
    (h : q.Alike q')
    (col : Column) :
    (q.addColumn col).Alike (q'.addColumn col) := by
  unfold Query.addColumn
  rw [← h.columns]
  split
  · exact h
  · exact { h with columns := by simp [h.columns] }

/- Demanding conditions with one mask. -/
theorem addCondition
    (h : q.Alike q')
    {condition condition' : Condition}
    (hMasked : condition.masked = condition'.masked) :
    (q.addCondition condition).Alike
      (q'.addCondition condition') :=
  { h with
    conditions := by
      simp [Query.addCondition, h.conditions, hMasked] }

/- Ordering both by one column. -/
theorem orderBy
    (h : q.Alike q')
    (col : Column)
    (d : Direction) :
    (q.orderBy col d).Alike (q'.orderBy col d) :=
  { h with ordering := by simp [Query.orderBy, h.ordering] }

/- A label is joined in both or in neither. -/
theorem isJoined
    (h : q.Alike q')
    (label : String) :
    q.isJoined label = q'.isJoined label := by
  simp [Query.isJoined, h.joins]

/- Joining one table to both. -/
theorem leftJoin
    (h : q.Alike q')
    (j : Join) :
    (q.leftJoin j).Alike (q'.leftJoin j) := by
  unfold Query.leftJoin
  rw [h.isJoined]
  split
  · exact h
  · exact { h with joins := by simp [h.joins] }

end Sql.Query.Alike

variable {c : Catalog}
variable {root : Resource}
variable {q q' : Sql.Query}

/- Joining one relation to both. -/
theorem Listing.alike_join
    (root : Resource)
    (label : String)
    (related : Resource)
    (h : q.Alike q') :
    Building.Parallel Sql.Query.Alike
      (join root label related q)
      (join root label related q') := by
  unfold join
  rw [h.isJoined]
  split
  · exact Building.parallel_ok h
  · split
    · exact Building.parallel_stop_left q _ _
    · exact Building.parallel_stop_left q _ _
    · exact Building.parallel_ok (h.leftJoin _)

/- Filters by texts of one form keep queries alike. -/
theorem Filter.congruent_alike :
    Congruent Kind.SameForm Sql.Query.Alike where
  addCondition := by
    intro kind column s s' condition condition' q q' hForm
      hFirst hSecond h
    refine h.addCondition ?_
    rw [Kind.masked_condition hFirst,
      Kind.masked_condition hSecond, hForm.1, hForm.2]
  join := fun h => Listing.alike_join _ _ _ h

namespace Projection

/- Selecting the same columns in both. -/
theorem alike_addColumns
    (qualifier : String)
    (names : List String)
    (h : q.Alike q') :
    (addColumns qualifier names q).Alike
      (addColumns qualifier names q') := by
  unfold addColumns
  induction names generalizing q q' with
  | nil => exact h
  | cons name names ih => exact ih (h.addColumn _)

/- A relation is projected in both alike. -/
theorem alike_applyRelation
    (p : Projection)
    (label : String)
    (relation : Relation)
    (h : q.Alike q') :
    Building.Parallel Sql.Query.Alike
      (p.applyRelation c root label relation q)
      (p.applyRelation c root label relation q') := by
  unfold applyRelation
  by_cases hConsiders : p.considers relation = true
  · simp only [hConsiders, if_true]
    cases c.related relation with
    | error e => exact Building.parallel_stop_left q e _
    | ok related =>
        have hSelected :=
          alike_addColumns label (p.chosen related (some label)) h
        dsimp only
        split
        · exact Listing.alike_join _ _ _ hSelected
        · exact Building.parallel_ok hSelected
  · simp only [hConsiders, Bool.false_eq_true, if_false]
    exact Building.parallel_ok h

/- One projection keeps queries alike. -/
theorem alike_apply
    (p : Projection)
    (h : q.Alike q') :
    Building.Parallel Sql.Query.Alike
      (p.apply c root q) (p.apply c root q') :=
  Building.parallel_each
    (fun entry _ _ _ hq =>
      p.alike_applyRelation entry.1 entry.2 hq)
    (alike_addColumns _ _ h)

end Projection

namespace Sorting

/- One term keeps queries alike. -/
theorem alike_applyTerm
    (quiet : Bool)
    (t : Term)
    (h : q.Alike q') :
    Building.Parallel Sql.Query.Alike
      (applyTerm c root quiet t q)
      (applyTerm c root quiet t q') := by
  unfold applyTerm
  split
  · exact Building.parallel_stop_left q _ _
  · exact Building.parallel_ok (h.orderBy _ _)
  · exact Listing.alike_join _ _ _ (h.orderBy _ _)
  · cases quiet with
    | true => exact Building.parallel_ok h
    | false => exact Building.parallel_stop_left q _ _

/- One parameter to sort by keeps queries alike. -/
theorem alike_apply
    {params params' : Params}
    (hSortBy : params.get? "sort_by" = params'.get? "sort_by")
    (quiet : Bool)
    (h : q.Alike q') :
    Building.Parallel Sql.Query.Alike
      (apply c root params quiet q)
      (apply c root params' quiet q') := by
  unfold apply
  rw [← hSortBy]
  split
  · exact Building.parallel_ok h
  · exact Building.parallel_each
      (fun t _ _ _ hq => alike_applyTerm quiet t hq) h

end Sorting

namespace Paging

/- One offset keeps queries alike. -/
theorem alike_applyOffset
    {params params' : Params}
    (hOffset : params.get? "offset" = params'.get? "offset")
    (quiet : Bool)
    (h : q.Alike q') :
    Building.Parallel Sql.Query.Alike
      (applyOffset params quiet q)
      (applyOffset params' quiet q') := by
  unfold applyOffset
  rw [← hOffset]
  split
  · exact Building.parallel_ok h
  · split
    · exact Building.parallel_ok { h with offset := rfl }
    · cases quiet with
      | true => exact Building.parallel_ok h
      | false => exact Building.parallel_stop_left q _ _

/- One page keeps queries alike. -/
theorem alike_apply
    {params params' : Params}
    (hLimit : params.get? "limit" = params'.get? "limit")
    (hOffset : params.get? "offset" = params'.get? "offset")
    (quiet : Bool)
    (h : q.Alike q') :
    Building.Parallel Sql.Query.Alike
      (apply params quiet q)
      (apply params' quiet q') := by
  unfold apply
  rw [← hLimit]
  split
  · exact Building.parallel_ok h
  · split
    · exact alike_applyOffset hOffset quiet
        { h with limit := rfl }
    · cases quiet with
      | true => exact Building.parallel_ok h
      | false => exact Building.parallel_stop_left q _ _

end Paging

end RelationalRest
