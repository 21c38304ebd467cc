import RelationalRest.Operation.Survey
import RelationalRest.Proofs.Listing.SelfContained
import RelationalRest.Proofs.Operation.Conversation
import RelationalRest.Proofs.Operation.Refusals

/-
  What the operations ask of a store and how they end, over a
  catalog that declarations resolve to.  Every query that is
  sent brings along the tables that it mentions, and no
  operation ends with an error of the declared resources.

  Key definitions include:
    * `Call.Reads`
    * `Creation.Inserts`

  Main declarations:
    * `Lookup.meets_find`
    * `Survey.meets_list`
    * `Creation.meets_insertAll`
    * `Creation.meets_create`
    * `Removal.meets_remove`
    * `Catalog.Resolved.queries_self_contained`
    * `Catalog.Resolved.no_internal_error`
-/

namespace RelationalRest

variable {c : Catalog}
variable {r : Resource}

/-
  A call for rows or for a count sends a self-contained query
  for records of a resource.
-/
def Call.Reads
    (c : Catalog)
    (r : Resource) : Call → Prop
| .rows s =>
    ∃ q : Sql.Query, q.SelfContained c r ∧ s = q.select
| .count s =>
    ∃ q : Sql.Query, q.SelfContained c r ∧ s = q.count
| .change _ => False

------------------------------------------------------------
-- Lookups
------------------------------------------------------------

namespace Lookup

/- The query of a lookup is self-contained. -/
theorem answers_query
    (text : String)
    (params : Params)
    (hSound : c.Sound)
    (hr : r ∈ c.resources) :
    RequestError.Answers (Sql.Query.SelfContained c r)
      (query c r text params) := by
  have hKey := r.refusing_keyValue text
  unfold query
  cases hFound : r.keyValue text with
  | error e => exact hKey.refusal hFound
  | ok found =>
      obtain ⟨key, value⟩ := found
      have hStart :=
        (r.scoped_liveQuery c).addEqual key value
      have hMeets :=
        (Projection.ofParams params).meets_apply hSound hr hStart
      have hSelf :=
        hMeets.mono fun _ hq =>
          hq.selfContained (hSound.resources r hr)
      exact hSelf.answers

/- A lookup reads, and ends in no internal error. -/
theorem meets_find
    (text : String)
    (request : Request)
    (hSound : c.Sound)
    (hr : r ∈ c.resources) :
    (find c r text request).Meets (Call.Reads c r) Answered := by
  have hQuery := answers_query text request.params hSound hr
  unfold find
  cases hFound : query c r text request.params with
  | error e => exact (hQuery.refusal hFound).external
  | ok q =>
      refine ⟨⟨q, hQuery.of_ok hFound, rfl⟩, ?_⟩
      rintro (_ | (_ | ⟨row, rows⟩))
      · exact id
      · exact id
      · exact trivial

end Lookup

------------------------------------------------------------
-- Surveys
------------------------------------------------------------

namespace Survey

/- The query for a page is in scope. -/
theorem scoped_rowQuery
    (params : Params)
    (hSound : c.Sound)
    (hr : r ∈ c.resources) :
    RequestError.Answers (Scoped c r []) (rowQuery c r params) := by
  have hProjected :=
    (Projection.ofParams params).meets_apply hSound hr
      (r.scoped_liveQuery c)
  have hFiltered := hProjected.andThen fun _ hq =>
    Filter.meets_apply params.pairs hSound hr hq
  have hSorted := hFiltered.andThen fun _ hq =>
    Sorting.meets_apply params false hSound hr hq
  have hPaged := hSorted.andThen fun _ hq =>
    Paging.meets_apply params false hq
  exact hPaged.answers

/- The query for the count on all pages is in scope. -/
theorem scoped_countQuery
    (params : Params)
    (hSound : c.Sound)
    (hr : r ∈ c.resources) :
    RequestError.Answers (Scoped c r []) (countQuery c r params) :=
  (Filter.meets_apply params.pairs hSound hr
    (r.scoped_liveQuery c)).answers

/- The query for a page is self-contained. -/
theorem answers_rowQuery
    (params : Params)
    (hSound : c.Sound)
    (hr : r ∈ c.resources) :
    RequestError.Answers (Sql.Query.SelfContained c r)
      (rowQuery c r params) :=
  (scoped_rowQuery params hSound hr).mono fun _ hq =>
    hq.selfContained (hSound.resources r hr)

/- The query for the count on all pages is self-contained. -/
theorem answers_countQuery
    (params : Params)
    (hSound : c.Sound)
    (hr : r ∈ c.resources) :
    RequestError.Answers (Sql.Query.SelfContained c r)
      (countQuery c r params) :=
  (scoped_countQuery params hSound hr).mono fun _ hq =>
    hq.selfContained (hSound.resources r hr)

/- A survey reads, and ends in no internal error. -/
theorem meets_list
    (baseUrl : String)
    (request : Request)
    (hSound : c.Sound)
    (hr : r ∈ c.resources) :
    (list c baseUrl r request).Meets
      (Call.Reads c r) Answered := by
  have hRows := answers_rowQuery request.params hSound hr
  have hCount := answers_countQuery request.params hSound hr
  unfold list
  cases hRowQuery : rowQuery c r request.params with
  | error e =>
      simp only [hRowQuery]
      exact (hRows.refusal hRowQuery).external
  | ok rows =>
      cases hCountQuery : countQuery c r request.params with
      | error e =>
          simp only [hRowQuery, hCountQuery]
          exact (hCount.refusal hCountQuery).external
      | ok count =>
          simp only [hRowQuery, hCountQuery]
          refine ⟨⟨rows, hRows.of_ok hRowQuery, rfl⟩, ?_⟩
          rintro (_ | found)
          · exact id
          · refine ⟨⟨count, hCount.of_ok hCountQuery, rfl⟩, ?_⟩
            rintro (_ | total)
            · exact id
            · exact trivial

end Survey

------------------------------------------------------------
-- Creations
------------------------------------------------------------

namespace Creation

section Insertions

variable {P : Call → Prop}
variable {Q : Except RequestError Created → Prop}

/-
  Reading records back meets what holds of its query, of every
  success, of every failure of the store and of every error of
  building the query.
-/
theorem meets_expand
    {ids : List Json}
    (request : Request)
    (many : Bool)
    (location : Option String)
    (hDone : ∀ created, Q (.ok created))
    (hFailed : ∀ violation, Q (.error (.createFailed violation)))
    (hQuery : ∀ q, expansion c r ids = .ok q → P (.rows q.select))
    (hError : ∀ e, expansion c r ids = .error e → Q (.error e)) :
    (expand c r request many ids location).Meets P Q := by
  unfold expand
  by_cases hAsked :
      request.params.contains "expand" = true ∧ ids ≠ []
  · rw [if_pos hAsked]
    cases hFound : expansion c r ids with
    | error e => exact hError e hFound
    | ok q =>
        refine ⟨hQuery q hFound, ?_⟩
        rintro (e | rows)
        · exact hFailed _
        · exact hDone _
  · rw [if_neg hAsked]
    exact hDone _

/- An insertion meets what holds of it and of reading back. -/
theorem meets_insertAll
    {values : List (Fields Sql.Value)}
    (baseUrl : String)
    (request : Request)
    (many : Bool)
    (hInsert :
      ∀ call : Call,
        call.statement = (insertion r values).statement → P call)
    (hDone : ∀ created, Q (.ok created))
    (hFailed : ∀ violation, Q (.error (.createFailed violation)))
    (hQuery :
      ∀ ids q, expansion c r ids = .ok q → P (.rows q.select))
    (hError :
      ∀ key ids e, r.primaryKey = some key →
        expansion c r ids = .error e → Q (.error e)) :
    (insertAll c baseUrl r request many values).Meets P Q := by
  unfold insertAll
  cases hKey : r.primaryKey with
  | none =>
      refine ⟨hInsert _ rfl, ?_⟩
      rintro (e | count)
      · exact hFailed _
      · exact hDone _
  | some key =>
      refine ⟨hInsert _ rfl, ?_⟩
      rintro (e | inserted)
      · exact hFailed _
      · exact meets_expand request many _ hDone hFailed (hQuery _)
          fun e hFound => hError key _ e hKey hFound

end Insertions

/- The query that reads records back is self-contained. -/
theorem answers_expansion
    (ids : List Json)
    (hSound : c.Sound)
    (hr : r ∈ c.resources) :
    RequestError.Answers (Sql.Query.SelfContained c r)
      (expansion c r ids) := by
  have hKey := r.refusing_keyKind
  unfold expansion
  cases hFound : r.keyKind with
  | error e => exact hKey.refusal hFound
  | ok found =>
      obtain ⟨key, kind⟩ := found
      have hMeets :=
        Projection.byDefault.meets_apply hSound hr
          (Scoped.start c r)
      have hAnswers := hMeets.answers
      dsimp only
      cases hQuery :
          (Projection.byDefault.apply c r
            { root := r.table }).result with
      | error e => exact hAnswers.refusal hQuery
      | ok q =>
          have hScoped := hAnswers.of_ok hQuery
          refine (hScoped.addCondition ?_).selfContained
            (hSound.resources r hr)
          intro col hCol
          rw [Sql.Condition.columns,
            Sql.Condition.mem_choiceColumns_iff] at hCol
          rcases hCol with ⟨part, hPart, hCol⟩
          rcases List.mem_map.mp hPart with ⟨value, _, rfl⟩
          rw [Sql.Condition.columns_equal] at hCol
          rw [List.mem_singleton.mp hCol]
          exact .inl rfl

/- A call inserts rows of a resource. -/
def Inserts
    (r : Resource)
    (call : Call) : Prop :=
  ∃ rows, call.statement = (insertion r rows).statement

/- A creation inserts or reads, and ends in no internal error. -/
theorem meets_create
    (baseUrl : String)
    (now : Timestamp)
    (request : Request)
    (body : Json)
    (hSound : c.Sound)
    (hr : r ∈ c.resources) :
    (create c baseUrl now r request body).Meets
      (fun call => Inserts r call ∨ call.Reads c r)
      Answered := by
  have hRecords := refusing_records body
  unfold create
  cases hFound : records body with
  | error e => exact (hRecords.refusal hFound).external
  | ok found =>
      obtain ⟨items, many⟩ := found
      have hRows := refusing_rows r now request.actor items
      dsimp only
      cases hRow : rows r now request.actor items with
      | error e => exact (hRows.refusal hRow).external
      | ok rows =>
          have hQuery := fun ids => answers_expansion ids hSound hr
          exact meets_insertAll baseUrl request many
            (fun _ hCall => .inl ⟨rows, hCall⟩)
            (fun _ => trivial) (fun _ => id)
            (fun ids q hFound =>
              .inr ⟨q, (hQuery ids).of_ok hFound, rfl⟩)
            fun _ ids _ _ hFound =>
              ((hQuery ids).refusal hFound).external

end Creation

------------------------------------------------------------
-- Removals
------------------------------------------------------------

namespace Removal

/- A removal ends in no internal error. -/
theorem meets_remove
    (r : Resource)
    (text : String)
    (request : Request) :
    (remove r text request).Meets
      (fun _ => True) Answered := by
  have hConditions := refusing_conditions r text request.actor
  unfold remove
  cases hFound : conditions r text request.actor with
  | error e => exact (hConditions.refusal hFound).external
  | ok found =>
      refine ⟨trivial, ?_⟩
      rintro (_ | (_ | count))
      · exact id
      · exact id
      · exact trivial

end Removal

------------------------------------------------------------
-- Resolved catalogs
------------------------------------------------------------

/- A request for ideas with their members, by a member's name. -/
def Request.sample : Request where
  path := "/entries"
  params := .parse "fields=title&creator=name=x&sort_by=creator.id"
  actor := none

namespace Catalog.Resolved

variable {σ : Type}

/-
  Whatever is asked and whatever the store answers, every
  query that a survey, a lookup or a creation sends is
  self-contained; a creation sends its insertion besides.
-/
theorem queries_self_contained
    (hResolved : c.Resolved)
    (hr : r ∈ c.resources)
    (baseUrl : String)
    (now : Timestamp)
    (request : Request)
    (text : String)
    (body : Json)
    (store : Store σ)
    (state : σ) :
    (∀ call ∈ (Survey.list c baseUrl r request).sent store state,
      call.Reads c r) ∧
    (∀ call ∈ (Lookup.find c r text request).sent store state,
      call.Reads c r) ∧
    (∀ call ∈
        (Creation.create c baseUrl now r request body).sent
          store state,
      Creation.Inserts r call ∨ call.Reads c r) := by
  have hSound := hResolved.sound
  refine ⟨?_, ?_, ?_⟩
  · have hList := Survey.meets_list baseUrl request hSound hr
    exact hList.of_mem_sent store state
  · have hFind := Lookup.meets_find text request hSound hr
    exact hFind.of_mem_sent store state
  · have hCreate :=
      Creation.meets_create baseUrl now request body hSound hr
    exact hCreate.of_mem_sent store state

/- A survey of ideas by the names of members, and what it sends. -/
theorem queries_self_contained_sample :
    ((Survey.list sample "" Resource.sample Request.sample).sent
        Store.empty ()).length = 2 ∧
      ∀ call ∈
          (Survey.list sample "" Resource.sample
            Request.sample).sent Store.empty (),
        call.Reads sample Resource.sample := by
  refine ⟨rfl, ?_⟩
  have hSample :=
    queries_self_contained sample_resolved mem_sample "" ⟨0, 0, 0⟩
      Request.sample "1" .null Store.empty ()
  exact hSample.1

/-
  Whatever is asked and whatever the store answers, no
  operation ends with an internal error.
-/
theorem no_internal_error
    (hResolved : c.Resolved)
    (hr : r ∈ c.resources)
    {e : RequestError}
    (hInternal : e.Internal)
    (baseUrl : String)
    (now : Timestamp)
    (request : Request)
    (text : String)
    (body : Json)
    (store : Store σ)
    (state : σ) :
    ((Survey.list c baseUrl r request).run store state).1 ≠
        .error e ∧
      ((Lookup.find c r text request).run store state).1 ≠
        .error e ∧
      ((Creation.create c baseUrl now r request body).run
        store state).1 ≠ .error e ∧
      ((Removal.remove r text request).run store state).1 ≠
        .error e := by
  have hSound := hResolved.sound
  refine ⟨?_, ?_, ?_, ?_⟩
  · have hList := Survey.meets_list baseUrl request hSound hr
    exact (hList.of_run store state).ne_error hInternal
  · have hFind := Lookup.meets_find text request hSound hr
    exact (hFind.of_run store state).ne_error hInternal
  · have hCreate :=
      Creation.meets_create baseUrl now request body hSound hr
    exact (hCreate.of_run store state).ne_error hInternal
  · have hRemove := Removal.meets_remove r text request
    exact (hRemove.of_run store state).ne_error hInternal

/- Members are not missing when an idea is looked up. -/
theorem no_internal_error_sample :
    ((Lookup.find sample Resource.sample "1" Request.sample).run
        Store.empty ()).1 ≠
      .error (.schema (.missingResource "users")) := by
  have hSample :=
    no_internal_error sample_resolved mem_sample
      (show (RequestError.schema
        (.missingResource "users")).Internal from trivial)
      "" ⟨0, 0, 0⟩ Request.sample "1" .null Store.empty ()
  exact hSample.2.1

end Catalog.Resolved

end RelationalRest
