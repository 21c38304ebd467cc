import RelationalRest.Proofs.Listing.Alike
import RelationalRest.Proofs.Listing.Covering
import RelationalRest.Proofs.Operation.Statements
import RelationalRest.Proofs.Sql.Operands

/-
  The two queries of a survey, compared with those of another
  request and with each other.  Operands are never part of a
  text: requests that differ in operands only are answered by
  statements with one text.  And the count is taken under the
  conditions of the page, over tables that the page joins.

  Key definitions include:
    * `Survey.Agree`
    * `Sql.Query.Counts`

  Main declarations:
    * `Survey.text_free_of_operands`
    * `Catalog.Resolved.total_counts_rows`
-/

namespace RelationalRest

variable {c : Catalog}
variable {r : Resource}

------------------------------------------------------------
-- Requests that differ in operands
------------------------------------------------------------

namespace Survey

/-
  Two requests name the same parameters, ask for the same
  fields, order and page, and filter by texts that have the
  same operators and as many operands each.
-/
structure Agree
    (c : Catalog)
    (r : Resource)
    (params params' : Params) : Prop where
  names :
    ∀ name, params.contains name = params'.contains name
  page :
    ∀ name ∈ ["fields", "sort_by", "limit", "offset"],
      params.get? name = params'.get? name
  filters :
    Filter.Agree Kind.SameForm c r params.pairs params'.pairs

namespace Agree

variable {params params' : Params}

/- Requests that agree ask for one projection. -/
theorem projection
    (h : Agree c r params params') :
    Projection.ofParams params = Projection.ofParams params' := by
  unfold Projection.ofParams
  rw [h.names "verbose", h.page "fields" (by simp)]

/- The row queries of requests that agree are alike. -/
theorem rowQuery
    (h : Agree c r params params')
    {rows rows' : Sql.Query}
    (hRows : Survey.rowQuery c r params = .ok rows)
    (hRows' : Survey.rowQuery c r params' = .ok rows') :
    rows.Alike rows' := by
  let p := Projection.ofParams params
  have hProjected :
      Building.Parallel Sql.Query.Alike
        (p.apply c r r.liveQuery) (p.apply c r r.liveQuery) :=
    p.alike_apply (.refl r.liveQuery)
  have hFiltered := hProjected.andThen fun _ _ hq =>
    Filter.parallel_apply Filter.congruent_alike h.filters hq
  have hSort :
      ∀ q q' : Sql.Query, q.Alike q' →
        Building.Parallel Sql.Query.Alike
          (Sorting.apply c r params false q)
          (Sorting.apply c r params' false q') :=
    fun _ _ hq =>
      Sorting.alike_apply (h.page "sort_by" (by simp)) false hq
  have hSorted := hFiltered.andThen hSort
  have hPaged := hSorted.andThen fun _ _ hq =>
    Paging.alike_apply (h.page "limit" (by simp))
      (h.page "offset" (by simp)) false hq
  unfold Survey.rowQuery at hRows hRows'
  rw [← h.projection] at hRows'
  exact hPaged.of_result hRows hRows'

/- The count queries of requests that agree are alike. -/
theorem countQuery
    (h : Agree c r params params')
    {total total' : Sql.Query}
    (hTotal : Survey.countQuery c r params = .ok total)
    (hTotal' : Survey.countQuery c r params' = .ok total') :
    total.Alike total' := by
  have hFiltered :=
    Filter.parallel_apply Filter.congruent_alike h.filters
      (.refl r.liveQuery)
  exact hFiltered.of_result hTotal hTotal'

end Agree

/-
  Whatever the operands are, requests that agree are answered
  by statements with one text.
-/
theorem text_free_of_operands
    {params params' : Params}
    (h : Agree c r params params')
    {rows rows' total total' : Sql.Query}
    (hRows : rowQuery c r params = .ok rows)
    (hRows' : rowQuery c r params' = .ok rows')
    (hTotal : countQuery c r params = .ok total)
    (hTotal' : countQuery c r params' = .ok total') :
    rows.select.Alike rows'.select ∧
      total.count.Alike total'.count :=
  ⟨(h.rowQuery hRows hRows').select,
    (h.countQuery hTotal hTotal').count⟩

/- A request for ideas by a text in the name of their member. -/
def byMember (text : String) : Params where
  pairs :=
    [ ("fields", "title")
    , ("creator", "name=" ++ text)
    , ("sort_by", "creator.id") ]

/- A name that closes brackets and writes a placeholder. -/
theorem text_free_of_operands_sample :
    Agree .sample .sample (byMember "x")
        (byMember "x) OR $9;--") ∧
      ∃ rows rows' total total',
        rowQuery .sample .sample (byMember "x") = .ok rows ∧
          rowQuery .sample .sample
              (byMember "x) OR $9;--") = .ok rows' ∧
          countQuery .sample .sample (byMember "x") =
            .ok total ∧
          countQuery .sample .sample
              (byMember "x) OR $9;--") = .ok total' ∧
          rows.select.Alike rows'.select ∧
          total.count.Alike total'.count := by
  -- among the fields of an idea, the member alone is filtered by
  have hOnly :
      ∀ name ∈ Resource.sample.filterable,
        ∀ s, Fields.get? (byMember "x").pairs name = some s →
          name = "creator" := by
    intro name hName s hs
    by_contra hOther
    have hNone :
        ∀ name ∈ Resource.sample.filterable, name ≠ "creator" →
          Fields.get? (byMember "x").pairs name = none := by
      decide
    rw [hNone name hName hOther] at hs
    cases hs
  have hAgree :
      Agree .sample .sample (byMember "x")
        (byMember "x) OR $9;--") := by
    refine ⟨?_, by decide, ⟨by decide, ?_⟩, ?_⟩
    · intro name
      have hKeys :
          (byMember "x").pairs.keys =
            (byMember "x) OR $9;--").pairs.keys :=
        rfl
      rw [Bool.eq_iff_iff, Params.contains, Params.contains,
        Fields.contains_iff_mem_keys,
        Fields.contains_iff_mem_keys, hKeys]
    · intro name hName field s s' hField hs _
      cases hOnly name hName s hs
      cases hField
    · intro name hName relation related s s' _ hRelation hRelated
        hs hs'
      cases hOnly name hName s hs
      cases hRelation
      cases hRelated
      cases hs
      cases hs'
      refine ⟨by decide, ?_⟩
      intro name hName field s s' hField hs hs'
      have hNested :
          name ∈ ["id", "name", "password", "entries"] :=
        hName
      simp only [List.mem_cons, List.not_mem_nil, or_false]
        at hNested
      rcases hNested with rfl | rfl | rfl | rfl
      · cases hs
      · cases hField
        cases hs
        cases hs'
        exact ⟨rfl, rfl⟩
      · cases hs
      · cases hs
  have hFirst :
      ∃ rows total,
        rowQuery .sample .sample (byMember "x") = .ok rows ∧
          countQuery .sample .sample (byMember "x") =
            .ok total :=
    ⟨_, _, rfl, rfl⟩
  have hSecond :
      ∃ rows total,
        rowQuery .sample .sample
            (byMember "x) OR $9;--") = .ok rows ∧
          countQuery .sample .sample
            (byMember "x) OR $9;--") = .ok total :=
    ⟨_, _, rfl, rfl⟩
  rcases hFirst with ⟨rows, total, hRows, hTotal⟩
  rcases hSecond with ⟨rows', total', hRows', hTotal'⟩
  refine ⟨hAgree, rows, rows', total, total', hRows, hRows',
    hTotal, hTotal', ?_⟩
  exact text_free_of_operands hAgree hRows hRows' hTotal hTotal'

end Survey

------------------------------------------------------------
-- The count of a page
------------------------------------------------------------

namespace Sql.Query

/- The pieces that name the tables of a query. -/
def tablePieces (q : Query) : List Piece :=
  .text " FROM " :: q.root.piecesAs q.root.name ++
    q.joins.flatMap Join.pieces

/- Tables bind no operand. -/
theorem params_tablePieces (q : Query) :
    params q.tablePieces = [] := by
  have hBody := q.spells_body.2.params
  have hWhere := (spells_wherePieces q.conditions).params
  have hSplit :
      q.bodyPieces =
        q.tablePieces ++ wherePieces q.conditions :=
    rfl
  rw [hSplit, params_append, hWhere] at hBody
  simpa [sites] using hBody

/- Pieces without operands do not shift the numbers after them. -/
theorem textFrom_append_of_params
    {ps : List Piece}
    (h : params ps = [])
    (n : Nat)
    (qs : List Piece) :
    textFrom n (ps ++ qs) = textFrom n ps ++ textFrom n qs := by
  rw [textFrom_append, h]
  rfl

/- The pieces that order the rows and choose a page of them. -/
def pagePieces (q : Query) : List Piece :=
  q.orderingPieces ++ boundPieces " LIMIT " q.limit ++
    boundPieces " OFFSET " q.offset

/- The text of a query for rows. -/
theorem sql_select (q : Query) :
    q.select.sql =
      "SELECT " ++ textFrom 0 q.selectionPieces ++
        textFrom 0 q.tablePieces ++
        textFrom 0 (wherePieces q.conditions) ++
        textFrom (params (wherePieces q.conditions)).length
          q.pagePieces := by
  have hSelection : params q.selectionPieces = [] :=
    q.spells_selection.params
  have hSplit :
      q.selectPieces =
        .text "SELECT " ::
          (q.selectionPieces ++
            (q.tablePieces ++
              (wherePieces q.conditions ++ q.pagePieces))) := by
    simp [selectPieces, bodyPieces, tablePieces, pagePieces]
  unfold select assemble
  simp only [hSplit, textFrom]
  rw [textFrom_append_of_params hSelection,
    textFrom_append_of_params q.params_tablePieces,
    textFrom_append, Nat.zero_add]
  simp only [String.append_assoc]

/- The text of a query for a count. -/
theorem sql_count (q : Query) :
    q.count.sql =
      "SELECT COUNT(*) AS \"count\"" ++
        textFrom 0 q.tablePieces ++
        textFrom 0 (wherePieces q.conditions) := by
  have hOpening :
      textFrom 0 [.text "SELECT COUNT(*) AS ", .name "count"] =
        "SELECT COUNT(*) AS \"count\"" :=
    rfl
  have hSplit :
      q.countPieces =
        [.text "SELECT COUNT(*) AS ", .name "count"] ++
          (q.tablePieces ++ wherePieces q.conditions) := by
    simp [countPieces, bodyPieces, tablePieces]
  unfold count assemble
  rw [hSplit, textFrom_append_of_params rfl, hOpening,
    textFrom_append_of_params q.params_tablePieces,
    String.append_assoc]

/-
  A query for a total counts what a query for rows lists: it
  has the same root and conditions, written and numbered alike
  and bound to the same parameters; every table that it joins
  is joined for the rows, and the further ones are relations
  to one record, joined on their primary key; and it has no
  projection, no ordering and no page.
-/
structure Counts
    (c : Catalog)
    (r : Resource)
    (total rows : Query) : Prop where
  root : total.root = rows.root
  conditions : total.conditions = rows.conditions
  joins : ∀ j ∈ total.joins, j ∈ rows.joins
  further : ∀ j ∈ rows.joins, j ∉ total.joins → Follows c r j
  bare : total.Bare
  rowsText :
    rows.select.sql =
      "SELECT " ++ textFrom 0 rows.selectionPieces ++
        textFrom 0 rows.tablePieces ++
        textFrom 0 (wherePieces rows.conditions) ++
        textFrom (params (wherePieces rows.conditions)).length
          rows.pagePieces
  totalText :
    total.count.sql =
      "SELECT COUNT(*) AS \"count\"" ++
        textFrom 0 total.tablePieces ++
        textFrom 0 (wherePieces rows.conditions)
  bound : total.count.params = rows.select.params

end Sql.Query

/- A relation is followed in one way. -/
theorem Follows.eq_of_label
    {j j' : Sql.Join}
    (h : Follows c r j)
    (h' : Follows c r j')
    (hLabel : j.label = j'.label) :
    j = j' := by
  rcases h with ⟨relation, related, key, hRelation, hFind, hKey, hj⟩
  rcases h' with
    ⟨relation', related', key', hRelation', hFind', hKey', hj'⟩
  rw [hLabel, hRelation'] at hRelation
  cases hRelation
  rw [hFind'] at hFind
  cases hFind
  rw [hKey'] at hKey
  cases hKey
  rw [hj, hj', hLabel]

namespace Survey

variable {params : Params}
variable {rows total : Sql.Query}

/- The query for a page covers the query for its total. -/
theorem covers_total
    (hRows : rowQuery c r params = .ok rows)
    (hTotal : countQuery c r params = .ok total) :
    rows.Covers total := by
  have hProjected :
      Building.Parallel Sql.Query.Covers
        ((Projection.ofParams params).apply c r r.liveQuery)
        (.ok r.liveQuery) :=
    fun _ _ => (Projection.ofParams params).covers_apply c r _
  have hFiltered := hProjected.andThen fun _ _ hq =>
    Filter.parallel_apply Filter.congruent_covers
      (.refl (fun _ _ => rfl) c r params.pairs) hq
  have hSorted := hFiltered.andThen_left fun _ _ hq =>
    (Sorting.covers_apply c r params false _).trans hq
  have hPaged := hSorted.andThen_left fun _ _ hq =>
    (Paging.covers_apply params false _).trans hq
  exact hPaged.of_result hRows hTotal

/- The query for a total is bare. -/
theorem bare_total
    (hTotal : countQuery c r params = .ok total) :
    total.Bare :=
  query_countQuery (fun _ condition _ h => h.addCondition condition)
    (fun _ j _ h => h.leftJoin j) ⟨rfl, rfl, rfl, rfl⟩ hTotal

/- The query for a total counts what the query for a page lists. -/
theorem counts_total
    (hSound : c.Sound)
    (hr : r ∈ c.resources)
    (hRows : rowQuery c r params = .ok rows)
    (hTotal : countQuery c r params = .ok total) :
    total.Counts c r rows := by
  have hRowsScoped :=
    (scoped_rowQuery params hSound hr).of_ok hRows
  have hTotalScoped :=
    (scoped_countQuery params hSound hr).of_ok hTotal
  have hCovers := covers_total hRows hTotal
  have hParams :
      total.count.params = rows.select.params := by
    have hSites : total.sites = rows.sites := by
      rw [Sql.Query.sites, Sql.Query.sites, hCovers.conditions]
    have hCount := total.spells_count.params
    rw [hSites] at hCount
    exact hCount.trans rows.spells_select.params.symm
  refine
    { root := hTotalScoped.table.trans hRowsScoped.table.symm
      conditions := hCovers.conditions.symm
      joins := ?_
      further := fun j hj _ => hRowsScoped.joins j hj
      bare := bare_total hTotal
      rowsText := rows.sql_select
      totalText := ?_
      bound := hParams }
  · intro j hj
    have hLabel : j.label ∈ total.labels :=
      List.mem_map.mpr ⟨j, hj, rfl⟩
    rcases List.mem_map.mp (hCovers.labels j.label hLabel) with
      ⟨j', hj', hSame⟩
    have hEq : j = j' :=
      (hTotalScoped.joins j hj).eq_of_label
        (hRowsScoped.joins j' hj') hSame.symm
    rw [hEq]
    exact hj'
  · rw [hCovers.conditions]
    exact total.sql_count

/- The calls of a survey whose queries can be built. -/
theorem sent_list
    {σ : Type}
    {request : Request}
    (hRows : rowQuery c r request.params = .ok rows)
    (hTotal : countQuery c r request.params = .ok total)
    (baseUrl : String)
    (store : Store σ)
    (state : σ) :
    (list c baseUrl r request).sent store state =
      .rows rows.select ::
        match (store.fetchRows rows.select state).1 with
        | .ok _ => [.count total.count]
        | .error _ => [] := by
  unfold list
  simp only [hRows, hTotal, Conversation.sent]
  cases (store.fetchRows rows.select state).1 with
  | error e => rfl
  | ok found =>
      simp only [Conversation.sent]
      cases (store.fetchCount total.count
          (store.fetchRows rows.select state).2).1 with
      | error e => rfl
      | ok n => rfl

/- A survey that sends anything has built its queries. -/
theorem exists_queries_of_sent
    {σ : Type}
    {baseUrl : String}
    {request : Request}
    {store : Store σ}
    {state : σ}
    (hSent : (list c baseUrl r request).sent store state ≠ []) :
    ∃ rows total,
      rowQuery c r request.params = .ok rows ∧
        countQuery c r request.params = .ok total := by
  unfold list at hSent
  cases hRows : rowQuery c r request.params with
  | error e => simp [hRows, Conversation.sent] at hSent
  | ok rows =>
      cases hTotal : countQuery c r request.params with
      | error e => simp [hRows, hTotal, Conversation.sent] at hSent
      | ok total => exact ⟨rows, total, rfl, rfl⟩

end Survey

namespace Catalog.Resolved

variable {σ : Type}

/-
  A survey that sends anything sends a query for rows and,
  unless the store fails, a query for the total that counts
  what the first one lists.
-/
theorem total_counts_rows
    (hResolved : c.Resolved)
    (hr : r ∈ c.resources)
    {baseUrl : String}
    {request : Request}
    {store : Store σ}
    {state : σ}
    (hSent :
      (Survey.list c baseUrl r request).sent store state ≠ []) :
    ∃ rows total : Sql.Query,
      (Survey.list c baseUrl r request).sent store state =
          .rows rows.select ::
            (match (store.fetchRows rows.select state).1 with
            | .ok _ => [.count total.count]
            | .error _ => []) ∧
        total.Counts c r rows := by
  rcases Survey.exists_queries_of_sent hSent with
    ⟨rows, total, hRows, hTotal⟩
  refine ⟨rows, total, ?_, ?_⟩
  · exact Survey.sent_list hRows hTotal baseUrl store state
  · exact Survey.counts_total hResolved.sound hr hRows hTotal

/-
  A page of ideas by the name of a member, ordered by a column
  of the member, is counted over the member's table as well.
-/
theorem total_counts_rows_sample :
    (Survey.list sample "" Resource.sample
          ⟨"/entries", Survey.byMember "x", none⟩).sent
        Store.empty () ≠ [] ∧
      ∃ rows total : Sql.Query,
        (Survey.list sample "" Resource.sample
            ⟨"/entries", Survey.byMember "x", none⟩).sent
            Store.empty () =
          [.rows rows.select, .count total.count] ∧
        total.Counts sample Resource.sample rows := by
  have hSent :
      (Survey.list sample "" Resource.sample
          ⟨"/entries", Survey.byMember "x", none⟩).sent
        Store.empty () ≠ [] := by
    intro hNone
    cases hNone
  rcases total_counts_rows sample_resolved mem_sample hSent with
    ⟨rows, total, hCalls, hCounts⟩
  exact ⟨hSent, rows, total, hCalls, hCounts⟩

end Catalog.Resolved

end RelationalRest
