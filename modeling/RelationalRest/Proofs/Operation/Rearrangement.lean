import RelationalRest.Proofs.Fields
import RelationalRest.Proofs.Operation.Survey

/-
  The order of parameters does not matter to a survey.  Every
  step of it looks parameters up by their names, in the order
  of the resource and not in that of the request; so requests
  with the same values are refused for the same cause, or have
  the same statements sent for them and the same answer given.
  Only the links of a page keep the order of the request.

  Key definitions include:
    * `Params.SameValues`
    * `Survey.calls`
    * `Survey.SameAnswer`

  Main declarations:
    * `Params.sameValues_of_perm`
    * `Filter.apply_eq_of_values`
    * `Params.SameValues.rowQuery`
    * `Survey.sameAnswer_list`
    * `Survey.order_irrelevant`
-/

namespace RelationalRest

variable {c : Catalog}
variable {r : Resource}

------------------------------------------------------------
-- Steps that look parameters up
------------------------------------------------------------

/- Every parameter has one value in both, or is in neither. -/
def Params.SameValues (params params' : Params) : Prop :=
  ∀ name, params.get? name = params'.get? name

/- Parameters in another order have the same values. -/
theorem Params.sameValues_of_perm
    {params params' : Params}
    (hDistinct : Fields.Distinct params.pairs)
    (h : params.pairs.Perm params'.pairs) :
    params.SameValues params' :=
  Fields.get?_perm hDistinct h

/- Filters depend on the values that are requested. -/
theorem Filter.apply_eq_of_values
    {requests requests' : Fields String}
    (h :
      ∀ name,
        Fields.get? requests name = Fields.get? requests' name) :
    apply c r requests = apply c r requests' := by
  have hStep : applyField c r requests = applyField c r requests' := by
    funext name q
    unfold applyField
    rw [h name]
  unfold apply
  rw [hStep]

namespace Params.SameValues

variable {params params' : Params}

/- The same parameters are present. -/
theorem contains
    (h : params.SameValues params')
    (name : String) :
    params.contains name = params'.contains name := by
  rw [contains_eq, contains_eq, h name]

/- One projection is asked for. -/
theorem projection
    (h : params.SameValues params') :
    Projection.ofParams params = Projection.ofParams params' := by
  unfold Projection.ofParams
  rw [h.contains "verbose", h "fields"]

/- One ordering is asked for. -/
theorem sorting
    (h : params.SameValues params')
    (quiet : Bool) :
    Sorting.apply c r params quiet =
      Sorting.apply c r params' quiet := by
  funext q
  unfold Sorting.apply
  rw [h "sort_by"]

/- One page is asked for. -/
theorem paging
    (h : params.SameValues params')
    (quiet : Bool) :
    Paging.apply params quiet = Paging.apply params' quiet := by
  funext q
  unfold Paging.apply Paging.applyOffset
  rw [h "limit", h "offset"]

/- One query for rows is built, or one error stops it. -/
theorem rowQuery
    (h : params.SameValues params') :
    Survey.rowQuery c r params = Survey.rowQuery c r params' := by
  unfold Survey.rowQuery
  rw [h.projection, Filter.apply_eq_of_values h, h.sorting,
    h.paging]

/- One query for the count is built, or one error stops it. -/
theorem countQuery
    (h : params.SameValues params') :
    Survey.countQuery c r params =
      Survey.countQuery c r params' := by
  unfold Survey.countQuery
  rw [Filter.apply_eq_of_values h]

/- Links lead to pages of one window. -/
theorem window?
    (h : params.SameValues params')
    (total : Nat) :
    PageLinks.window? params total =
      PageLinks.window? params' total := by
  unfold PageLinks.window?
  rw [h "limit", h "offset"]

end Params.SameValues

------------------------------------------------------------
-- Calls and answers
------------------------------------------------------------

namespace Survey

variable {σ : Type}

/-
  The calls of a survey by two queries: one for the rows, and
  one for the count if the rows were given.
-/
def calls
    (rows total : Sql.Query)
    (store : Store σ)
    (state : σ) : List Call :=
  .rows rows.select ::
    match (store.fetchRows rows.select state).1 with
    | .ok _ => [.count total.count]
    | .error _ => []

/-
  Two answers are one error, or pages with the same records,
  length and total, both with links or both without.
-/
def SameAnswer :
    Except RequestError Listing →
      Except RequestError Listing → Prop
| .ok page, .ok page' =>
    page.outcome = page'.outcome ∧ page.length = page'.length ∧
      page.total = page'.total ∧
      page.links.isSome = page'.links.isSome
| .error e, .error e' => e = e'
| _, _ => False

variable {request request' : Request}
variable {rows total : Sql.Query}

/-
  Surveys of requests with the same values, whose queries can
  be built, are answered alike by every store.
-/
theorem sameAnswer_list
    (h : request.params.SameValues request'.params)
    (hRows : rowQuery c r request.params = .ok rows)
    (hTotal : countQuery c r request.params = .ok total)
    (baseUrl : String)
    (store : Store σ)
    (state : σ) :
    SameAnswer ((list c baseUrl r request).run store state).1
      ((list c baseUrl r request').run store state).1 := by
  have hRows' := h.rowQuery.symm.trans hRows
  have hTotal' := h.countQuery.symm.trans hTotal
  unfold list
  simp only [hRows, hTotal, hRows', hTotal', Conversation.run]
  cases (store.fetchRows rows.select state).1 with
  | error e => rfl
  | ok found =>
      simp only [Conversation.run]
      cases (store.fetchCount total.count
          (store.fetchRows rows.select state).2).1 with
      | error e => rfl
      | ok count =>
          refine ⟨rfl, rfl, rfl, ?_⟩
          simp only [PageLinks.ofParams?, Option.isSome_map,
            h.window?]

/-
  Two requests with the same parameters in any order are both
  refused for one cause, or have the same statements sent for
  them and are answered alike.
-/
theorem order_irrelevant
    (c : Catalog)
    (baseUrl : String)
    (r : Resource)
    (request request' : Request)
    (hDistinct : Fields.Distinct request.params.pairs)
    (hPerm :
      request.params.pairs.Perm request'.params.pairs) :
    (∃ e,
      list c baseUrl r request = .done (.error e) ∧
        list c baseUrl r request' = .done (.error e)) ∨
    ∃ rows total : Sql.Query,
      ∀ (σ : Type) (store : Store σ) (state : σ),
        (list c baseUrl r request).sent store state =
            calls rows total store state ∧
          (list c baseUrl r request').sent store state =
            calls rows total store state ∧
          SameAnswer
            ((list c baseUrl r request).run store state).1
            ((list c baseUrl r request').run store state).1 := by
  have hValues := Params.sameValues_of_perm hDistinct hPerm
  cases hRows : rowQuery c r request.params with
  | error e =>
      left
      refine ⟨e, ?_, ?_⟩
      · simp [list, hRows]
      · simp [list, hValues.rowQuery.symm.trans hRows]
  | ok rows =>
      have hRows' := hValues.rowQuery.symm.trans hRows
      cases hTotal : countQuery c r request.params with
      | error e =>
          left
          refine ⟨e, ?_, ?_⟩
          · simp [list, hRows, hTotal]
          · simp [list, hRows',
              hValues.countQuery.symm.trans hTotal]
      | ok total =>
          right
          have hTotal' := hValues.countQuery.symm.trans hTotal
          refine ⟨rows, total, fun σ store state => ?_⟩
          exact
            ⟨sent_list hRows hTotal baseUrl store state,
              sent_list hRows' hTotal' baseUrl store state,
              sameAnswer_list hValues hRows hTotal baseUrl store
                state⟩

/- Ideas of a member by their titles, two at a time. -/
def arranged : Fields String :=
  [ ("fields", "title")
  , ("creator", "name=x")
  , ("sort_by", "creator.id")
  , ("limit", "2") ]

/- A request with these parameters. -/
def requestOf (pairs : Fields String) : Request where
  path := "/entries"
  params := { pairs }
  actor := none

/- The same ideas are asked for with the parameters turned round. -/
theorem order_irrelevant_sample :
    Fields.Distinct arranged ∧ arranged.Perm arranged.reverse ∧
      ∃ rows total : Sql.Query,
        ∀ (σ : Type) (store : Store σ) (state : σ),
          (list .sample "" .sample (requestOf arranged)).sent
                store state =
              calls rows total store state ∧
            (list .sample "" .sample
                (requestOf arranged.reverse)).sent store state =
              calls rows total store state ∧
            SameAnswer
              ((list .sample "" .sample
                (requestOf arranged)).run store state).1
              ((list .sample "" .sample
                (requestOf arranged.reverse)).run
                  store state).1 := by
  have hDistinct : Fields.Distinct arranged := by decide
  have hPerm : arranged.Perm arranged.reverse :=
    (List.reverse_perm arranged).symm
  refine ⟨hDistinct, hPerm, ?_⟩
  rcases order_irrelevant .sample "" .sample (requestOf arranged)
      (requestOf arranged.reverse) hDistinct hPerm with
    ⟨e, hRefused, _⟩ | hSent
  · -- the queries for these ideas can be built
    cases hRefused
  · exact hSent

end Survey

end RelationalRest
