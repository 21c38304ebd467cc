import RelationalRest.Listing.Filter
import RelationalRest.Listing.Paging
import RelationalRest.Listing.Sorting
import RelationalRest.Operation.Lookup

/-
  This file defines the survey of the records of a resource:
  a page of them, and the count of those on all pages.

  Key definitions include:
    * `Survey.rowQuery`
    * `Survey.countQuery`
    * `Listing`
    * `Survey.list`
-/

namespace RelationalRest

/- A page of records, with what is known of the whole. -/
structure Listing where
  outcome : Outcome
  length : Nat
  total : Nat
  links : Option PageLinks

namespace Survey

/- The query for the records of a page. -/
def rowQuery
    (c : Catalog)
    (r : Resource)
    (params : Params) : Except RequestError Sql.Query :=
  Building.result <|
    ((((Projection.ofParams params).apply c r r.liveQuery).andThen
      (Filter.apply c r params.pairs)).andThen
      (Sorting.apply c r params false)).andThen
      (Paging.apply params false)

/- The query for the count of the records on all pages. -/
def countQuery
    (c : Catalog)
    (r : Resource)
    (params : Params) : Except RequestError Sql.Query :=
  (Filter.apply c r params.pairs r.liveQuery).result

/- What is sent for the rows of a page. -/
def outcome
    (c : Catalog)
    (r : Resource)
    (rows : List Row) : Outcome :=
  let records := rows.map (c.present r)
  match c.hook? r.name with
  | some hook => hook.collection records
  | none => .send (.array records)

/- List the records that the parameters ask for. -/
def list
    (c : Catalog)
    (baseUrl : String)
    (r : Resource)
    (request : Request) :
    Conversation (Except RequestError Listing) :=
  let params := request.params
  match rowQuery c r params, countQuery c r params with
  | .error e, _ => .done (.error e)
  | .ok _, .error e => .done (.error e)
  | .ok rows, .ok count =>
      .fetchRows rows.select fun
        | .error _ => .done (.error .storeFailed)
        | .ok rows =>
            .fetchCount count.count fun
              | .error _ => .done (.error .storeFailed)
              | .ok total =>
                  .done <| .ok
                    { outcome := outcome c r rows
                      length := rows.length
                      total
                      links :=
                        PageLinks.ofParams?
                          (baseUrl ++ request.path) params
                          total }

end Survey

end RelationalRest
