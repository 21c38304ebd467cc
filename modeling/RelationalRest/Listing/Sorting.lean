import RelationalRest.Listing.Join
import RelationalRest.Request

/-
  This file defines sorting by the parameter `sort_by`: terms
  set apart by commas, each a column of the root or a label, a
  point and a column.  A dash makes a term ascend.

  Key definitions include:
    * `Sorting.Term`
    * `Sorting.terms`
    * `Sorting.apply`
-/

namespace RelationalRest

namespace Sorting

/- A field to sort by. -/
structure Term where
  field : String
  direction : Sql.Direction
deriving DecidableEq, Repr

/- The term that a text writes. -/
def term (s : String) : Term :=
  match s.toList with
  | '-' :: field =>
      { field := String.ofList field, direction := .ascending }
  | _ => { field := s, direction := .descending }

/- The terms that a text writes. -/
def terms (s : String) : List Term :=
  (Text.split ',' s).map term

/- What a field to sort by stands for. -/
inductive Target where
| own
| related (label name : String) (related : Resource)
| unknown

/- The column of a relation that a field names. -/
def relatedTarget
    (catalog : Catalog)
    (root : Resource)
    (field : String) : Except RequestError Target :=
  match Text.split '.' field with
  | [label, name] =>
      match Fields.get? root.belongsTo label with
      | none => .ok .unknown
      | some relation =>
          match catalog.related relation with
          | .error e => .error e
          | .ok related =>
              if related.ownsColumn name then
                .ok (.related label name related)
              else
                .ok .unknown
  | _ => .ok .unknown

/- What a field to sort by stands for. -/
def target
    (catalog : Catalog)
    (root : Resource)
    (field : String) : Except RequestError Target :=
  if root.ownsColumn field then
    .ok .own
  else
    relatedTarget catalog root field

/- Sort by a term; a quiet one that is unknown is passed over. -/
def applyTerm
    (catalog : Catalog)
    (root : Resource)
    (quiet : Bool)
    (t : Term)
    (q : Sql.Query) : Building :=
  match target catalog root t.field with
  | .error e => .stop q e
  | .ok .own => .ok (q.orderBy (root.column t.field) t.direction)
  | .ok (.related label name related) =>
      Listing.join root label related
        (q.orderBy { qualifier := label, name } t.direction)
  | .ok .unknown =>
      if quiet then .ok q else .stop q (.unknownSortField t.field)

/- Sort by the terms of the parameter, if it is given. -/
def apply
    (catalog : Catalog)
    (root : Resource)
    (params : Params)
    (quiet : Bool)
    (q : Sql.Query) : Building :=
  match params.get? "sort_by" with
  | none => .ok q
  | some s =>
      Building.each (applyTerm catalog root quiet) (terms s) q

end Sorting

end RelationalRest
