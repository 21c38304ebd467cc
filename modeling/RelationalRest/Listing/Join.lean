import RelationalRest.Listing.Building
import RelationalRest.Resource.Catalog

/-
  This file defines how a query follows a relation: it joins
  the related table under the label, where our mapped column
  equals their primary key.

  Key definitions include:
    * `Resource.joinOf`
    * `Listing.join`
-/

namespace RelationalRest

/- The join of a relation to a resource with a primary key. -/
def Resource.joinOf
    (root : Resource)
    (label : String)
    (relation : Relation)
    (related : Resource)
    (key : String) : Sql.Join where
  table := related.table
  label := label
  left := root.column relation.mapping
  right := { qualifier := label, name := key }

namespace Listing

/- Join a relation to one record, unless it is joined already. -/
def join
    (root : Resource)
    (label : String)
    (related : Resource)
    (q : Sql.Query) : Building :=
  if q.isJoined label then
    .ok q
  else
    match Fields.get? root.belongsTo label, related.primaryKey with
    | none, _ => .stop q (.notARelation label root.name)
    | some _, none =>
        .stop q <| .schema <|
          .invalidRelation root.name label
            (.targetWithoutKey related.name)
    | some relation, some key =>
        .ok (q.leftJoin (root.joinOf label relation related key))

end Listing

end RelationalRest
