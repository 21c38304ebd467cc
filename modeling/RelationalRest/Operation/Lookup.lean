import RelationalRest.Listing.Projection
import RelationalRest.Operation.Conversation

/-
  This file defines the lookup of one record by its key.

  Key definitions include:
    * `Resource.keyValue`
    * `Resource.liveQuery`
    * `Lookup.query`
    * `Lookup.find`
-/

namespace RelationalRest

namespace Resource

/- The primary key of a resource and the kind of its values. -/
def keyKind
    (r : Resource) : Except RequestError (String × Kind) :=
  match r.primaryKey with
  | none => .error .noPrimaryKey
  | some key =>
      match Fields.get? r.types key with
      | none => .error .noPrimaryKey
      | some type => .ok (key, type.kind)

/- The primary key, and the value that a key text stands for. -/
def keyValue
    (r : Resource)
    (text : String) : Except RequestError (String × Sql.Value) :=
  match r.keyKind with
  | .error e => .error e
  | .ok (key, kind) =>
      if text ≠ "" ∧ kind.acceptsText text = true then
        .ok (key, kind.ofText text)
      else
        .error (.invalidValue text key)

/- The condition that a record is not marked as deleted. -/
def liveCondition? (r : Resource) : Option Sql.Condition :=
  r.softDelete.map fun mark =>
    .equal (r.column mark.column) (Sql.Value.ofJson mark.live)

/- The query for all records that are not marked as deleted. -/
def liveQuery (r : Resource) : Sql.Query where
  root := r.table
  conditions := r.liveCondition?.toList

end Resource

namespace Lookup

/- The query for the record of a key. -/
def query
    (c : Catalog)
    (r : Resource)
    (text : String)
    (params : Params) : Except RequestError Sql.Query :=
  match r.keyValue text with
  | .error e => .error e
  | .ok (key, value) =>
      let q := r.liveQuery.addCondition
        (.equal (r.column key) value)
      ((Projection.ofParams params).apply c r q).result

/- What is sent for one record. -/
def outcome
    (c : Catalog)
    (r : Resource)
    (row : Row) : Outcome :=
  match c.hook? r.name with
  | some hook => hook.single (c.present r row)
  | none => .send (c.present r row)

/- Find the record of a key. -/
def find
    (c : Catalog)
    (r : Resource)
    (text : String)
    (request : Request) :
    Conversation (Except RequestError Outcome) :=
  match query c r text request.params with
  | .error e => .done (.error e)
  | .ok q =>
      .fetchRows q.select fun
        | .error _ => .done (.error .storeFailed)
        | .ok [] => .done (.error (.noSuchRecord text))
        | .ok (row :: _) => .done (.ok (outcome c r row))

end Lookup

end RelationalRest
