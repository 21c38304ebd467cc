import RelationalRest.Operation.Lookup
import RelationalRest.Record.Creation
import RelationalRest.Sql.Change

/-
  This file defines the removal of a record by its key.  A
  resource that marks deleted records keeps the row and sets
  the mark; any other loses the row.  Where records have
  owners, only one of the actor's own is removed.

  Key definitions include:
    * `Removal.conditions`
    * `Removal.statement`
    * `Removal.remove`
-/

namespace RelationalRest

namespace Removal

/- The condition that a record is the actor's own. -/
def ownerCondition
    (r : Resource)
    (actor : Option Actor) :
    Except RequestError (List Sql.Condition) :=
  match r.ownership with
  | none => .ok []
  | some o =>
      match r.ownerOf o actor with
      | .error e => .error e
      | .ok owner =>
          .ok
            [.equal (r.column o.column) (Sql.Value.ofJson owner)]

/- The conditions on the record to remove. -/
def conditions
    (r : Resource)
    (text : String)
    (actor : Option Actor) :
    Except RequestError (List Sql.Condition) :=
  match r.keyValue text with
  | .error e => .error e
  | .ok (key, value) =>
      match ownerCondition r actor with
      | .error e => .error e
      | .ok owner =>
          .ok <|
            .equal (r.column key) value :: owner ++
              r.liveCondition?.toList

/- The statement that removes the records that meet conditions. -/
def statement
    (r : Resource)
    (conditions : List Sql.Condition) : Sql.Statement :=
  match r.softDelete with
  | some mark =>
      Sql.Update.statement
        { table := r.table
          sets :=
            [(mark.column, Sql.Value.ofJson mark.deleted)]
          conditions }
  | none => Sql.Delete.statement { table := r.table, conditions }

/- Remove the record of a key. -/
def remove
    (r : Resource)
    (text : String)
    (request : Request) :
    Conversation (Except RequestError Unit) :=
  match conditions r text request.actor with
  | .error e => .done (.error e)
  | .ok conditions =>
      .execute (statement r conditions) fun
        | .error _ => .done (.error .storeFailed)
        | .ok 0 => .done (.error (.noSuchRecord text))
        | .ok _ => .done (.ok ())

end Removal

end RelationalRest
