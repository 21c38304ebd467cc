import RelationalRest.Calendar.Printer
import RelationalRest.Error.Request
import RelationalRest.Request
import RelationalRest.Resource.Basic

/-
  This file defines how a record sent for creation becomes a
  row to insert: it is stamped with its owner, and then every
  column takes the value sent for it or its initial value.

  Key definitions include:
    * `Initial.produce`
    * `Resource.stampOwner`
    * `Resource.insertRow`
-/

namespace RelationalRest

/- A record sent for creation. -/
abbrev Record :=
  Fields Json

/- The value that stands for a field that was not sent. -/
def Initial.produce
    (now : Timestamp) : Initial → Json
| .value v => v
| .now => .string now.utcText

namespace Resource

------------------------------------------------------------
-- Owners
------------------------------------------------------------

/-
  What the actor owns records by, if the resource has owners.
-/
def ownerOf
    (r : Resource)
    (o : Ownership)
    (actor : Option Actor) : Except RequestError Json :=
  match actor.bind fun a => a.field? o.actorField with
  | some owner => .ok owner
  | none => .error (.ownerRequired r.name)

/-
  Stamp a record with its owner.  A record that names another
  owner is refused.
-/
def stampOwner
    (r : Resource)
    (actor : Option Actor)
    (record : Record) : Except RequestError Record :=
  match r.ownership with
  | none => .ok record
  | some o =>
      match r.ownerOf o actor with
      | .error e => .error e
      | .ok owner =>
          match Fields.get? record o.column with
          | some given =>
              if given.same owner then
                .ok (Fields.insert record o.column owner)
              else
                .error .foreignOwner
          | none => .ok (Fields.insert record o.column owner)

------------------------------------------------------------
-- Rows
------------------------------------------------------------

/-
  The value of a column: none if it was not sent and has no
  initial value.  A required column must be sent, a read-only
  one must not, and the kind must accept the value.
-/
def insertCell
    (now : Timestamp)
    (record : Record)
    (name : String)
    (f : OwnedField) : Except RequestError (Option Sql.Value) :=
  let sent := Fields.get? record name
  if f.props.required ∧ sent.isNone then
    .error (.missingField name)
  else if f.props.readOnly ∧ sent.isSome then
    .error (.readOnlyField name)
  else
    match sent <|> f.initial.map (Initial.produce now) with
    | none => .ok none
    | some v =>
        if f.type.kind.acceptsJson v then
          .ok (some (f.type.kind.ofJson v))
        else
          .error (.invalidValue v.plainText name)

/- The values of columns in order. -/
def insertCells
    (now : Timestamp)
    (record : Record) :
    Fields OwnedField → Except RequestError (Fields Sql.Value)
| [] => .ok []
| (name, f) :: rest =>
    match insertCell now record name f with
    | .error e => .error e
    | .ok none => insertCells now record rest
    | .ok (some v) =>
        match insertCells now record rest with
        | .error e => .error e
        | .ok cells => .ok ((name, v) :: cells)

/- The row to insert for a stamped record. -/
def insertRow
    (r : Resource)
    (now : Timestamp)
    (record : Record) : Except RequestError (Fields Sql.Value) :=
  insertCells now record r.owns

end Resource

end RelationalRest
