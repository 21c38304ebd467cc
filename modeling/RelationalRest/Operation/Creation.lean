import RelationalRest.Operation.Lookup
import RelationalRest.Record.Creation
import RelationalRest.Sql.Change

/-
  This file defines the creation of records: all records of a
  body are inserted by one statement, after each of them has
  been accepted, and are read back when asked for.

  Key definitions include:
    * `Creation.records`
    * `Creation.rows`
    * `Creation.insertion`
    * `Created`
    * `Creation.create`
-/

namespace RelationalRest

/- Where a created record is found, and what was read back. -/
structure Created where
  location : Option String := none
  body : Option Json := none

namespace Creation

------------------------------------------------------------
-- Before the insertion
------------------------------------------------------------

/- The members of a value that is an object. -/
def recordOf : Json → Except RequestError Record
| .object members => .ok members
| _ => .error .elementNotObject

/- The records of a body, and whether it is a list of them. -/
def records : Json → Except RequestError (List Record × Bool)
| .object members => .ok ([members], false)
| .array items =>
    match items.mapM recordOf with
    | .error e => .error e
    | .ok [] => .error .nothingToCreate
    | .ok records => .ok (records, true)
| _ => .error .bodyNotRecords

/- The row of a record. -/
def row
    (r : Resource)
    (now : Timestamp)
    (actor : Option Actor)
    (record : Record) :
    Except RequestError (Fields Sql.Value) :=
  match r.stampOwner actor record with
  | .error e => .error e
  | .ok stamped => r.insertRow now stamped

/-
  The rows of records.  Several rows without any column need a
  primary key to be told apart.
-/
def rows
    (r : Resource)
    (now : Timestamp)
    (actor : Option Actor)
    (records : List Record) :
    Except RequestError (List (Fields Sql.Value)) :=
  match records.mapM (row r now actor) with
  | .error e => .error e
  | .ok rows =>
      if r.primaryKey.isNone ∧ 1 < rows.length ∧
          rows.all List.isEmpty = true then
        .error .severalWithoutFields
      else
        .ok rows

/- The insertion of rows, which gives their keys back. -/
def insertion
    (r : Resource)
    (rows : List (Fields Sql.Value)) : Sql.Insert where
  table := r.table
  rows := rows
  keep := r.keepColumn
  returning := r.primaryKey

------------------------------------------------------------
-- After the insertion
------------------------------------------------------------

/- The failure of a store while creating. -/
def failed
    {α : Type}
    (e : StoreError) : Conversation (Except RequestError α) :=
  .done (.error (.createFailed e.violation))

/- The location of a record. -/
def location
    (baseUrl : String)
    (request : Request)
    (id : Json) : String :=
  baseUrl ++ request.path ++ "/" ++ id.plainText

/- The query that reads created records back. -/
def expansion
    (c : Catalog)
    (r : Resource)
    (ids : List Json) : Except RequestError Sql.Query :=
  match r.keyKind with
  | .error e => .error e
  | .ok (key, kind) =>
      (Projection.byDefault.apply c r { root := r.table }).result.map
        fun q =>
          q.addCondition <| .anyOf <|
            ids.map fun id =>
              .equal (r.column key) (kind.ofJson id)

/- The body for records that were read back. -/
def expandedBody
    (many : Bool) : List Json → Json
| records =>
    if many then .array records else records.head?.getD .null

/- Read created records back, if this is asked for. -/
def expand
    (c : Catalog)
    (r : Resource)
    (request : Request)
    (many : Bool)
    (ids : List Json)
    (location : Option String) :
    Conversation (Except RequestError Created) :=
  if request.params.contains "expand" ∧ ids ≠ [] then
    match expansion c r ids with
    | .error e => .done (.error e)
    | .ok q =>
        .fetchRows q.select fun
          | .error e => failed e
          | .ok rows =>
              .done <| .ok
                { location
                  body :=
                    expandedBody many (rows.map (c.present r)) }
  else
    .done (.ok { location })

/- Insert rows. -/
def insertAll
    (c : Catalog)
    (baseUrl : String)
    (r : Resource)
    (request : Request)
    (many : Bool)
    (rows : List (Fields Sql.Value)) :
    Conversation (Except RequestError Created) :=
  let statement := (insertion r rows).statement
  match r.primaryKey with
  | none =>
      .execute statement fun
        | .error e => failed e
        | .ok _ => .done (.ok {})
  | some key =>
      .fetchRows statement fun
        | .error e => failed e
        | .ok inserted =>
            let ids :=
              inserted.filterMap fun row => Fields.get? row key
            expand c r request many ids
              (ids.head?.map (location baseUrl request))

/- Create the records of a body. -/
def create
    (c : Catalog)
    (baseUrl : String)
    (now : Timestamp)
    (r : Resource)
    (request : Request)
    (body : Json) :
    Conversation (Except RequestError Created) :=
  match records body with
  | .error e => .done (.error e)
  | .ok (records, many) =>
      match rows r now request.actor records with
      | .error e => .done (.error e)
      | .ok rows => insertAll c baseUrl r request many rows

end Creation

end RelationalRest
