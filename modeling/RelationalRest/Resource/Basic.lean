import RelationalRest.Fields
import RelationalRest.Json.Basic
import RelationalRest.Kind.Basic
import RelationalRest.Sql.Query

/-
  This file defines resources: a table, its columns, and the
  relations that lead to other resources.

  A field without a relation is a column of the table.  A
  relation is known by its label: it belongs to a record of
  another resource, whose key one of our columns holds, or it
  has many records there, which hold our key.

  Key definitions include:
    * `FieldType`
    * `Props`
    * `Initial`
    * `OwnedField`
    * `Relation`
    * `Resource`
-/

namespace RelationalRest

------------------------------------------------------------
-- Fields
------------------------------------------------------------

/- The type of a field: a kind of values, or another resource. -/
inductive FieldType where
| value (kind : Kind)
| reference (resource : String)
deriving DecidableEq, Repr

namespace FieldType

/- The resource that a field refers to. -/
def target? : FieldType → Option String
| .value _ => none
| .reference resource => some resource

/- The kind of a field's values; a reference is a whole number. -/
def kind : FieldType → Kind
| .value kind => kind
| .reference _ => .integer

end FieldType

/-
  The properties of a field: it is selected by default, must
  be given on creation, must not be given on creation, or
  cannot be filtered by.
-/
structure Props where
  byDefault : Bool := false
  required : Bool := false
  readOnly : Bool := false
  noFilter : Bool := false
deriving DecidableEq, Repr

/- The value of a field that is not given on creation. -/
inductive Initial where
| value (v : Json)
| now

/- A column of a resource. -/
structure OwnedField where
  type : FieldType
  props : Props
  initial : Option Initial

/-
  A relation to another resource.  The mapping is our column
  that holds their key, or their column that holds ours.
-/
structure Relation where
  resource : String
  props : Props
  mapping : String
  limit : Option Nat
  sortBy : Option String
deriving DecidableEq, Repr

------------------------------------------------------------
-- Resources
------------------------------------------------------------

/-
  A column that marks deleted records, with its value for
  live records and for deleted ones.
-/
structure SoftDelete where
  column : String
  live : Json
  deleted : Json

/- The column that holds the owner, who is a field of the actor. -/
structure Ownership where
  column : String
  actorField : String
deriving DecidableEq, Repr

/- A checked resource. -/
structure Resource where
  name : String
  table : Sql.Table
  pathSegment : String
  primaryKey : Option String
  softDelete : Option SoftDelete
  ownership : Option Ownership
  keepColumn : Option String
  hidden : List String
  types : Fields FieldType
  owns : Fields OwnedField
  belongsTo : Fields Relation
  hasMany : Fields Relation
  filterable : List String

namespace Resource

/- A column of the resource's own table. -/
def column
    (r : Resource)
    (name : String) : Sql.Column where
  qualifier := r.table.name
  name := name

/- The relations by label, those to one record first. -/
def relations (r : Resource) : Fields Relation :=
  r.belongsTo ++ r.hasMany

/- The resource has a column of this name. -/
def ownsColumn
    (r : Resource)
    (name : String) : Bool :=
  Fields.contains r.owns name

end Resource

end RelationalRest
