import RelationalRest.Fields
import RelationalRest.Json.Basic

/-
  This file defines declarations of resources, in the form in
  which they are written down.

  Key definitions include:
    * `TypeDeclaration`
    * `InitialDeclaration`
    * `FieldDeclaration`
    * `SoftDeleteDeclaration`
    * `OwnershipDeclaration`
    * `Declaration`
-/

namespace RelationalRest

/- The type of a field: a named one, listed values, or a resource. -/
inductive TypeDeclaration where
| named (name : String)
| oneOf (values : List String)
| reference (resource : String)
deriving DecidableEq, Repr

/- An initial value, or the name of what generates it. -/
inductive InitialDeclaration where
| literal (v : Json)
| generator (name : String)

/- A field. -/
structure FieldDeclaration where
  type : TypeDeclaration
  props : List String := []
  initial : Option InitialDeclaration := none
  relation : Option String := none
  mapping : Option String := none
  limit : Option Nat := none
  sortBy : Option String := none

/- A mark of deleted records: a column alone, or with its values. -/
inductive SoftDeleteDeclaration where
| column (name : String)
| values (name : String) (live deleted : Json)

/- The column of the owner, and the field of the actor. -/
structure OwnershipDeclaration where
  column : String
  actorField : String
deriving DecidableEq, Repr

/- A resource, no field of which is declared twice. -/
structure Declaration where
  name : String
  table : String
  source : Option String := none
  pathSegment : Option String := none
  primaryKey : Option String := none
  softDelete : Option SoftDeleteDeclaration := none
  ownership : Option OwnershipDeclaration := none
  keepColumn : Option String := none
  hidden : List String := []
  fields : Fields FieldDeclaration
  distinct : Fields.Distinct fields := by decide

/- The value of live records where none is declared. -/
def SoftDeleteDeclaration.defaultLive : Json :=
  .bool false

/- The value of deleted records where none is declared. -/
def SoftDeleteDeclaration.defaultDeleted : Json :=
  .bool true

end RelationalRest
