/-
  This file defines the failures that a store reports, by the
  rule of the database that was broken.

  Key definitions include:
    * `Violation`
    * `StoreError`
    * `Violation.ofState`
    * `StoreError.ofDatabase`
    * `Violation.createMessage`
-/

namespace RelationalRest

/- The rule that a statement broke. -/
inductive Violation where
| foreignKey
| unique
| undefinedColumn
| other
deriving DecidableEq, Repr

/- The rule that a five-character state of the database names. -/
def Violation.ofState (state : Option String) : Violation :=
  if state = some "23503" then .foreignKey
  else if state = some "23505" then .unique
  else if state = some "42703" then .undefinedColumn
  else .other

/- What a caller is told when an insertion breaks a rule. -/
def Violation.createMessage : Violation → String
| .foreignKey => "Referenced object could not be found"
| .unique => "Duplicate entry"
| .undefinedColumn => "A field was not recognized"
| .other => "Internal Error"

/- A failure of the store. -/
structure StoreError where
  violation : Violation
  detail : String
deriving DecidableEq, Repr

namespace StoreError

/- The wording of a failure. -/
def message (e : StoreError) : String :=
  match e.violation with
  | .foreignKey => "foreign key violation: " ++ e.detail
  | .unique => "unique violation: " ++ e.detail
  | .undefinedColumn => "undefined column: " ++ e.detail
  | .other => e.detail

/- A failure that the database reports with a state. -/
def ofDatabase
    (state : Option String)
    (detail : String) : StoreError where
  violation := Violation.ofState state
  detail := "error returned from database: " ++ detail

/- A failure to understand what the database sent. -/
def ofInvalidData (detail : String) : StoreError where
  violation := .other
  detail :=
    "encountered unexpected or invalid data: " ++ detail

end StoreError

end RelationalRest
