import RelationalRest.Error.Schema
import RelationalRest.Error.Store

/-
  This file defines why a request is refused or fails, and
  the class of each cause, which decides the status of the
  response.

  Key definitions include:
    * `RequestError`
    * `ErrorClass`
    * `RequestError.errorClass`
    * `RequestError.message`
-/

namespace RelationalRest

------------------------------------------------------------
-- Classes
------------------------------------------------------------

/- A class of causes. -/
inductive ErrorClass where
| schema
| invalidArgument
| missingParameter
| notFound
| unauthorized
| store
deriving DecidableEq, Repr

namespace ErrorClass

/- The name of a class in a response. -/
def code : ErrorClass → String
| .schema => "schema_error"
| .invalidArgument => "invalid_argument"
| .missingParameter => "missing_parameter"
| .notFound => "not_found"
| .unauthorized => "unauthorized"
| .store => "store_error"

/- The status of a response. -/
def status : ErrorClass → Nat
| .schema => 500
| .store => 500
| .invalidArgument => 400
| .missingParameter => 400
| .notFound => 404
| .unauthorized => 401

/- What precedes the wording of a cause. -/
def opening : ErrorClass → String
| .schema => ""
| .store => ""
| .invalidArgument => "invalid argument: "
| .missingParameter => "missing parameter: "
| .notFound => "not found: "
| .unauthorized => "unauthorized: "

end ErrorClass

------------------------------------------------------------
-- Causes
------------------------------------------------------------

/- Why a request is refused or fails. -/
inductive RequestError where
| schema (e : SchemaError)
| invalidValue (value field : String)
| filterTooDeep
| filterNotRelation (name : String)
| notARelation (label resource : String)
| unknownSortField (field : String)
| invalidLimit (text : String)
| invalidOffset (text : String)
| noPrimaryKey
| elementNotObject
| bodyNotRecords
| nothingToCreate
| severalWithoutFields
| foreignOwner
| readOnlyField (field : String)
| missingField (field : String)
| noSuchRecord (key : String)
| noSuchResource (segment : String)
| ownerRequired (resource : String)
| createFailed (violation : Violation)
| storeFailed
deriving DecidableEq, Repr

namespace RequestError

/- The class of a cause. -/
def errorClass : RequestError → ErrorClass
| .schema _ => .schema
| .missingField _ => .missingParameter
| .noSuchRecord _ => .notFound
| .noSuchResource _ => .notFound
| .ownerRequired _ => .unauthorized
| .createFailed _ => .store
| .storeFailed => .store
| _ => .invalidArgument

/- The wording of a cause, without its class. -/
def detail : RequestError → String
| .schema e => e.message
| .invalidValue value field => s!"'{value}' invalid for {field}"
| .filterTooDeep => "filters may only be nested to 1 level"
| .filterNotRelation name =>
    s!"filter '{name}' must name a belongs_to relation"
| .notARelation label resource =>
    s!"'{label}' is not a relation of {resource}"
| .unknownSortField field =>
    s!"sort_by field '{field}' not recognized"
| .invalidLimit text => s!"limit value {text}"
| .invalidOffset text => s!"offset value {text}"
| .noPrimaryKey => "no primary key for this resource"
| .elementNotObject => "each element must be a JSON object"
| .bodyNotRecords => "body must be a JSON object or array"
| .nothingToCreate => "nothing to create"
| .severalWithoutFields =>
    "records without any field can only be created one at a time"
| .foreignOwner => "Cannot assign different user."
| .readOnlyField field => s!"cannot set field {field}"
| .missingField field => s!"must provide {field}"
| .noSuchRecord key => key
| .noSuchResource segment => s!"resource {segment}"
| .ownerRequired resource =>
    s!"{resource} requires an authenticated owner"
| .createFailed violation => violation.createMessage
| .storeFailed => "database error"

/- The wording of a cause. -/
def message (e : RequestError) : String :=
  e.errorClass.opening ++ e.detail

/- The status of the response to a cause. -/
def status (e : RequestError) : Nat :=
  e.errorClass.status

end RequestError

end RelationalRest
