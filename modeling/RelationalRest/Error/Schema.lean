/-
  This file defines what can be wrong with declared resources,
  one by one and with each other.

  Key definitions include:
    * `RelationFault`
    * `SchemaError`
    * `SchemaError.message`
-/

namespace RelationalRest

/- Why a field cannot be a relation. -/
inductive RelationFault where
| unknownKind (kind : String)
| noMapping
| noResourceType
| labelClash (table : String)
| targetWithoutKey (target : String)
| mappingNotOwned (mapping target : String)
deriving DecidableEq, Repr

/- The wording of a fault. -/
def RelationFault.message : RelationFault → String
| .unknownKind kind => s!"unknown relation kind '{kind}'"
| .noMapping => "relation requires a mapping"
| .noResourceType =>
    "relation fields must reference a resource type"
| .labelClash table =>
    s!"label clashes with the column prefix of table '{table}'"
| .targetWithoutKey target =>
    s!"related resource '{target}' has no primary key"
| .mappingNotOwned mapping target =>
    s!"'{mapping}' is not a column of '{target}'"

/- What is wrong with declared resources. -/
inductive SchemaError where
| missingColumn (resource column : String)
| missingResource (name : String)
| missingFieldTarget (name resource field : String)
| invalidPrimaryKey (resource field : String)
| unknownType (name resource field : String)
| unknownGenerator (name resource field : String)
| unknownProperty (name resource field : String)
| invalidRelation (resource field : String) (fault : RelationFault)
| duplicateResource (name : String)
| duplicatePathSegment (segment : String)
deriving DecidableEq, Repr

namespace SchemaError

/- The wording of an error. -/
def message : SchemaError → String
| .missingColumn resource column =>
    s!"missing reference: column '{resource}.{column}'"
| .missingResource name =>
    s!"missing reference: resource '{name}'"
| .missingFieldTarget name resource field =>
    s!"missing reference: resource '{name} (field {resource}.{field})'"
| .invalidPrimaryKey resource field =>
    s!"invalid primary key: resource {resource} field {field}"
| .unknownType name resource field =>
    s!"unknown type '{name}' for {resource}.{field}"
| .unknownGenerator name resource field =>
    s!"unknown type 'generator {name}' for {resource}.{field}"
| .unknownProperty name resource field =>
    s!"unknown property '{name}' for {resource}.{field}"
| .invalidRelation resource field fault =>
    s!"invalid relation {resource}.{field}: " ++ fault.message
| .duplicateResource name => s!"duplicate resource: {name}"
| .duplicatePathSegment segment =>
    s!"duplicate path segment: {segment}"

end SchemaError

end RelationalRest
