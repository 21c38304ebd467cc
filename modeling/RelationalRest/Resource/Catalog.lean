import RelationalRest.Error.Request
import RelationalRest.Hook
import RelationalRest.Resource.Basic

/-
  This file defines the catalog of all resources, which are
  found by name or by path segment, and the check that the
  relations between them can be followed.

  Key definitions include:
    * `Catalog`
    * `Catalog.ofResources`
    * `Catalog.find?`
    * `Catalog.byPath?`
    * `Catalog.related`
    * `Catalog.checkReferences`
-/

namespace RelationalRest

/- All resources, and the hooks of some of them. -/
structure Catalog where
  resources : List Resource := []
  hooks : Fields Hook := []

namespace Catalog

------------------------------------------------------------
-- Building
------------------------------------------------------------

/- Add a resource whose name and path segment are new. -/
def add
    (c : Catalog)
    (r : Resource) : Except SchemaError Catalog :=
  if c.resources.any fun other => other.name = r.name then
    .error (.duplicateResource r.name)
  else if
      c.resources.any fun other =>
        other.pathSegment = r.pathSegment then
    .error (.duplicatePathSegment r.pathSegment)
  else
    .ok { c with resources := c.resources ++ [r] }

/- The catalog of resources with distinct names and segments. -/
def ofResources
    (resources : List Resource) : Except SchemaError Catalog :=
  resources.foldlM add {}

------------------------------------------------------------
-- Looking up
------------------------------------------------------------

/- The resource of a name. -/
def find?
    (c : Catalog)
    (name : String) : Option Resource :=
  c.resources.find? fun r => r.name = name

/- The resource of a path segment. -/
def byPath?
    (c : Catalog)
    (segment : String) : Option Resource :=
  c.resources.find? fun r => r.pathSegment = segment

/- The resource that a relation leads to. -/
def related
    (c : Catalog)
    (relation : Relation) : Except RequestError Resource :=
  match c.find? relation.resource with
  | some r => .ok r
  | none => .error (.schema (.missingResource relation.resource))

/- The hook of a resource. -/
def hook?
    (c : Catalog)
    (resource : String) : Option Hook :=
  Fields.get? c.hooks resource

/- Set the hook of a resource of the catalog. -/
def setHook
    (c : Catalog)
    (resource : String)
    (hook : Hook) : Except SchemaError Catalog :=
  if (c.find? resource).isSome then
    .ok { c with hooks := Fields.insert c.hooks resource hook }
  else
    .error (.missingResource resource)

------------------------------------------------------------
-- Checking references
------------------------------------------------------------

/-
  What is wrong with a relation to one record: its resource
  is missing or has no key to be found by.
-/
def belongsToError?
    (c : Catalog)
    (r : Resource)
    (label : String)
    (relation : Relation) : Option SchemaError :=
  match c.find? relation.resource with
  | none => some (.missingResource relation.resource)
  | some target =>
      if target.primaryKey.isSome then
        none
      else
        some <|
          .invalidRelation r.name label
            (.targetWithoutKey target.name)

/-
  What is wrong with a relation to many records: their
  resource is missing or lacks the column with our key.
-/
def hasManyError?
    (c : Catalog)
    (r : Resource)
    (label : String)
    (relation : Relation) : Option SchemaError :=
  match c.find? relation.resource with
  | none => some (.missingResource relation.resource)
  | some target =>
      if target.ownsColumn relation.mapping then
        none
      else
        some <|
          .invalidRelation r.name label
            (.mappingNotOwned relation.mapping target.name)

/- A column that refers to a missing resource. -/
def columnError?
    (c : Catalog)
    (r : Resource)
    (name : String)
    (field : OwnedField) : Option SchemaError :=
  field.type.target?.bind fun target =>
    if (c.find? target).isSome then
      none
    else
      some (.missingFieldTarget target r.name name)

/- The first reference of a resource that cannot be followed. -/
def referenceError?
    (c : Catalog)
    (r : Resource) : Option SchemaError :=
  (r.belongsTo.findSome? fun (label, relation) =>
      c.belongsToError? r label relation) <|>
    (r.hasMany.findSome? fun (label, relation) =>
      c.hasManyError? r label relation) <|>
    (r.owns.findSome? fun (name, field) =>
      c.columnError? r name field)

/- A catalog whose references can all be followed. -/
def checkReferences
    (c : Catalog) : Except SchemaError Catalog :=
  match c.resources.findSome? c.referenceError? with
  | some e => .error e
  | none => .ok c

end Catalog

end RelationalRest
