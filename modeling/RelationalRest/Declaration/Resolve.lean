import RelationalRest.Declaration.Basic
import RelationalRest.Resource.Catalog
import RelationalRest.Resource.Draft

/-
  This file defines how declarations become a catalog: each
  is turned into a draft and checked, then names and path
  segments must be distinct, and then the references between
  the resources are checked.  The first error wins.

  Key definitions include:
    * `Kind.ofName?`
    * `Props.ofNames`
    * `Declaration.draft`
    * `Declaration.resolve`
-/

namespace RelationalRest

------------------------------------------------------------
-- Words
------------------------------------------------------------

/- The kind that a word names, in any case of letters. -/
def Kind.ofName? (name : String) : Option Kind :=
  match String.ofList (name.toList.map Char.toLower) with
  | "int" => some .integer
  | "integer" => some .integer
  | "bool" => some .boolean
  | "boolean" => some .boolean
  | "str" => some .string
  | "string" => some .string
  | "date" => some .timestamp
  | "timestamp" => some .timestamp
  | _ => none

/- Set the property that a word names. -/
def Props.set
    (p : Props)
    (name : String) : Option Props :=
  match name with
  | "default" => some { p with byDefault := true }
  | "required" => some { p with required := true }
  | "read-only" => some { p with readOnly := true }
  | "read_only" => some { p with readOnly := true }
  | "no-filter" => some { p with noFilter := true }
  | _ => none

/- The properties that words name, or the first unknown word. -/
def Props.ofNames (names : List String) : Except String Props :=
  names.foldlM
    (fun p name =>
      match p.set name with
      | some p => .ok p
      | none => .error name)
    {}

------------------------------------------------------------
-- Fields
------------------------------------------------------------

namespace FieldDeclaration

/- The type of a field. -/
def fieldType
    (f : FieldDeclaration)
    (resource label : String) : Except SchemaError FieldType :=
  match f.type with
  | .named name =>
      match Kind.ofName? name with
      | some kind => .ok (.value kind)
      | none => .error (.unknownType name resource label)
  | .oneOf values => .ok (.value (.oneOf values))
  | .reference target => .ok (.reference target)

/- The initial value of a field. -/
def initialValue
    (f : FieldDeclaration)
    (resource label : String) :
    Except SchemaError (Option Initial) :=
  match f.initial with
  | none => .ok none
  | some (.literal v) => .ok (some (.value v))
  | some (.generator name) =>
      if name = "now" then
        .ok (some .now)
      else
        .error (.unknownGenerator name resource label)

/- The relation that a field is. -/
def relationTag
    (f : FieldDeclaration)
    (resource label : String) :
    Except SchemaError (Option RelationTag) :=
  match f.relation with
  | none => .ok none
  | some word =>
      match RelationKind.ofName? word, f.mapping with
      | none, _ =>
          .error (.invalidRelation resource label (.unknownKind word))
      | some _, none =>
          .error (.invalidRelation resource label .noMapping)
      | some kind, some mapping =>
          .ok
            (some
              { kind, mapping
                limit := f.limit
                sortBy := f.sortBy })

/- The draft of a field. -/
def draft
    (f : FieldDeclaration)
    (resource label : String) : Except SchemaError FieldDraft := do
  let type ← f.fieldType resource label
  let props ←
    match Props.ofNames f.props with
    | .ok props => .ok props
    | .error word =>
        .error (.unknownProperty word resource label)
  let initial ← f.initialValue resource label
  let relation ← f.relationTag resource label
  return { type, props, initial, relation }

end FieldDeclaration

------------------------------------------------------------
-- Resources
------------------------------------------------------------

/- The mark of deleted records. -/
def SoftDeleteDeclaration.softDelete :
    SoftDeleteDeclaration → SoftDelete
| .column name =>
    { column := name
      live := defaultLive
      deleted := defaultDeleted }
| .values name live deleted => { column := name, live, deleted }

namespace Declaration

/- The draft of a resource. -/
def draft (d : Declaration) : Except SchemaError ResourceDraft := do
  let fields ←
    d.fields.mapM fun (label, f) => do
      let draft ← f.draft d.name label
      return (label, draft)
  return {
    name := d.name
    table := { name := d.table, source := d.source }
    pathSegment := d.pathSegment.getD d.name
    primaryKey := d.primaryKey
    softDelete := d.softDelete.map (·.softDelete)
    ownership :=
      d.ownership.map fun o =>
        { column := o.column, actorField := o.actorField }
    keepColumn := d.keepColumn
    hidden := d.hidden
    fields }

/- The checked resource of a declaration. -/
def resource (d : Declaration) : Except SchemaError Resource := do
  let draft ← d.draft
  draft.check

/- The catalog of declarations. -/
def resolve
    (declarations : List Declaration) :
    Except SchemaError Catalog := do
  let resources ← declarations.mapM resource
  let catalog ← Catalog.ofResources resources
  catalog.checkReferences

end Declaration

end RelationalRest
