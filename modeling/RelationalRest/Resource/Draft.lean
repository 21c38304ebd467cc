import RelationalRest.Error.Schema
import RelationalRest.Resource.Basic

/-
  This file defines drafts of resources and their check.  A
  draft lists its fields as declared; the check sorts them
  into columns and relations, and refuses a draft whose parts
  do not fit each other.

  Key definitions include:
    * `RelationKind`
    * `FieldDraft`
    * `ResourceDraft`
    * `ResourceDraft.check`
-/

namespace RelationalRest

/- Whether a relation leads to one record or to many. -/
inductive RelationKind where
| belongsTo
| hasMany
deriving DecidableEq, Repr

/- The kind that a word names. -/
def RelationKind.ofName? : String → Option RelationKind
| "belongs_to" => some .belongsTo
| "has_many" => some .hasMany
| _ => none

/- The relation that a field is declared to be. -/
structure RelationTag where
  kind : RelationKind
  mapping : String
  limit : Option Nat
  sortBy : Option String
deriving DecidableEq, Repr

/- A field as declared. -/
structure FieldDraft where
  type : FieldType
  props : Props
  initial : Option Initial
  relation : Option RelationTag

/- A resource as declared. -/
structure ResourceDraft where
  name : String
  table : Sql.Table
  pathSegment : String
  primaryKey : Option String
  softDelete : Option SoftDelete
  ownership : Option Ownership
  keepColumn : Option String
  hidden : List String
  fields : Fields FieldDraft

------------------------------------------------------------
-- Sorting fields
------------------------------------------------------------

namespace FieldDraft

/- The column that a field without a relation is. -/
def owned? (f : FieldDraft) : Option OwnedField :=
  match f.relation with
  | none =>
      some { type := f.type, props := f.props, initial := f.initial }
  | some _ => none

/- The relation that a field is, if it is one of this kind. -/
def relation?
    (kind : RelationKind)
    (f : FieldDraft) : Option Relation :=
  match f.relation, f.type.target? with
  | some tag, some resource =>
      if tag.kind = kind then
        some
          { resource
            props := f.props
            mapping := tag.mapping
            limit := tag.limit
            sortBy := tag.sortBy }
      else
        none
  | _, _ => none

/- A relation needs a resource to lead to. -/
def leadsNowhere (f : FieldDraft) : Bool :=
  f.relation.isSome && f.type.target?.isNone

end FieldDraft

namespace ResourceDraft

/- The fields that a function keeps, in order. -/
def pick
    {β : Type}
    (d : ResourceDraft)
    (f : FieldDraft → Option β) : Fields β :=
  d.fields.filterMap fun (label, field) =>
    (f field).map fun b => (label, b)

/- The columns. -/
def owns (d : ResourceDraft) : Fields OwnedField :=
  d.pick FieldDraft.owned?

/- The relations of a kind. -/
def relations
    (d : ResourceDraft)
    (kind : RelationKind) : Fields Relation :=
  d.pick (FieldDraft.relation? kind)

/- The names of the fields that can be filtered by. -/
def filterable (d : ResourceDraft) : List String :=
  (d.fields.filter fun (_, f) => !f.props.noFilter).map Prod.fst

------------------------------------------------------------
-- The check
------------------------------------------------------------

/- A relation that leads to no resource. -/
def relationTypeError? (d : ResourceDraft) : Option SchemaError :=
  d.fields.findSome? fun (label, f) =>
    if f.leadsNowhere then
      some (.invalidRelation d.name label .noResourceType)
    else
      none

/- A primary key that is no column. -/
def primaryKeyError? (d : ResourceDraft) : Option SchemaError :=
  d.primaryKey.bind fun key =>
    if Fields.contains d.owns key then
      none
    else
      some (.invalidPrimaryKey d.name key)

/-
  The columns that other parts name: of the owner, the one
  kept on a conflict, and those that hold related keys.
-/
def namedColumns (d : ResourceDraft) : List String :=
  (d.ownership.map Ownership.column).toList ++
    d.keepColumn.toList ++
    (d.relations .belongsTo).values.map Relation.mapping

/- A named column that is no column. -/
def namedColumnError? (d : ResourceDraft) : Option SchemaError :=
  d.namedColumns.findSome? fun column =>
    if Fields.contains d.owns column then
      none
    else
      some (.missingColumn d.name column)

/-
  A label captures the columns of a table in result rows, if
  it is the table's name or begins with it and a low line.
-/
def clashes (label table : String) : Bool :=
  label = table || (Text.after? (table ++ "_") label).isSome

/- A label that captures the columns of the table. -/
def labelError? (d : ResourceDraft) : Option SchemaError :=
  let labels :=
    (d.relations .belongsTo).keys ++ (d.relations .hasMany).keys
  labels.findSome? fun label =>
    if clashes label d.table.name then
      some (.invalidRelation d.name label (.labelClash d.table.name))
    else
      none

/- The first thing wrong with a draft. -/
def error? (d : ResourceDraft) : Option SchemaError :=
  d.relationTypeError? <|> d.primaryKeyError? <|>
    d.namedColumnError? <|> d.labelError?

/- The resource of a draft with which nothing is wrong. -/
def check (d : ResourceDraft) : Except SchemaError Resource :=
  match d.error? with
  | some e => .error e
  | none =>
      .ok
        { name := d.name
          table := d.table
          pathSegment := d.pathSegment
          primaryKey := d.primaryKey
          softDelete := d.softDelete
          ownership := d.ownership
          keepColumn := d.keepColumn
          hidden := d.hidden
          types := d.fields.map fun (label, f) => (label, f.type)
          owns := d.owns
          belongsTo := d.relations .belongsTo
          hasMany := d.relations .hasMany
          filterable := d.filterable }

end ResourceDraft

end RelationalRest
