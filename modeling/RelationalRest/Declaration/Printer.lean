import RelationalRest.Declaration.Basic

/-
  This file defines the JSON form in which declarations are
  shown: every part in order, and null for an absent one.

  Key definitions include:
    * `FieldDeclaration.toJson`
    * `Declaration.toJson`
-/

namespace RelationalRest

/- A list of strings. -/
def Json.ofStrings (items : List String) : Json :=
  .array (items.map .string)

/- A value that may be absent. -/
def Json.ofOption
    {α : Type}
    (write : α → Json)
    (a : Option α) : Json :=
  (a.map write).getD .null

/- A count. -/
def Json.ofNat (n : Nat) : Json :=
  .number (.int n)

open Json (ofStrings ofOption)

/- The form of a type. -/
def TypeDeclaration.toJson : TypeDeclaration → Json
| .named name => .string name
| .oneOf values => .object [("one_of", ofStrings values)]
| .reference resource =>
    .object [("resource", .string resource)]

/- The form of an initial value. -/
def InitialDeclaration.toJson : InitialDeclaration → Json
| .literal v => .object [("Literal", v)]
| .generator name =>
    .object
      [("Generator", .object [("generator", .string name)])]

/- The form of a field. -/
def FieldDeclaration.toJson (f : FieldDeclaration) : Json :=
  .object
    [("type", f.type.toJson),
      ("props", ofStrings f.props),
      ("initial", ofOption InitialDeclaration.toJson f.initial),
      ("rel", ofOption .string f.relation),
      ("mapping", ofOption .string f.mapping),
      ("limit", ofOption Json.ofNat f.limit),
      ("sort_by", ofOption .string f.sortBy)]

/- The form of a mark of deleted records. -/
def SoftDeleteDeclaration.toJson : SoftDeleteDeclaration → Json
| .column name => .string name
| .values name live deleted =>
    .object
      [("column", .string name), ("live", live),
        ("deleted", deleted)]

/- The form of an ownership. -/
def OwnershipDeclaration.toJson (o : OwnershipDeclaration) : Json :=
  .object
    [("column", .string o.column),
      ("actor_field", .string o.actorField)]

/- The form of a resource. -/
def Declaration.toJson (d : Declaration) : Json :=
  .object
    [("name", .string d.name),
      ("table", .string d.table),
      ("source", ofOption .string d.source),
      ("path_segment", ofOption .string d.pathSegment),
      ("primary_key", ofOption .string d.primaryKey),
      ("soft_delete",
        ofOption SoftDeleteDeclaration.toJson d.softDelete),
      ("ownership",
        ofOption OwnershipDeclaration.toJson d.ownership),
      ("upsert_noop_column", ofOption .string d.keepColumn),
      ("hidden", ofStrings d.hidden),
      ("fields",
        .object <|
          d.fields.map fun (name, f) => (name, f.toJson))]

end RelationalRest
