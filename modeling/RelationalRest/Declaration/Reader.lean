import RelationalRest.Declaration.Basic

/-
  This file defines the reading of declarations from JSON.

  A record is an object whose unknown members are ignored, or
  an array of its parts in order, whose optional parts may be
  left out at the end.  A part that may be absent may also be
  null; a list may be left out but may not be null.

  Key definitions include:
    * `Declaration.Part`
    * `Declaration.ofJson?`
    * `Declaration.listOfJson?`
    * `Declaration.fileOfJson?`
-/

namespace RelationalRest

namespace Declaration

------------------------------------------------------------
-- Parts
------------------------------------------------------------

/- A string. -/
def string? : Json → Option String
| .string s => some s
| _ => none

/- A list of strings. -/
def strings? : Json → Option (List String)
| .array items => items.mapM string?
| _ => none

/- A count below `2 ^ 32`. -/
def count? : Json → Option Nat
| .number (.int i) =>
    if 0 ≤ i ∧ i < Nat.pow 2 32 then some i.toNat else none
| _ => none

/- A part of a record, which may have been left out. -/
abbrev Part :=
  Option Json

/- A part that must be given. -/
def required
    {α : Type}
    (read : Json → Option α)
    (part : Part) : Option α :=
  part.bind read

/- A part that may be left out or null. -/
def optional
    {α : Type}
    (read : Json → Option α) : Part → Option (Option α)
| none => some none
| some .null => some none
| some v => (read v).map some

/- A part that may be left out, and then has a default. -/
def orElse
    {α : Type}
    (default : α)
    (read : Json → Option α) : Part → Option α
| none => some default
| some v => read v

/-
  The parts of a record by the names given in order.  An
  array may not have more items than there are names.
-/
def parts?
    (names : List String)
    (v : Json) : Option (List Part) :=
  match v with
  | .object members => some (names.map (Fields.get? members))
  | .array items =>
      if items.length ≤ names.length then
        some <|
          items.map some ++
            List.replicate (names.length - items.length) none
      else
        none
  | _ => none

------------------------------------------------------------
-- Fields
------------------------------------------------------------

/- A type: the first of its forms that the value has. -/
def type? : Json → Option TypeDeclaration
| .string s => some (.named s)
| .object members =>
    let oneOf := (Fields.get? members "one_of").bind strings?
    let resource := (Fields.get? members "resource").bind string?
    (oneOf.map TypeDeclaration.oneOf) <|>
      (resource.map TypeDeclaration.reference)
| _ => none

/-
  An initial value.  An object that names a generator must
  have no other member; one with `value` alone stands for
  that value; anything else stands for itself.
-/
def initial? (v : Json) : Option InitialDeclaration :=
  match v with
  | .object members =>
      match Fields.get? members "generator", members with
      | some (.string name), [_] => some (.generator name)
      | some _, _ => none
      | none, [("value", v)] => some (.literal v)
      | none, _ => some (.literal v)
  | _ => some (.literal v)

/- A field. -/
def field? (v : Json) : Option FieldDeclaration := do
  let parts ←
    parts?
      ["type", "props", "initial", "rel", "mapping", "limit",
        "sort_by"] v
  match parts with
  | [type, props, initial, relation, mapping, limit, sortBy] =>
      return {
        type := ← required type? type
        props := ← orElse [] strings? props
        initial := ← optional initial? initial
        relation := ← optional string? relation
        mapping := ← optional string? mapping
        limit := ← optional count? limit
        sortBy := ← optional string? sortBy }
  | _ => none

/- The fields by name; the last of several of one name counts. -/
def fields? :
    Json → Option { fs : Fields FieldDeclaration // fs.Distinct }
| .object members =>
    let pairs :=
      members.mapM fun (name, v) =>
        (field? v).map fun f => (name, f)
    pairs.map fun pairs =>
      ⟨Fields.ofList pairs, Fields.distinct_ofList pairs⟩
| _ => none

------------------------------------------------------------
-- Resources
------------------------------------------------------------

/- A mark of deleted records. -/
def softDelete? : Json → Option SoftDeleteDeclaration
| .string s => some (.column s)
| .object members => do
    let column ← (Fields.get? members "column").bind string?
    return .values column
      ((Fields.get? members "live").getD
        SoftDeleteDeclaration.defaultLive)
      ((Fields.get? members "deleted").getD
        SoftDeleteDeclaration.defaultDeleted)
| _ => none

/- The member of either of two names, which exclude each other. -/
def memberOfEither
    (members : Fields Json)
    (first second : String) : Option Json :=
  match Fields.get? members first, Fields.get? members second with
  | some _, some _ => none
  | some v, none => some v
  | none, other => other

/- The ownership of a resource. -/
def ownership? : Json → Option OwnershipDeclaration
| .object members => do
    let column ←
      (memberOfEither members "column" "me").bind string?
    let actorField ←
      (memberOfEither members "actor_field" "user").bind string?
    return { column, actorField }
| .array [column, actorField] => do
    return {
      column := ← string? column
      actorField := ← string? actorField }
| _ => none

/- A resource. -/
def ofJson? (v : Json) : Option Declaration := do
  let parts ←
    parts?
      ["name", "table", "source", "path_segment", "primary_key",
        "soft_delete", "ownership", "upsert_noop_column",
        "hidden", "fields"] v
  match parts with
  | [name, table, source, pathSegment, primaryKey, softDelete,
      ownership, keepColumn, hidden, fields] =>
      let ⟨fields, distinct⟩ ← required fields? fields
      return {
        name := ← required string? name
        table := ← required string? table
        source := ← optional string? source
        pathSegment := ← optional string? pathSegment
        primaryKey := ← optional string? primaryKey
        softDelete := ← optional softDelete? softDelete
        ownership := ← optional ownership? ownership
        keepColumn := ← optional string? keepColumn
        hidden := ← orElse [] strings? hidden
        fields, distinct }
  | _ => none

/- A list of resources. -/
def listOfJson? : Json → Option (List Declaration)
| .array items => items.mapM ofJson?
| _ => none

/- The resources of a file: a list of them, or one alone. -/
def fileOfJson? (v : Json) : Option (List Declaration) :=
  match v with
  | .array items => items.mapM ofJson?
  | _ => (ofJson? v).map fun d => [d]

end Declaration

end RelationalRest
