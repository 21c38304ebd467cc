import RelationalRest.Kind.Filter
import RelationalRest.Listing.Join
import RelationalRest.Request

/-
  This file defines filters by parameters.  A parameter named
  like a column filters by it; one named like a relation to
  one record holds filters of the related resource, one level
  deep, as `name=value` pairs set apart by commas.

  Key definitions include:
    * `Filter.unquote`
    * `Filter.subrequests`
    * `Filter.applyLabelled`
    * `Filter.apply`
-/

namespace RelationalRest

namespace Filter

------------------------------------------------------------
-- Filters of a relation
------------------------------------------------------------

/- The characters that end any quoted run. -/
def isQuote (c : Char) : Bool :=
  c = '\'' || c = '"'

/- The characters that may stand around a quoted run. -/
def isDelimiter (c : Char) : Bool :=
  isQuote c || c = '|'

/- The parts before and after the last occurrence. -/
def cutLast
    (separator : Char)
    (cs : List Char) : Option (List Char × List Char) :=
  (Text.cut separator cs.reverse).map
    fun (after, before) => (before.reverse, after.reverse)

/-
  What an opened run holds and what follows it: it ends at the
  first quote, and if there is none at the last bar.
-/
def close? (cs : List Char) : Option (List Char × List Char) :=
  match cs.dropWhile (!isQuote ·) with
  | _ :: after => some (cs.takeWhile (!isQuote ·), after)
  | [] => cutLast '|' cs

/- Remove the delimiters of the first run that is closed. -/
def unquote : List Char → List Char
| [] => []
| c :: rest =>
    if isDelimiter c then
      match close? rest with
      | some (held, after) => held ++ after
      | none => c :: unquote rest
    else
      c :: unquote rest

/- The name and the value of a pair; without `=` the value is empty. -/
def pairOf (s : String) : String × String :=
  match Text.cut '=' s.toList with
  | some (name, value) => (String.ofList name, String.ofList value)
  | none => (s, "")

/- The filters that the value of a relation holds. -/
def subrequests (value : String) : Fields String :=
  let text := String.ofList (unquote value.toList)
  Fields.ofList ((Text.split ',' text).map pairOf)

------------------------------------------------------------
-- Applying filters
------------------------------------------------------------

/- Filter by a column. -/
def applyColumn
    (field : OwnedField)
    (column : Sql.Column)
    (value : String)
    (q : Sql.Query) : Building :=
  match field.type.kind.condition column value with
  | .ok c => .ok (q.addCondition c)
  | .error e => .stop q e

/-
  Filter by a field of a resource known by a label, where only
  columns can be filtered by.
-/
def applyLabelledField
    (r : Resource)
    (label : String)
    (requests : Fields String)
    (name : String)
    (q : Sql.Query) : Building :=
  match Fields.get? requests name with
  | none => .ok q
  | some value =>
      match Fields.get? r.owns name with
      | some field =>
          applyColumn field { qualifier := label, name } value q
      | none => .stop q .filterTooDeep

/- Filter by the fields of a resource known by a label. -/
def applyLabelled
    (r : Resource)
    (label : String)
    (requests : Fields String)
    (q : Sql.Query) : Building :=
  Building.each (applyLabelledField r label requests) r.filterable q

/- Filter by the fields of a relation, and join it. -/
def applyRelation
    (catalog : Catalog)
    (root : Resource)
    (label : String)
    (value : String)
    (q : Sql.Query) : Building :=
  match Fields.get? root.belongsTo label with
  | none => .stop q (.filterNotRelation label)
  | some relation =>
      match catalog.related relation with
      | .error e => .stop q e
      | .ok related =>
          (applyLabelled related label (subrequests value) q).andThen
            (Listing.join root label related)

/- Filter by a field of the root. -/
def applyField
    (catalog : Catalog)
    (root : Resource)
    (requests : Fields String)
    (name : String)
    (q : Sql.Query) : Building :=
  match Fields.get? requests name with
  | none => .ok q
  | some value =>
      match Fields.get? root.owns name with
      | some field =>
          applyColumn field (root.column name) value q
      | none => applyRelation catalog root name value q

/- Filter by the fields of the root that are requested, in order. -/
def apply
    (catalog : Catalog)
    (root : Resource)
    (requests : Fields String)
    (q : Sql.Query) : Building :=
  Building.each (applyField catalog root requests) root.filterable q

end Filter

end RelationalRest
