import RelationalRest.Resource.Catalog
import RelationalRest.Text.Cut

/-
  This file defines envelopes: the nested form of a result
  row.  A cell is named by a table or a label, a low line and
  a column; the cells of the root stand at the top, and those
  of a label in an object under it.

  Key definitions include:
    * `Row`
    * `Resource.owner?`
    * `Resource.envelope`
    * `Catalog.stripHidden`
    * `Catalog.present`
-/

namespace RelationalRest

/- A row of results by the names of its cells. -/
abbrev Row :=
  Fields Json

------------------------------------------------------------
-- Nesting
------------------------------------------------------------

namespace Resource

/- The table and the labels that cells may be named by. -/
def owners (r : Resource) : List String :=
  r.table.name :: r.relations.keys

/- The longer of two openings of a name, the later of equal ones. -/
def longer
    (found : Option (String × String))
    (next : String × String) : Option (String × String) :=
  match found with
  | none => some next
  | some best =>
      if best.1.length ≤ next.1.length then some next else some best

/-
  The table or label that names a cell, and its column: the
  longest that fits.
-/
def owner?
    (r : Resource)
    (cell : String) : Option (String × String) :=
  let fitting :=
    r.owners.filterMap fun owner =>
      (Text.after? (owner ++ "_") cell).map
        fun column => (owner, column)
  fitting.foldl longer none

/- Put a value under a column of the object of a label. -/
def nest
    (envelope : Fields Json)
    (label column : String)
    (v : Json) : Fields Json :=
  match Fields.get? envelope label with
  | none =>
      Fields.insert envelope label (.object [(column, v)])
  | some (.object members) =>
      Fields.insert envelope label
        (.object (Fields.insert members column v))
  | some _ => envelope

/- Put a cell into an envelope. -/
def place
    (r : Resource)
    (envelope : Fields Json)
    (cell : String × Json) : Fields Json :=
  match r.owner? cell.1 with
  | none => Fields.insert envelope cell.1 cell.2
  | some (owner, column) =>
      if owner = r.table.name then
        Fields.insert envelope column cell.2
      else
        nest envelope owner column cell.2

/- The envelope of a row. -/
def envelope
    (r : Resource)
    (row : Row) : Fields Json :=
  row.foldl r.place []

end Resource

------------------------------------------------------------
-- Hiding
------------------------------------------------------------

/- Remove names one after the other. -/
def Fields.without
    {β : Type}
    (m : Fields β)
    (names : List String) : Fields β :=
  names.foldl Fields.swapRemove m

/- Remove names from an object; other values stay as they are. -/
def Json.without
    (v : Json)
    (names : List String) : Json :=
  match v with
  | .object members => .object (Fields.without members names)
  | v => v

namespace Catalog

/- Remove the hidden fields of a relation from its object. -/
def stripRelation
    (c : Catalog)
    (envelope : Fields Json)
    (entry : String × Relation) : Fields Json :=
  match c.find? entry.2.resource with
  | none => envelope
  | some related =>
      Fields.adjust envelope entry.1 fun v =>
        v.without related.hidden

/-
  Remove the hidden fields of a resource, and those of each
  related resource from its object.
-/
def stripHidden
    (c : Catalog)
    (r : Resource)
    (envelope : Fields Json) : Fields Json :=
  r.relations.foldl c.stripRelation
    (Fields.without envelope r.hidden)

/- The form in which a row is shown. -/
def present
    (c : Catalog)
    (r : Resource)
    (row : Row) : Json :=
  .object (c.stripHidden r (r.envelope row))

end Catalog

end RelationalRest
