import RelationalRest.Listing.Join
import RelationalRest.Request

/-
  This file defines projections: which columns of a resource,
  and of the resources it belongs to, a query selects.

  Key definitions include:
    * `Projection`
    * `Projection.ofParams`
    * `Projection.chosen`
    * `Projection.apply`
-/

namespace RelationalRest

/-
  The columns to select: all of them, those of the property
  `default`, or the requested ones.  A requested entry names a
  column of the root, or one of a relation after its label and
  a point; an empty name stands for the default columns.
-/
inductive Projection where
| everything
| byDefault
| requested (entries : List String)
deriving DecidableEq, Repr

namespace Projection

/- The projection that the parameters ask for. -/
def ofParams (params : Params) : Projection :=
  if params.contains "verbose" then
    .everything
  else
    match params.get? "fields" with
    | none => .byDefault
    | some fields => .requested (Text.split ',' fields)

/- The columns that are selected by default. -/
def defaultColumns (r : Resource) : List String :=
  (r.owns.filter fun (_, f) => f.props.byDefault).map Prod.fst

/- The name that an entry has for the root or for a label. -/
def nameFor?
    (label : Option String)
    (entry : String) : Option String :=
  match label with
  | none => some entry
  | some label => Text.after? (label ++ ".") entry

/- The columns that one requested entry chooses. -/
def ofEntry
    (r : Resource)
    (label : Option String)
    (entry : String) : List String :=
  match nameFor? label entry with
  | none => []
  | some name =>
      if r.ownsColumn name then
        [name]
      else if name = "" then
        defaultColumns r
      else
        []

/-
  The columns that a projection chooses from a resource,
  which is the root or is known by a label.
-/
def chosen
    (p : Projection)
    (r : Resource)
    (label : Option String) : List String :=
  match p with
  | .everything => r.owns.keys
  | .byDefault => defaultColumns r
  | .requested entries => entries.flatMap (ofEntry r label)

/- Select columns by their names. -/
def addColumns
    (qualifier : String)
    (names : List String)
    (q : Sql.Query) : Sql.Query :=
  names.foldl (fun q name => q.addColumn { qualifier, name }) q

/-
  Whether a relation is considered: by default, only one that
  has the property `default` itself.
-/
def considers
    (p : Projection)
    (relation : Relation) : Bool :=
  p ≠ .byDefault || relation.props.byDefault

/-
  Select the chosen columns of a relation, and join it if any
  were chosen or everything is selected.
-/
def applyRelation
    (p : Projection)
    (catalog : Catalog)
    (root : Resource)
    (label : String)
    (relation : Relation)
    (q : Sql.Query) : Building :=
  if p.considers relation then
    match catalog.related relation with
    | .error e => .stop q e
    | .ok related =>
        let names := p.chosen related (some label)
        let q := addColumns label names q
        if p = .everything ∨ names ≠ [] then
          Listing.join root label related q
        else
          .ok q
  else
    .ok q

/- Select the columns of the root, then of each relation. -/
def apply
    (p : Projection)
    (catalog : Catalog)
    (root : Resource)
    (q : Sql.Query) : Building :=
  let q := addColumns root.table.name (p.chosen root none) q
  Building.each
    (fun (label, relation) =>
      p.applyRelation catalog root label relation)
    root.belongsTo q

end Projection

end RelationalRest
