import RelationalRest.Operation.Lookup
import RelationalRest.Proofs.Listing.Steps

/-
  Queries that bring along what they mention.  A query in
  scope with no label left to join names each of its tables
  once and mentions columns of these tables only.

  Key definitions include:
    * `Sql.Query.SelfContained`

  Main declarations:
    * `Scoped.selfContained`
    * `Resource.scoped_liveQuery`
-/

namespace RelationalRest

------------------------------------------------------------
-- Self-contained queries
------------------------------------------------------------

namespace Sql.Query

/- The names of the tables of a query: its root and its joins. -/
def tableNames (q : Query) : List String :=
  q.root.name :: q.labels

/-
  A query for records of a resource names each of its tables
  once, mentions columns of these tables only, and joins
  relations to one record, each on the key of the related
  resource.
-/
structure SelfContained
    (c : Catalog)
    (r : Resource)
    (q : Query) : Prop where
  root : q.root = r.table
  names : q.tableNames.Nodup
  mentions : ∀ col ∈ q.mentions, col.qualifier ∈ q.tableNames
  joins :
    ∀ j ∈ q.joins,
      j.label ∉ r.hasMany.keys ∧
        ∃ relation related key,
          Fields.get? r.belongsTo j.label = some relation ∧
            c.find? relation.resource = some related ∧
            related.primaryKey = some key ∧
            j.table = related.table ∧
            j.left = ⟨r.table.name, relation.mapping⟩ ∧
            j.right = ⟨j.label, key⟩

end Sql.Query

namespace Scoped

variable {c : Catalog}
variable {r : Resource}
variable {q : Sql.Query}

/- What a query joins is a relation to one record. -/
theorem mem_belongsTo_of_mem_labels
    {label : String}
    (h : Scoped c r [] q)
    (hLabel : label ∈ q.labels) :
    label ∈ r.belongsTo.keys := by
  rcases List.mem_map.mp hLabel with ⟨j, hj, rfl⟩
  rcases h.joins j hj with ⟨relation, _, _, hRelation, _⟩
  exact Fields.contains_iff_mem_keys.mp
    (by simp [Fields.contains, hRelation])

/- A query in scope with nothing pending is self-contained. -/
theorem selfContained
    (hr : r.Sound)
    (h : Scoped c r [] q) :
    q.SelfContained c r where
  root := h.table
  names := by
    refine List.nodup_cons.mpr ⟨?_, h.labels⟩
    intro hMem
    have hLabel := h.mem_belongsTo_of_mem_labels hMem
    have hRelation := Resource.mem_relations_of_belongsTo hLabel
    exact hr.ne_table hRelation (by rw [h.table])
  mentions := by
    intro col hCol
    rcases h.mentions col hCol with hRoot | hLabel | hPending
    · rw [hRoot, ← h.table]
      exact List.mem_cons_self
    · exact List.mem_cons_of_mem _ hLabel
    · cases hPending
  joins := by
    intro j hj
    have hLabel : j.label ∈ q.labels :=
      List.mem_map.mpr ⟨j, hj, rfl⟩
    refine ⟨hr.not_hasMany_of_belongsTo
      (h.mem_belongsTo_of_mem_labels hLabel), ?_⟩
    rcases h.joins j hj with
      ⟨relation, related, key, hRelation, hFind, hKey, hJoin⟩
    refine ⟨relation, related, key, hRelation, hFind, hKey, ?_⟩
    rw [hJoin]
    exact ⟨rfl, rfl, rfl⟩

end Scoped

------------------------------------------------------------
-- Where queries start
------------------------------------------------------------

variable {c : Catalog}
variable {r : Resource}

/- A query that only names its table. -/
theorem Scoped.start
    (c : Catalog)
    (r : Resource) :
    Scoped c r [] { root := r.table } where
  table := rfl
  joins := by
    intro j hj
    cases hj
  labels := List.nodup_nil
  mentions := by
    intro col hCol
    cases hCol

/- The columns of a comparison with equality. -/
theorem Sql.Condition.columns_equal
    (col : Sql.Column)
    (v : Sql.Value) :
    (Condition.equal col v).columns = [col] := by
  simp [Condition.equal, Condition.columns]

/- The query for live records mentions the root alone. -/
theorem Resource.scoped_liveQuery
    (c : Catalog)
    (r : Resource) :
    Scoped c r [] r.liveQuery := by
  have hStart := Scoped.start c r
  unfold liveQuery liveCondition?
  cases r.softDelete with
  | none => exact hStart
  | some mark =>
      refine hStart.addCondition ?_
      intro col hCol
      rw [Sql.Condition.columns_equal] at hCol
      rw [List.mem_singleton.mp hCol]
      exact .inl rfl

/- Demanding a value of a column of the root. -/
theorem Scoped.addEqual
    {q : Sql.Query}
    (h : Scoped c r [] q)
    (name : String)
    (v : Sql.Value) :
    Scoped c r [] (q.addCondition (.equal (r.column name) v)) := by
  refine h.addCondition ?_
  intro col hCol
  rw [Sql.Condition.columns_equal] at hCol
  rw [List.mem_singleton.mp hCol]
  exact .inl rfl

end RelationalRest
