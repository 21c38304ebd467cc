import Mathlib.Data.List.Forall2
import RelationalRest.Listing.Filter
import RelationalRest.Proofs.Kind.Operator
import RelationalRest.Proofs.Sql.Clause
import RelationalRest.Proofs.Sql.Operands

/-
  What the filter of a column does to a query.  Its text has
  one operator, and the rest of it has parts set apart by
  commas.  If one part is refused, the query stays as it is;
  otherwise it gets one condition more, which compares the
  column with the value of each part, and which binds these
  values and no others.

  Key definitions include:
    * `Sql.Condition.Compares`
    * `Filter.Adds`

  Main declarations:
    * `Sql.Condition.Compares.params`
    * `Sql.Query.params_addCondition`
    * `Sql.Query.getLast?_params`
    * `Kind.exists_condition`
    * `Filter.applyColumn_cases`
-/

namespace RelationalRest

------------------------------------------------------------
-- Comparisons with several values
------------------------------------------------------------

namespace Sql

/-
  A condition compares a column with one value, or with one of
  several, each by the same comparison and in order.
-/
inductive Condition.Compares
    (column : Column)
    (op : Comparison) : List Value → Condition → Prop
| one (v : Value) : Compares column op [v] (.compare column op v)
| several
    {values : List Value}
    (hSeveral : values.length ≠ 1) :
    Compares column op values
      (.anyOf (values.map (.compare column op)))

namespace Condition

variable {column : Column}
variable {op : Comparison}
variable {values : List Value}
variable {c : Condition}

/- The values of a choice between comparisons. -/
theorem values_choiceSites
    (column : Column)
    (op : Comparison)
    (values : List Value) :
    (choiceSites (values.map (.compare column op))).map
        Site.value =
      values := by
  induction values with
  | nil => rfl
  | cons v values ih =>
      rw [List.map_cons, choiceSites, List.map_append, ih]
      rfl

/- The values of a condition are those that it compares with. -/
theorem Compares.values_sites
    (h : Compares column op values c) :
    c.sites.map Site.value = values := by
  cases h with
  | one v => rfl
  | several hSeveral => exact values_choiceSites column op values

/- Values that are present are bound, each once and in order. -/
theorem Compares.params
    (h : Compares column op values c)
    (hPresent : ∀ v ∈ values, v.isNull = false) :
    Sql.params c.pieces = values := by
  rw [c.spells.params, present, h.values_sites,
    List.filter_eq_self]
  intro v hv
  simp [hPresent v hv]

end Condition

/- One more condition binds its parameters after all others. -/
theorem Query.params_addCondition
    (q : Query)
    (c : Condition) :
    (q.addCondition c).select.params =
        q.select.params ++ params c.pieces ∧
      (q.addCondition c).count.params =
        q.count.params ++ params c.pieces := by
  have hSelect :
      ∀ q : Query, q.select.params = present q.sites :=
    fun q => q.spells_select.params
  have hCount :
      ∀ q : Query, q.count.params = present q.sites :=
    fun q => q.spells_count.params
  have hSites : (q.addCondition c).sites = q.sites ++ c.sites := by
    simp [sites, addCondition]
  rw [hSelect, hSelect, hCount, hCount, hSites, present_append,
    c.spells.params]
  exact ⟨rfl, rfl⟩

/- The last condition of a query binds its value last. -/
theorem Query.getLast?_params
    {q : Query}
    {earlier : List Condition}
    {col : Column}
    {v : Value}
    (hConditions : q.conditions = earlier ++ [.equal col v])
    (hPresent : v.isNull = false) :
    q.select.params.getLast? = some v := by
  have hQuery :
      q =
        ({ q with conditions := earlier } : Query).addCondition
          (.equal col v) := by
    rw [addCondition, ← hConditions]
  rw [hQuery, (Query.params_addCondition _ _).1, params_equal,
    if_neg (by simp [hPresent])]
  exact List.getLast?_concat

end Sql

------------------------------------------------------------
-- Conditions of filter texts
------------------------------------------------------------

namespace Kind

variable {k : Kind}
variable {op : FilterOperator}
variable {values : List Sql.Value}

/- A choice between comparisons with values. -/
theorem compares_choice
    (column : Sql.Column)
    (op : Sql.Comparison)
    (values : List Sql.Value) :
    Sql.Condition.Compares column op values
      (choice (values.map (.compare column op))) := by
  rcases values with _ | ⟨v, _ | ⟨w, rest⟩⟩
  · exact .several (by simp)
  · exact .one v
  · exact .several (by simp)

/- Parts that are all accepted stand for values. -/
theorem standsFor_operands
    {parts : List String}
    (h : ∀ part ∈ parts, k.acceptsText part = true)
    (op : FilterOperator) :
    List.Forall₂ (k.StandsFor op) parts
      (parts.map (k.operand op)) := by
  rw [List.forall₂_map_right_iff, List.forall₂_same]
  intro part hPart
  exact standsFor_iff.mpr ⟨h part hPart, rfl⟩

/- Values that parts stand for are present. -/
theorem present_of_standsFor
    {parts : List String}
    (h : List.Forall₂ (k.StandsFor op) parts values) :
    ∀ v ∈ values, v.isNull = false := by
  induction h with
  | nil => simp
  | cons hHead _ ih =>
      exact List.forall_mem_cons.mpr ⟨hHead.isNull, ih⟩

/- A refused part refuses the whole text. -/
theorem condition_of_refused
    {s : String}
    (h :
      ∃ part ∈ Text.split ',' (k.resolve s).2,
        k.acceptsText part = false)
    (column : Sql.Column) :
    k.condition column s =
      .error (.invalidValue (k.resolve s).2 column.label) := by
  rcases h with ⟨part, hPart, hRefused⟩
  refine if_neg ?_
  intro hAccepts
  have hAccepted := List.all_eq_true.mp hAccepts part hPart
  rw [hRefused] at hAccepted
  cases hAccepted

/- Accepted parts give a condition that compares with their values. -/
theorem exists_condition
    {s : String}
    (h :
      ∀ part ∈ Text.split ',' (k.resolve s).2,
        k.acceptsText part = true)
    (column : Sql.Column) :
    ∃ values c,
      k.condition column s = .ok c ∧
        List.Forall₂ (k.StandsFor (k.resolve s).1)
          (Text.split ',' (k.resolve s).2) values ∧
        Sql.Condition.Compares column (k.resolve s).1.comparison
          values c := by
  have hAccepts : k.accepts (k.resolve s).2 = true :=
    List.all_eq_true.mpr h
  have hChoice :
      k.condition column s =
        .ok
          (choice
            (((Text.split ',' (k.resolve s).2).map
                (k.operand (k.resolve s).1)).map
              (.compare column (k.resolve s).1.comparison))) := by
    rw [List.map_map]
    exact if_pos hAccepts
  exact
    ⟨_, _, hChoice, standsFor_operands h _,
      compares_choice column _ _⟩

end Kind

------------------------------------------------------------
-- Filters of columns
------------------------------------------------------------

namespace Filter

/-
  A step adds to a query the one condition that compares a
  column with the values of parts, and changes nothing else.
  Its statements bind these values after all others.
-/
structure Adds
    (k : Kind)
    (column : Sql.Column)
    (op : FilterOperator)
    (parts : List String)
    (q q' : Sql.Query)
    (values : List Sql.Value)
    (c : Sql.Condition) : Prop where
  query : q' = { q with conditions := q.conditions ++ [c] }
  operands : List.Forall₂ (k.StandsFor op) parts values
  present : ∀ v ∈ values, v.isNull = false
  compares :
    Sql.Condition.Compares column op.comparison values c
  params : Sql.params c.pieces = values
  select : q'.select.params = q.select.params ++ values
  count : q'.count.params = q.count.params ++ values

/- The condition of values that parts stand for is added. -/
theorem adds_addCondition
    {k : Kind}
    {column : Sql.Column}
    {op : FilterOperator}
    {parts : List String}
    {values : List Sql.Value}
    {c : Sql.Condition}
    (hOperands : List.Forall₂ (k.StandsFor op) parts values)
    (hCompares :
      Sql.Condition.Compares column op.comparison values c)
    (q : Sql.Query) :
    Adds k column op parts q (q.addCondition c) values c := by
  have hPresent := Kind.present_of_standsFor hOperands
  have hParams := hCompares.params hPresent
  have hBound := q.params_addCondition c
  rw [hParams] at hBound
  exact
    { query := rfl
      operands := hOperands
      present := hPresent
      compares := hCompares
      params := hParams
      select := hBound.1
      count := hBound.2 }

/-
  The text of a filter is resolved once.  If a part of what
  follows the operator is refused, the filter is an invalid
  argument and the query is as before; and if all parts are
  accepted, their condition is added to it.
-/
theorem applyColumn_cases
    (field : OwnedField)
    (column : Sql.Column)
    (text : String)
    (q : Sql.Query) :
    ∃ op rest,
      field.type.kind.Resolves text op rest ∧
        ((∃ part ∈ Text.split ',' rest,
            field.type.kind.acceptsText part = false) →
          ∃ e,
            applyColumn field column text q = .stop q e ∧
              e = .invalidValue rest column.label ∧
              e.errorClass = .invalidArgument) ∧
        ((∀ part ∈ Text.split ',' rest,
            field.type.kind.acceptsText part = true) →
          ∃ q' values c,
            applyColumn field column text q = .ok q' ∧
              Adds field.type.kind column op
                (Text.split ',' rest) q q' values c) := by
  refine ⟨_, _, Kind.resolves_resolve _ text, ?_, ?_⟩
  · intro hRefused
    refine ⟨_, ?_, rfl, rfl⟩
    rw [applyColumn, Kind.condition_of_refused hRefused column]
  · intro hAccepted
    rcases Kind.exists_condition hAccepted column with
      ⟨values, c, hCondition, hOperands, hCompares⟩
    refine
      ⟨_, values, c, ?_, adds_addCondition hOperands hCompares q⟩
    rw [applyColumn, hCondition]

end Filter

end RelationalRest
