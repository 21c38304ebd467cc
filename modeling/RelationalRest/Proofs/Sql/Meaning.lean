import Mathlib.Logic.Basic
import RelationalRest.Sql.Change

/-
  What conditions mean for the records of a table, which of
  them an assignment changes or a deletion removes, and what an
  assignment makes of those that it changes.

  A store compares present values as it likes, but for one
  thing: equality is an equivalence.  A comparison with an
  absent operand asks whether the column is absent, and an
  absent column compares with no present operand.

  Key definitions include:
    * `Sql.Comparing`
    * `Sql.Comparing.test`
    * `Sql.Condition.Holds`
    * `Sql.Query.Finds`
    * `Sql.Update.Changes`
    * `Sql.Delete.Removes`
    * `Sql.Update.assign`

  Main declarations:
    * `Sql.Comparing.test_eq_of_shared`
    * `Sql.Condition.holds_equal`
-/

namespace RelationalRest

namespace Sql

------------------------------------------------------------
-- Comparisons
------------------------------------------------------------

/- How a store compares present values; equality is one. -/
structure Comparing where
  compares : Comparison → Value → Value → Prop
  equivalence : Equivalence (compares .eq)

/- Values are equal only to themselves, and nothing else compares. -/
def Comparing.strict : Comparing where
  compares := fun op v w => op = .eq ∧ v = w
  equivalence :=
    { refl := fun _ => ⟨rfl, rfl⟩
      symm := fun h => ⟨rfl, h.2.symm⟩
      trans := fun h h' => ⟨rfl, h.2.trans h'.2⟩ }

namespace Comparing

/-
  What a column holds passes a comparison with an operand: an
  absent operand is tested by its own form, whose sense only
  inequality reverses.
-/
def test
    (k : Comparing)
    (op : Comparison)
    (held operand : Value) : Prop :=
  if operand.isNull = true then
    if op = .ne then held.isNull = false else held.isNull = true
  else
    held.isNull = false ∧ k.compares op held operand

variable {k : Comparing}
variable {a b v w : Value}

/- Equality with an operand. -/
theorem test_eq_iff :
    k.test .eq a v ↔
      a.isNull = v.isNull ∧
        (v.isNull = false → k.compares .eq a v) := by
  unfold test
  cases hOperand : v.isNull with
  | true => simp
  | false => simp

/- What equals an operand that another value shares equals both. -/
theorem test_eq_of_shared
    (hShared : k.test .eq a v)
    (h : k.test .eq a w)
    (hOther : k.test .eq b w) :
    k.test .eq b v := by
  rw [test_eq_iff] at *
  have hNull : w.isNull = v.isNull := h.1.symm.trans hShared.1
  refine ⟨hOther.1.trans hNull, fun hPresent => ?_⟩
  have hw : w.isNull = false := hNull.trans hPresent
  exact k.equivalence.trans (hOther.2 hw)
    (k.equivalence.trans (k.equivalence.symm (h.2 hw))
      (hShared.2 hPresent))

end Comparing

------------------------------------------------------------
-- Conditions
------------------------------------------------------------

/- A record of a table: the values of its columns. -/
abbrev Tuple :=
  String → Value

mutual

/- A condition holds of the values of columns. -/
def Condition.Holds
    (k : Comparing)
    (env : Column → Value) : Condition → Prop
| .compare column op value => k.test op (env column) value
| .anyOf parts => Condition.SomeHolds k env parts
termination_by structural c => c

/- One of several conditions holds of the values of columns. -/
def Condition.SomeHolds
    (k : Comparing)
    (env : Column → Value) : List Condition → Prop
| [] => False
| c :: rest =>
    Condition.Holds k env c ∨ Condition.SomeHolds k env rest
termination_by structural cs => cs

end

/- A comparison with equality holds when its test does. -/
theorem Condition.holds_equal
    {k : Comparing}
    {env : Column → Value}
    {col : Column}
    {v : Value} :
    (Condition.equal col v).Holds k env ↔
      k.test .eq (env col) v := by
  simp [Condition.equal, Condition.Holds]

/-
  A query finds a record of its table, if with some values in
  the tables that it joins all conditions hold.
-/
def Query.Finds
    (k : Comparing)
    (q : Query)
    (t : Tuple) : Prop :=
  ∃ env : Column → Value,
    (∀ name, env ⟨q.root.name, name⟩ = t name) ∧
      ∀ c ∈ q.conditions, c.Holds k env

/- An assignment changes the records that meet its conditions. -/
def Update.Changes
    (k : Comparing)
    (u : Update)
    (t : Tuple) : Prop :=
  ∀ c ∈ u.conditions, c.Holds k fun col => t col.name

/- A deletion removes the records that meet its conditions. -/
def Delete.Removes
    (k : Comparing)
    (d : Delete)
    (t : Tuple) : Prop :=
  ∀ c ∈ d.conditions, c.Holds k fun col => t col.name

/- What an assignment makes of a record. -/
def Update.assign
    (u : Update)
    (t : Tuple) : Tuple :=
  fun name => (Fields.get? u.sets name).getD (t name)

end Sql

end RelationalRest
