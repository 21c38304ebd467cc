import Mathlib.Data.List.Forall2
import RelationalRest.Proofs.Sql.Operands

/-
  The placeholders of every statement are numbered from one
  in the order of the text, and each is bound to the value
  that stands in its place.

  Main declarations:
    * `Sql.Slot.Holds`
    * `Sql.Statement.Binds`
    * `Sql.placeholders_in_order`
-/

namespace RelationalRest

namespace Sql

------------------------------------------------------------
-- Bound statements
------------------------------------------------------------

/- The number of a slot that is a placeholder. -/
def Slot.number? : Slot → Option Nat
| .placeholder n => some n
| .absent _ => none

/-
  A slot holds the value of a site: the value is present and
  is the parameter of the slot's number, or it is absent and
  the slot says so in the form of the site.
-/
def Slot.Holds
    (params : List Value) : Slot → Site → Prop
| .placeholder n, s =>
    s.value.isNull = false ∧ 0 < n ∧
      params[n - 1]? = some s.value
| .absent form, s => s.value.isNull = true ∧ form = s.form

/-
  A statement binds the values of sites.  Its placeholders,
  read from the text, are the numbers of its parameters in
  order; its parameters are the values that are present, and
  none of them is absent; and the slots of the text hold the
  values one by one.
-/
structure Statement.Binds
    (s : Statement)
    (sources : List String)
    (sites : List Site) : Prop where
  numbers :
    (s.slots sources).filterMap Slot.number? =
      List.range' 1 s.params.length
  params :
    s.params =
      (sites.map Site.value).filter fun v => !v.isNull
  allPresent : ∀ v ∈ s.params, v.isNull = false
  slots :
    List.Forall₂ (Slot.Holds s.params) (s.slots sources) sites

------------------------------------------------------------
-- Numbered slots
------------------------------------------------------------

/- Numbered sites take consecutive numbers. -/
theorem numbers_numbered
    (n : Nat)
    (sites : List Site) :
    (numbered n sites).filterMap Slot.number? =
      List.range' (n + 1) (present sites).length := by
  induction sites generalizing n with
  | nil => rfl
  | cons s sites ih =>
      by_cases hNull : s.value.isNull = true
      · rw [numbered, if_pos hNull, List.filterMap_cons_none rfl,
          present_cons_absent hNull]
        exact ih n
      · have hHead :
            Slot.number? (.placeholder (n + 1)) = some (n + 1) :=
          rfl
        rw [numbered, if_neg hNull,
          List.filterMap_cons_some hHead,
          present_cons_some hNull, List.length_cons,
          List.range'_succ, ih]

/-
  Numbered sites hold their values, if their present values
  follow as many parameters as were numbered before.
-/
theorem holds_numbered
    (before : List Value)
    (sites : List Site) :
    List.Forall₂ (Slot.Holds (before ++ present sites))
      (numbered before.length sites) sites := by
  induction sites generalizing before with
  | nil => exact .nil
  | cons s sites ih =>
      by_cases hNull : s.value.isNull = true
      · rw [numbered, if_pos hNull, present_cons_absent hNull]
        exact .cons ⟨hNull, rfl⟩ (ih before)
      · have hRest := ih (before ++ [s.value])
        rw [List.length_append, List.length_singleton,
          List.append_assoc, List.singleton_append] at hRest
        rw [numbered, if_neg hNull, present_cons_some hNull]
        refine .cons ⟨by simpa using hNull, by omega, ?_⟩ hRest
        simp

/- Spelled pieces bind their values once they are assembled. -/
theorem Spells.binds
    {pieces : List Piece}
    {sources : List String}
    {sites : List Site}
    (h : Spells pieces sources sites) :
    (assemble pieces).Binds sources sites := by
  have hSlots :
      (assemble pieces).slots sources = numbered 0 sites := by
    have hRead := h.slots 0 [] [] (by simp [Apart])
    simpa [Statement.slots, assemble, slotsFrom] using hRead
  have hParams : (assemble pieces).params = present sites :=
    h.params
  refine ⟨?_, hParams, ?_, ?_⟩
  · rw [hSlots, hParams]
    exact numbers_numbered 0 sites
  · intro v hv
    exact isNull_of_mem_params hv
  · rw [hSlots, hParams]
    simpa using holds_numbered [] sites

------------------------------------------------------------
-- All statements
------------------------------------------------------------

/- Every statement binds its values in the order of its text. -/
theorem placeholders_in_order :
    (∀ q : Query,
        q.select.Binds q.sources q.sites ∧
          q.count.Binds q.sources q.sites) ∧
      (∀ i : Insert, i.statement.Binds [] i.sites) ∧
      (∀ u : Update, u.statement.Binds [] u.sites) ∧
      ∀ d : Delete, d.statement.Binds [] d.sites := by
  refine ⟨?_, ?_, ?_, ?_⟩
  · intro q
    exact ⟨q.spells_select.binds, q.spells_count.binds⟩
  · intro i
    exact i.spells.binds
  · intro u
    exact u.spells.binds
  · intro d
    exact d.spells.binds

end Sql

end RelationalRest
