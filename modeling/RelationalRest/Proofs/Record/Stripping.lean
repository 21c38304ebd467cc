import RelationalRest.Proofs.Catalog.Resolved
import RelationalRest.Proofs.Fields
import RelationalRest.Record.Envelope

/-
  What is left of an envelope when hidden fields are removed.

  A removal puts the last entry in the place of the removed
  one, so it changes the order of the others.  What is found
  under a name does not depend on that order: at the top the
  names that the resource hides are gone, and the object of a
  label has lost the names that the related resource hides.

  Key definitions include:
    * `Catalog.hiddenUnder`

  Main declarations:
    * `Fields.get?_without`
    * `Catalog.get?_stripHidden`
-/

namespace RelationalRest

------------------------------------------------------------
-- Fields without names
------------------------------------------------------------

namespace Fields

variable {β : Type}
variable {m : Fields β}

/- What is found after removing names. -/
theorem get?_without
    (hDistinct : Distinct m)
    (names : List String)
    (other : String) :
    get? (without m names) other =
      if other ∈ names then none else get? m other := by
  unfold without
  induction names generalizing m with
  | nil => simp
  | cons name names ih =>
      rw [List.foldl_cons, ih (hDistinct.swapRemove name),
        get?_swapRemove hDistinct]
      by_cases hName : other = name
      · simp [hName]
      · simp [hName]

end Fields

------------------------------------------------------------
-- Stripped envelopes
------------------------------------------------------------

namespace Catalog

variable {c : Catalog}
variable {r : Resource}

/- The columns that are hidden under a label. -/
def hiddenUnder
    (c : Catalog)
    (r : Resource)
    (label : String) : List String :=
  match Fields.get? r.relations label with
  | none => []
  | some relation =>
      match c.find? relation.resource with
      | none => []
      | some related => related.hidden

/- Removing nothing from a value leaves it as it is. -/
theorem without_nil (v : Json) :
    v.without [] = v := by
  cases v <;> rfl

/- What is found after the fields of one relation are removed. -/
theorem get?_stripRelation
    (envelope : Fields Json)
    (label : String)
    (relation : Relation)
    (name : String) :
    Fields.get? (c.stripRelation envelope (label, relation))
        name =
      if name = label then
        (Fields.get? envelope name).map fun v =>
          v.without
            (((c.find? relation.resource).map
              Resource.hidden).getD [])
      else
        Fields.get? envelope name := by
  unfold stripRelation
  cases c.find? relation.resource with
  | none => simp [without_nil]
  | some related =>
      simp only [Fields.get?_adjust, Option.map_some,
        Option.getD_some]

/- What is found after the fields of relations are removed. -/
theorem get?_foldl_stripRelation
    {relations : Fields Relation}
    (hDistinct : relations.Distinct)
    (envelope : Fields Json)
    (name : String) :
    Fields.get? (relations.foldl c.stripRelation envelope) name =
      (Fields.get? envelope name).map fun v =>
        v.without
          ((((Fields.get? relations name).bind fun relation =>
            c.find? relation.resource).map
              Resource.hidden).getD []) := by
  induction relations generalizing envelope with
  | nil => simp [without_nil]
  | cons entry relations ih =>
      obtain ⟨label, relation⟩ := entry
      have hNodup := List.nodup_cons.mp hDistinct
      rw [List.foldl_cons, ih hNodup.2, get?_stripRelation]
      by_cases hName : label = name
      · -- no later relation has the label of this one
        subst hName
        have hLater :
            Fields.get? relations label = none :=
          Fields.get?_eq_none_iff.mpr hNodup.1
        simp only [hLater, Fields.get?, if_true, Option.bind_none,
          Option.map_none, Option.getD_none, Option.bind_some]
        cases Fields.get? envelope label <;> simp [without_nil]
      · simp [Fields.get?, hName, Ne.symm hName]

/-
  What is found in an envelope without hidden fields: a hidden
  name is gone, and what stands under a label has lost what is
  hidden there.
-/
theorem get?_stripHidden
    (hr : r.Sound)
    {envelope : Fields Json}
    (hDistinct : envelope.Distinct)
    (name : String) :
    Fields.get? (c.stripHidden r envelope) name =
      if name ∈ r.hidden then none
      else
        (Fields.get? envelope name).map fun v =>
          v.without (c.hiddenUnder r name) := by
  have hLabels : r.relations.Distinct :=
    (List.nodup_append.mp hr.distinct).2.1
  have hHidden :
      (((Fields.get? r.relations name).bind fun relation =>
        c.find? relation.resource).map
          Resource.hidden).getD [] =
        c.hiddenUnder r name := by
    unfold hiddenUnder
    cases Fields.get? r.relations name with
    | none => rfl
    | some relation =>
        dsimp only [Option.bind_some]
        cases c.find? relation.resource <;> rfl
  unfold stripHidden
  rw [get?_foldl_stripRelation hLabels, hHidden,
    Fields.get?_without hDistinct]
  by_cases hName : name ∈ r.hidden
  · simp [hName]
  · simp [hName]

end Catalog

end RelationalRest
