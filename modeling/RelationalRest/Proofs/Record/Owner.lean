import Mathlib.Data.List.Basic
import RelationalRest.Proofs.Catalog.Resolved
import RelationalRest.Record.Envelope

/-
  Which table or label a cell of a row goes to: the longest of
  those that its name begins with.  A column keeps its own
  qualifier unless a longer table or label captures it.

  Main declarations:
    * `Resource.Captures`
    * `Resource.owner?_eq_some`
    * `Resource.owner?_resultName`
    * `Resource.Sound.not_captures_root`
-/

namespace RelationalRest

------------------------------------------------------------
-- The longest opening
------------------------------------------------------------

namespace Resource

/- One of two openings is kept, and it is no shorter. -/
theorem exists_longer
    (found : Option (String × String))
    (next : String × String) :
    ∃ kept, longer found next = some kept ∧
      (kept = next ∨ found = some kept) ∧
      next.1.length ≤ kept.1.length ∧
      ∀ other, found = some other →
        other.1.length ≤ kept.1.length := by
  cases found with
  | none =>
      refine ⟨next, rfl, .inl rfl, Nat.le_refl _, ?_⟩
      intro other hOther
      cases hOther
  | some held =>
      unfold longer
      by_cases hLength : held.1.length ≤ next.1.length
      · refine ⟨next, by simp [hLength], .inl rfl,
          Nat.le_refl _, ?_⟩
        intro other hOther
        cases hOther
        exact hLength
      · refine ⟨held, by simp [hLength], .inr rfl, by omega, ?_⟩
        intro other hOther
        cases hOther
        exact Nat.le_refl _

/- What a fold for the longest opening finds. -/
theorem foldl_longer
    {fitting : List (String × String)}
    {found : Option (String × String)}
    {best : String × String}
    (h : fitting.foldl longer found = some best) :
    (best ∈ fitting ∨ found = some best) ∧
      (∀ other ∈ fitting, other.1.length ≤ best.1.length) ∧
      ∀ other, found = some other →
        other.1.length ≤ best.1.length := by
  induction fitting generalizing found with
  | nil =>
      have hFound : found = some best := h
      subst hFound
      refine ⟨.inr rfl, by simp, ?_⟩
      intro other hOther
      cases hOther
      exact Nat.le_refl _
  | cons next rest ih =>
      rcases ih h with ⟨hMem, hRest, hLonger⟩
      rcases exists_longer found next with
        ⟨kept, hKept, hFrom, hNext, hFound⟩
      have hBound := hLonger kept hKept
      refine ⟨?_, ?_, ?_⟩
      · rcases hMem with hMem | hMem
        · exact .inl (List.mem_cons_of_mem _ hMem)
        · rw [hKept] at hMem
          cases hMem
          rcases hFrom with rfl | hFrom
          · exact .inl List.mem_cons_self
          · exact .inr hFrom
      · intro other hOther
        rcases List.mem_cons.mp hOther with rfl | hOther
        · omega
        · exact hRest other hOther
      · intro other hOther
        have hHeld := hFound other hOther
        omega

/- A fold for the longest opening finds one if there is one. -/
theorem exists_foldl_longer
    {fitting : List (String × String)}
    {found : Option (String × String)}
    (h : found.isSome = true ∨ fitting ≠ []) :
    ∃ best, fitting.foldl longer found = some best := by
  induction fitting generalizing found with
  | nil =>
      rcases h with h | h
      · exact Option.isSome_iff_exists.mp h
      · exact absurd rfl h
  | cons next rest ih =>
      rcases exists_longer found next with ⟨kept, hKept, _⟩
      refine ih (.inl ?_)
      rw [hKept]
      rfl

variable {r : Resource}

/- The openings of a cell by tables and labels. -/
theorem mem_fitting_iff
    {cell owner column : String} :
    (owner, column) ∈
        (r.owners.filterMap fun owner =>
          (Text.after? (owner ++ "_") cell).map
            fun column => (owner, column)) ↔
      owner ∈ r.owners ∧ cell = owner ++ "_" ++ column := by
  rw [List.mem_filterMap]
  constructor
  · rintro ⟨owner', hOwner, hMap⟩
    rcases Option.map_eq_some_iff.mp hMap with
      ⟨column', hAfter, hPair⟩
    cases hPair
    exact ⟨hOwner, Text.after?_eq_some_iff.mp hAfter⟩
  · rintro ⟨hOwner, hCell⟩
    refine ⟨owner, hOwner, Option.map_eq_some_iff.mpr ?_⟩
    exact ⟨column, Text.after?_eq_some_iff.mpr hCell, rfl⟩

/- The owner of a cell opens it, and no longer one does. -/
theorem owner?_eq_some
    {cell owner column : String}
    (h : r.owner? cell = some (owner, column)) :
    owner ∈ r.owners ∧ cell = owner ++ "_" ++ column ∧
      ∀ other ∈ r.owners, ∀ rest,
        cell = other ++ "_" ++ rest →
          other.length ≤ owner.length := by
  rcases foldl_longer h with ⟨hMem, hLongest, _⟩
  rcases hMem with hMem | hMem
  · rcases mem_fitting_iff.mp hMem with ⟨hOwner, hCell⟩
    refine ⟨hOwner, hCell, ?_⟩
    intro other hOther rest hRest
    exact hLongest (other, rest)
      (mem_fitting_iff.mpr ⟨hOther, hRest⟩)
  · cases hMem

/- A cell that a table or label opens has an owner. -/
theorem exists_owner?
    {cell owner column : String}
    (hOwner : owner ∈ r.owners)
    (hCell : cell = owner ++ "_" ++ column) :
    ∃ found, r.owner? cell = some found := by
  refine exists_foldl_longer (.inr ?_)
  exact List.ne_nil_of_mem
    (mem_fitting_iff.mpr ⟨hOwner, hCell⟩)

end Resource

------------------------------------------------------------
-- Captured columns
------------------------------------------------------------

/- Openings of one length of the same text are the same. -/
theorem Text.append_inj_of_length
    {a b s t : String}
    (h : a ++ s = b ++ t)
    (hLength : a.length = b.length) :
    a = b ∧ s = t := by
  have hLists := congrArg String.toList h
  rw [String.toList_append, String.toList_append] at hLists
  have hSame : a.toList.length = b.toList.length := by
    rw [String.length_toList, String.length_toList, hLength]
  have hInj := List.append_inj hLists hSame
  exact ⟨String.toList_inj.mp hInj.1, String.toList_inj.mp hInj.2⟩

namespace Resource

variable {r : Resource}
variable {col : Sql.Column}

/-
  A table or label that is longer than the qualifier of a
  column captures it, if the column's name in a row begins
  with that table or label and a low line.
-/
def Captures
    (r : Resource)
    (col : Sql.Column) : Prop :=
  ∃ owner ∈ r.owners, col.qualifier.length < owner.length ∧
    ∃ rest, col.resultName = owner ++ "_" ++ rest

instance (r : Resource) (col : Sql.Column) :
    Decidable (r.Captures col) :=
  decidable_of_iff
    (∃ owner ∈ r.owners, col.qualifier.length < owner.length ∧
      (Text.after? (owner ++ "_") col.resultName).isSome = true)
    (by
      simp only [Captures, Option.isSome_iff_exists,
        Text.after?_eq_some_iff])

/- A column that nothing captures goes to its own qualifier. -/
theorem owner?_resultName
    (hQualifier : col.qualifier ∈ r.owners)
    (hFree : ¬ r.Captures col) :
    r.owner? col.resultName =
      some (col.qualifier, col.name) := by
  have hOwn : col.resultName = col.qualifier ++ "_" ++ col.name :=
    rfl
  rcases exists_owner? hQualifier hOwn with
    ⟨⟨owner, column⟩, hFound⟩
  rcases owner?_eq_some hFound with ⟨hOwner, hCell, hLongest⟩
  have hAtLeast := hLongest _ hQualifier _ hOwn
  have hAtMost : owner.length ≤ col.qualifier.length := by
    by_contra hLonger
    exact hFree ⟨owner, hOwner, by omega, column, hCell⟩
  have hSame :
      owner ++ "_" = col.qualifier ++ "_" ∧ column = col.name := by
    refine Text.append_inj_of_length (hCell.symm.trans hOwn) ?_
    simp only [String.length_append]
    omega
  have hOwnerSame : owner = col.qualifier :=
    (Text.append_inj_of_length hSame.1 (by omega)).1
  rw [hFound, hOwnerSame, hSame.2]

/- A captured column does not go to its own qualifier. -/
theorem owner?_ne_of_captures
    (hCaptured : r.Captures col) :
    r.owner? col.resultName ≠
      some (col.qualifier, col.name) := by
  intro hFound
  rcases hCaptured with ⟨owner, hOwner, hLonger, rest, hRest⟩
  have hBound := (owner?_eq_some hFound).2.2 owner hOwner rest hRest
  omega

/- No label captures a column of the table. -/
theorem Sound.not_captures_root
    (h : r.Sound)
    (hRoot : col.qualifier = r.table.name) :
    ¬ r.Captures col := by
  rintro ⟨owner, hOwner, hLonger, rest, hRest⟩
  rcases List.mem_cons.mp hOwner with rfl | hLabel
  · rw [hRoot] at hLonger
    omega
  · have hClash := h.labels owner hLabel
    have hOpens :
        (r.table.name ++ "_").toList <+: owner.toList := by
      have hWhole :
          (r.table.name ++ "_").toList <+:
            col.resultName.toList := by
        refine ⟨col.name.toList, ?_⟩
        rw [Sql.Column.resultName, hRoot, ← String.toList_append]
      have hOwn : owner.toList <+: col.resultName.toList := by
        refine ⟨("_" ++ rest).toList, ?_⟩
        rw [hRest, ← String.toList_append, String.append_assoc]
      refine List.prefix_of_prefix_length_le hWhole hOwn ?_
      rw [hRoot] at hLonger
      simp only [String.length_toList, String.length_append]
      have hUnit : "_".length = 1 := rfl
      omega
    rcases hOpens with ⟨tail, hTail⟩
    have hAfter :
        Text.after? (r.table.name ++ "_") owner =
          some (String.ofList tail) := by
      rw [Text.after?_eq_some_iff]
      apply String.toList_inj.mp
      rw [String.toList_append, String.toList_ofList, hTail]
    simp [ResourceDraft.clashes, hAfter] at hClash

end Resource

end RelationalRest
