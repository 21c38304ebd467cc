import Mathlib.Data.List.Forall2
import Mathlib.Data.List.Perm.Basic

/-
  Computations that end in a value, taken apart: two in a
  row, and one for each item of a list.

  Main declarations:
    * `Success.bind_eq_ok_iff`
    * `Success.mapM_eq_ok_iff`
    * `Success.exists_mapM_eq_ok`
    * `Success.exists_of_mem_results`
    * `Success.exists_result_of_mem`
    * `Success.exists_error_of_mapM`
    * `Success.exists_first_of_mapM_eq_error`
    * `Success.map_results`
    * `Success.exists_results_of_perm`
-/

namespace RelationalRest

namespace Success

variable {ε α β : Type}

/- Two computations in a row succeed when each does. -/
theorem bind_eq_ok_iff
    {x : Except ε α}
    {f : α → Except ε β}
    {b : β} :
    (x >>= f) = .ok b ↔ ∃ a, x = .ok a ∧ f a = .ok b := by
  cases x with
  | error e => simp [bind, Except.bind]
  | ok a => simp [bind, Except.bind]

/- A computation for each item succeeds when each does. -/
theorem mapM_eq_ok_iff
    {f : α → Except ε β}
    {items : List α}
    {results : List β} :
    items.mapM f = .ok results ↔
      List.Forall₂ (fun a b => f a = .ok b) items results := by
  induction items generalizing results with
  | nil =>
      simp [pure, Except.pure, eq_comm]
  | cons a items ih =>
      rw [List.mapM_cons, bind_eq_ok_iff]
      simp only [bind_eq_ok_iff, ih, pure, Except.pure,
        Except.ok.injEq]
      constructor
      · rintro ⟨b, hHead, rest, hRest, rfl⟩
        exact .cons hHead hRest
      · intro h
        cases h with
        | cons hHead hRest =>
            exact ⟨_, hHead, _, hRest, rfl⟩

/- Each item succeeds, so all of them do. -/
theorem exists_mapM_eq_ok
    {f : α → Except ε β}
    {items : List α}
    (h : ∀ a ∈ items, ∃ b, f a = .ok b) :
    ∃ results, items.mapM f = .ok results := by
  simp only [mapM_eq_ok_iff]
  induction items with
  | nil => exact ⟨[], .nil⟩
  | cons a items ih =>
      rcases h a List.mem_cons_self with ⟨b, hHead⟩
      rcases ih fun a ha => h a (List.mem_cons_of_mem _ ha) with
        ⟨results, hRest⟩
      exact ⟨b :: results, .cons hHead hRest⟩

/- Every result is that of an item. -/
theorem exists_of_mem_results
    {f : α → Except ε β}
    {items : List α}
    {results : List β}
    (h : items.mapM f = .ok results)
    {b : β}
    (hb : b ∈ results) :
    ∃ a ∈ items, f a = .ok b := by
  have hEach := mapM_eq_ok_iff.mp h
  clear h
  induction hEach with
  | nil => cases hb
  | cons hHead _ ih =>
      rcases List.mem_cons.mp hb with rfl | hb
      · exact ⟨_, List.mem_cons_self, hHead⟩
      · rcases ih hb with ⟨a, ha, hfa⟩
        exact ⟨a, List.mem_cons_of_mem _ ha, hfa⟩

/- Every item has a result. -/
theorem exists_result_of_mem
    {f : α → Except ε β}
    {items : List α}
    {results : List β}
    (h : items.mapM f = .ok results)
    {a : α}
    (ha : a ∈ items) :
    ∃ b ∈ results, f a = .ok b := by
  have hEach := mapM_eq_ok_iff.mp h
  clear h
  induction hEach with
  | nil => cases ha
  | cons hHead _ ih =>
      rcases List.mem_cons.mp ha with rfl | ha
      · exact ⟨_, List.mem_cons_self, hHead⟩
      · rcases ih ha with ⟨b, hb, hab⟩
        exact ⟨b, List.mem_cons_of_mem _ hb, hab⟩

/-
  An item that fails has all of them fail, with its own error
  or with that of an earlier item.
-/
theorem exists_error_of_mapM
    {f : α → Except ε β}
    {a : α}
    {e : ε}
    (h : f a = .error e)
    (before after : List α) :
    ∃ e', (before ++ a :: after).mapM f = .error e' ∧
      (e' = e ∨ ∃ b ∈ before, f b = .error e') := by
  induction before with
  | nil =>
      refine ⟨e, ?_, .inl rfl⟩
      simp [List.mapM_cons, h, bind, Except.bind]
  | cons first before ih =>
      rw [List.cons_append, List.mapM_cons]
      cases hFirst : f first with
      | error e' =>
          exact ⟨e', rfl, .inr ⟨first, List.mem_cons_self, hFirst⟩⟩
      | ok b =>
          rcases ih with ⟨e', hRest, hCause⟩
          refine ⟨e', by rw [hRest]; rfl, ?_⟩
          rcases hCause with hOwn | ⟨b, hb, hEarlier⟩
          · exact .inl hOwn
          · exact .inr ⟨b, List.mem_cons_of_mem _ hb, hEarlier⟩

/- Where they fail, the error is that of the first that fails. -/
theorem exists_first_of_mapM_eq_error
    {f : α → Except ε β}
    {items : List α}
    {e : ε}
    (h : items.mapM f = .error e) :
    ∃ before a after results,
      items = before ++ a :: after ∧
        before.mapM f = .ok results ∧ f a = .error e := by
  induction items with
  | nil => cases h
  | cons first items ih =>
      rw [List.mapM_cons] at h
      cases hFirst : f first with
      | error e' =>
          rw [hFirst] at h
          cases h
          exact ⟨[], first, items, [], rfl, rfl, hFirst⟩
      | ok b =>
          cases hRest : items.mapM f with
          | ok results =>
              rw [hFirst, hRest] at h
              cases h
          | error e' =>
              rw [hFirst, hRest] at h
              cases h
              rcases ih hRest with
                ⟨before, a, after, results, rfl, hBefore, ha⟩
              refine
                ⟨first :: before, a, after, b :: results, rfl, ?_, ha⟩
              rw [List.mapM_cons, hFirst, hBefore]
              rfl

/- What a computation keeps of an item is kept of all items. -/
theorem map_results
    {γ : Type}
    {f : α → Except ε β}
    {g : α → γ}
    {g' : β → γ}
    (hKeeps : ∀ a b, f a = .ok b → g' b = g a)
    {items : List α}
    {results : List β}
    (h : items.mapM f = .ok results) :
    results.map g' = items.map g := by
  have hEach := mapM_eq_ok_iff.mp h
  clear h
  induction hEach with
  | nil => rfl
  | cons hHead _ ih => simp [hKeeps _ _ hHead, ih]

/- Items in another order have the same results in that order. -/
theorem exists_results_of_perm
    {f : α → Except ε β}
    {items items' : List α}
    {results : List β}
    (hPerm : items.Perm items')
    (h : items.mapM f = .ok results) :
    ∃ results', items'.mapM f = .ok results' ∧
      results.Perm results' := by
  have hEach := mapM_eq_ok_iff.mp h
  rcases List.perm_comp_forall₂ hPerm.symm hEach with
    ⟨results', hMoved, hResults⟩
  exact ⟨results', mapM_eq_ok_iff.mpr hMoved, hResults.symm⟩

end Success

end RelationalRest
