import RelationalRest.Declaration.Resolve
import RelationalRest.Proofs.Success

/-
  When declarations resolve to a catalog, and to which: each
  gives a resource, the names and the path segments of these
  are distinct, and their references can be followed.

  Key definitions include:
    * `Catalog.Separate`

  Main declarations:
    * `Catalog.find?_eq_some_iff`
    * `Catalog.add_eq_ok_iff`
    * `Catalog.ofResources_eq_ok_iff`
    * `Catalog.checkReferences_eq_ok_iff`
    * `Declaration.resolve_eq_ok_iff`
-/

namespace RelationalRest

------------------------------------------------------------
-- Resources that are told apart
------------------------------------------------------------

namespace Catalog

variable {c c' : Catalog}
variable {resources resources' : List Resource}

/- No name and no path segment is that of two resources. -/
structure Separate (resources : List Resource) : Prop where
  names : (resources.map Resource.name).Nodup
  segments : (resources.map Resource.pathSegment).Nodup

/- A resource that is told apart from the ones before it. -/
theorem separate_append_singleton
    {r : Resource} :
    Separate (resources ++ [r]) ↔
      Separate resources ∧
        (∀ other ∈ resources, other.name ≠ r.name) ∧
        ∀ other ∈ resources, other.pathSegment ≠ r.pathSegment := by
  have hKey :
      ∀ key : Resource → String,
        ((resources ++ [r]).map key).Nodup ↔
          (resources.map key).Nodup ∧
            ∀ other ∈ resources, key other ≠ key r := by
    intro key
    simp [List.nodup_append]
  constructor
  · intro h
    have hNames := (hKey _).mp h.names
    have hSegments := (hKey _).mp h.segments
    exact ⟨⟨hNames.1, hSegments.1⟩, hNames.2, hSegments.2⟩
  · intro h
    exact
      ⟨(hKey _).mpr ⟨h.1.names, h.2.1⟩,
        (hKey _).mpr ⟨h.1.segments, h.2.2⟩⟩

/- The first resources that are told apart from all. -/
theorem Separate.left
    (h : Separate (resources ++ resources')) :
    Separate resources := by
  have hKey :
      ∀ key : Resource → String,
        ((resources ++ resources').map key).Nodup →
          (resources.map key).Nodup := by
    intro key hNodup
    rw [List.map_append] at hNodup
    exact (List.nodup_append.mp hNodup).1
  exact ⟨hKey _ h.names, hKey _ h.segments⟩

/-
  With distinct keys, what is found under a key is the one
  resource that has it.
-/
theorem find?_eq_some_iff
    {key : Resource → String}
    (hNodup : (resources.map key).Nodup)
    {k : String}
    {r : Resource} :
    resources.find? (fun r => key r = k) = some r ↔
      r ∈ resources ∧ key r = k := by
  constructor
  · intro h
    have hKey := List.find?_some h
    exact ⟨List.mem_of_find?_eq_some h, of_decide_eq_true hKey⟩
  · intro h
    induction resources with
    | nil => cases h.1
    | cons head rest ih =>
        rw [List.map_cons, List.nodup_cons] at hNodup
        rcases List.mem_cons.mp h.1 with hHead | hRest
        · subst hHead
          simp [h.2]
        · have hOther : key head ≠ k := by
            intro hSame
            apply hNodup.1
            rw [hSame, ← h.2]
            exact List.mem_map_of_mem hRest
          simpa [hOther] using ih hNodup.2 ⟨hRest, h.2⟩

------------------------------------------------------------
-- Building and checking
------------------------------------------------------------

/- A resource is added exactly if its name and segment are new. -/
theorem add_eq_ok_iff
    {r : Resource} :
    c.add r = .ok c' ↔
      (∀ other ∈ c.resources, other.name ≠ r.name) ∧
        (∀ other ∈ c.resources,
          other.pathSegment ≠ r.pathSegment) ∧
        c' = { c with resources := c.resources ++ [r] } := by
  unfold add
  split
  · next hName =>
      simp only [List.any_eq_true, decide_eq_true_eq] at hName
      rcases hName with ⟨other, hOther, hSame⟩
      constructor
      · intro h
        cases h
      · intro h
        exact absurd hSame (h.1 other hOther)
  · next hName =>
      simp only [List.any_eq_true, decide_eq_true_eq, not_exists,
        not_and] at hName
      split
      · next hSegment =>
          simp only [List.any_eq_true, decide_eq_true_eq]
            at hSegment
          rcases hSegment with ⟨other, hOther, hSame⟩
          constructor
          · intro h
            cases h
          · intro h
            exact absurd hSame (h.2.1 other hOther)
      · next hSegment =>
          simp only [List.any_eq_true, decide_eq_true_eq,
            not_exists, not_and] at hSegment
          constructor
          · intro h
            exact ⟨hName, hSegment, (Except.ok.inj h).symm⟩
          · intro h
            rw [h.2.2]

/- Resources are added one by one exactly if all are separate. -/
theorem foldlM_add_eq_ok_iff
    (hSeparate : Separate c.resources) :
    resources.foldlM add c = .ok c' ↔
      Separate (c.resources ++ resources) ∧
        c' = { c with resources := c.resources ++ resources } := by
  induction resources generalizing c with
  | nil =>
      rw [List.foldlM_nil, List.append_nil]
      constructor
      · intro h
        exact ⟨hSeparate, (Except.ok.inj h).symm⟩
      · intro h
        rw [h.2]
        rfl
  | cons r resources ih =>
      have hMove :
          c.resources ++ r :: resources =
            c.resources ++ [r] ++ resources := by
        simp
      rw [List.foldlM_cons, Success.bind_eq_ok_iff, hMove]
      constructor
      · intro h
        rcases h with ⟨next, hAdd, hRest⟩
        rcases add_eq_ok_iff.mp hAdd with
          ⟨hName, hSegment, hNext⟩
        subst hNext
        have hStep : Separate (c.resources ++ [r]) :=
          separate_append_singleton.mpr
            ⟨hSeparate, hName, hSegment⟩
        exact (ih hStep).mp hRest
      · intro h
        have hStep : Separate (c.resources ++ [r]) := h.1.left
        have hFresh := separate_append_singleton.mp hStep
        refine ⟨_, add_eq_ok_iff.mpr ⟨hFresh.2.1, hFresh.2.2, rfl⟩, ?_⟩
        exact (ih hStep).mpr h

/- A catalog is made of resources exactly if they are separate. -/
theorem ofResources_eq_ok_iff :
    ofResources resources = .ok c ↔
      Separate resources ∧ c = { resources } := by
  have hNone : Separate ({} : Catalog).resources :=
    ⟨List.nodup_nil, List.nodup_nil⟩
  unfold ofResources
  rw [foldlM_add_eq_ok_iff hNone]
  simp

/- References are accepted exactly if each can be followed. -/
theorem checkReferences_eq_ok_iff :
    c.checkReferences = .ok c' ↔
      (∀ r ∈ c.resources, c.referenceError? r = none) ∧
        c' = c := by
  unfold checkReferences
  cases hError : c.resources.findSome? c.referenceError? with
  | some e =>
      rcases List.exists_of_findSome?_eq_some hError with
        ⟨r, hr, hOwn⟩
      constructor
      · intro h
        cases h
      · intro h
        rw [h.1 r hr] at hOwn
        cases hOwn
  | none =>
      rw [List.findSome?_eq_none_iff] at hError
      constructor
      · intro h
        exact ⟨hError, (Except.ok.inj h).symm⟩
      · intro h
        rw [h.2]

end Catalog

------------------------------------------------------------
-- Declarations
------------------------------------------------------------

namespace Declaration

open Catalog

/-
  Declarations resolve to a catalog exactly if it has the
  resource of each, these are separate, and the references
  between them can be followed.
-/
theorem resolve_eq_ok_iff
    {declarations : List Declaration}
    {c : Catalog} :
    resolve declarations = .ok c ↔
      declarations.mapM resource = .ok c.resources ∧
        Separate c.resources ∧
        (∀ r ∈ c.resources, c.referenceError? r = none) ∧
        c.hooks = [] := by
  unfold resolve
  simp only [Success.bind_eq_ok_iff, ofResources_eq_ok_iff,
    checkReferences_eq_ok_iff]
  constructor
  · intro h
    rcases h with
      ⟨resources, hEach, built, ⟨hSeparate, hBuilt⟩, hFollow, hSame⟩
    subst hSame hBuilt
    exact ⟨hEach, hSeparate, hFollow, rfl⟩
  · intro h
    rcases h with ⟨hEach, hSeparate, hFollow, hHooks⟩
    cases c
    dsimp only at hHooks
    subst hHooks
    exact ⟨_, hEach, _, ⟨hSeparate, rfl⟩, hFollow, rfl⟩

end Declaration

end RelationalRest
