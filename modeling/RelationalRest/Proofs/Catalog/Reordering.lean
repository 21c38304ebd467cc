import RelationalRest.Proofs.Catalog.Resolved

/-
  The order of declarations does not matter.  Declarations
  are accepted exactly if each gives a resource, the names
  and the path segments of these are distinct, and their
  references can be followed; none of this depends on order,
  and neither does what is found under a name or a segment.

  Key definitions include:
    * `Catalog.OneToOne`
    * `Catalog.SameLookups`

  Main declarations:
    * `Catalog.oneToOne_of_separate`
    * `Catalog.sameLookups_of_perm`
    * `Declaration.resolve_perm`
-/

namespace RelationalRest

------------------------------------------------------------
-- Other orders
------------------------------------------------------------

namespace Catalog

variable {c c' : Catalog}
variable {resources resources' : List Resource}

/- Resources in another order are still told apart. -/
theorem Separate.perm
    (h : Separate resources)
    (hPerm : resources.Perm resources') :
    Separate resources' where
  names := (hPerm.map Resource.name).nodup_iff.mp h.names
  segments :=
    (hPerm.map Resource.pathSegment).nodup_iff.mp h.segments

/- With distinct keys, what is found does not depend on order. -/
theorem find?_perm
    {key : Resource → String}
    (hNodup : (resources.map key).Nodup)
    (hPerm : resources.Perm resources')
    (k : String) :
    resources.find? (fun r => key r = k) =
      resources'.find? fun r => key r = k := by
  have hNodup' : (resources'.map key).Nodup :=
    (hPerm.map key).nodup_iff.mp hNodup
  refine Option.ext fun r => ?_
  rw [find?_eq_some_iff hNodup, find?_eq_some_iff hNodup',
    hPerm.mem_iff]

------------------------------------------------------------
-- Names and path segments
------------------------------------------------------------

/-
  Names and path segments of a catalog correspond to each
  other: each resource is found under both of its own, and
  what is found under a segment is the only resource with it.
-/
structure OneToOne (c : Catalog) : Prop where
  find? : ∀ r ∈ c.resources, c.find? r.name = some r
  byPath? : ∀ r ∈ c.resources, c.byPath? r.pathSegment = some r
  only :
    ∀ segment, (c.byPath? segment).isSome = true →
      ∃ before r after,
        c.resources = before ++ r :: after ∧
          r.pathSegment = segment ∧
          ∀ other ∈ before ++ after, other.pathSegment ≠ segment
  name_iff :
    ∀ r ∈ c.resources, ∀ other ∈ c.resources,
      r.name = other.name ↔ r.pathSegment = other.pathSegment

/- Two catalogs give the same resources for names and segments. -/
structure SameLookups (c c' : Catalog) : Prop where
  find? : ∀ name, c.find? name = c'.find? name
  byPath? : ∀ segment, c.byPath? segment = c'.byPath? segment

/- The one resource of a path segment, apart from the others. -/
theorem Separate.exists_apart
    (h : Separate resources)
    {r : Resource}
    (hr : r ∈ resources) :
    ∃ before after,
      resources = before ++ r :: after ∧
        ∀ other ∈ before ++ after,
          other.pathSegment ≠ r.pathSegment := by
  rcases List.append_of_mem hr with ⟨before, after, hSplit⟩
  refine ⟨before, after, hSplit, ?_⟩
  have hMiddle :
      (r :: (before ++ after)).Perm resources := by
    rw [hSplit]
    exact List.perm_middle.symm
  have hNodup := (h.perm hMiddle.symm).segments
  rw [List.map_cons, List.nodup_cons] at hNodup
  intro other hOther hSame
  apply hNodup.1
  rw [← hSame]
  exact List.mem_map_of_mem hOther

/- Names and segments of separate resources correspond. -/
theorem oneToOne_of_separate
    (h : Separate c.resources) :
    c.OneToOne := by
  have hName :
      ∀ r ∈ c.resources, c.find? r.name = some r :=
    fun r hr => (find?_eq_some_iff h.names).mpr ⟨hr, rfl⟩
  have hSegment :
      ∀ r ∈ c.resources, c.byPath? r.pathSegment = some r :=
    fun r hr => (find?_eq_some_iff h.segments).mpr ⟨hr, rfl⟩
  refine ⟨hName, hSegment, ?_, ?_⟩
  · intro segment hFound
    rcases Option.isSome_iff_exists.mp hFound with ⟨r, hr⟩
    have hOwn := (find?_eq_some_iff h.segments).mp hr
    rcases h.exists_apart hOwn.1 with
      ⟨before, after, hSplit, hOthers⟩
    rw [hOwn.2] at hOthers
    exact ⟨before, r, after, hSplit, hOwn.2, hOthers⟩
  · intro r hr other hOther
    constructor
    · intro hSame
      have hFound := hName r hr
      rw [hSame, hName other hOther] at hFound
      rw [Option.some_inj.mp hFound]
    · intro hSame
      have hFound := hSegment r hr
      rw [hSame, hSegment other hOther] at hFound
      rw [Option.some_inj.mp hFound]

/- Separate resources are found alike in any order. -/
theorem sameLookups_of_perm
    (h : Separate c.resources)
    (hPerm : c.resources.Perm c'.resources) :
    c.SameLookups c' where
  find? := find?_perm h.names hPerm
  byPath? := find?_perm h.segments hPerm

/- The check of references looks resources up by name only. -/
theorem referenceError?_congr
    (h : ∀ name, c.find? name = c'.find? name)
    (r : Resource) :
    c.referenceError? r = c'.referenceError? r := by
  simp only [referenceError?, belongsToError?, hasManyError?,
    columnError?, h]

end Catalog

------------------------------------------------------------
-- Declarations in any order
------------------------------------------------------------

namespace Declaration

open Catalog

variable {declarations others : List Declaration}
variable {c : Catalog}

/- Declarations that are accepted are accepted in another order. -/
theorem exists_resolve_of_perm
    (hPerm : declarations.Perm others)
    (h : resolve declarations = .ok c) :
    ∃ c', resolve others = .ok c' ∧
      c.resources.Perm c'.resources := by
  rcases resolve_eq_ok_iff.mp h with ⟨hEach, hSeparate, hFollow, _⟩
  rcases Success.exists_results_of_perm hPerm hEach with
    ⟨resources, hOthers, hMoved⟩
  have hSame : c.SameLookups { resources } :=
    sameLookups_of_perm hSeparate hMoved
  refine ⟨{ resources }, resolve_eq_ok_iff.mpr ?_, hMoved⟩
  refine ⟨hOthers, hSeparate.perm hMoved, ?_, rfl⟩
  intro r hr
  rw [← referenceError?_congr hSame.find? r]
  exact hFollow r (hMoved.mem_iff.mpr hr)

/-
  Declarations in another order are accepted alike and give
  the same resources for each name and each path segment, and
  in every catalog that they resolve to names and segments
  correspond to each other.
-/
theorem resolve_perm
    (hPerm : declarations.Perm others) :
    ((∃ c, resolve declarations = .ok c) ↔
        ∃ c', resolve others = .ok c') ∧
      ∀ c, resolve declarations = .ok c →
        c.OneToOne ∧
          ∀ c', resolve others = .ok c' → c.SameLookups c' := by
  refine ⟨⟨?_, ?_⟩, ?_⟩
  · intro h
    rcases h with ⟨c, hResolve⟩
    rcases exists_resolve_of_perm hPerm hResolve with
      ⟨c', hOthers, _⟩
    exact ⟨c', hOthers⟩
  · intro h
    rcases h with ⟨c', hOthers⟩
    rcases exists_resolve_of_perm hPerm.symm hOthers with
      ⟨c, hResolve, _⟩
    exact ⟨c, hResolve⟩
  · intro c hResolve
    have hSeparate := (resolve_eq_ok_iff.mp hResolve).2.1
    refine ⟨oneToOne_of_separate hSeparate, ?_⟩
    intro c' hOthers
    rcases exists_resolve_of_perm hPerm hResolve with
      ⟨found, hFound, hMoved⟩
    rw [hOthers] at hFound
    cases hFound
    exact sameLookups_of_perm hSeparate hMoved

/- Members refer to ideas and ideas to members, in both orders. -/
theorem resolve_perm_sample :
    samples.Perm samples.reverse ∧
      ∃ c c',
        resolve samples = .ok c ∧
          resolve samples.reverse = .ok c' ∧
          c.resources.map Resource.name = ["users", "entries"] ∧
          c'.resources.map Resource.name = ["entries", "users"] ∧
          c.OneToOne ∧ c.SameLookups c' := by
  have hPerm : samples.Perm samples.reverse :=
    (List.reverse_perm samples).symm
  refine ⟨hPerm, _, _, rfl, rfl, rfl, rfl, ?_⟩
  have hOne := (resolve_perm hPerm).2 _ rfl
  exact ⟨hOne.1, hOne.2 _ rfl⟩

end Declaration

end RelationalRest
