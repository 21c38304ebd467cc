import RelationalRest.Proofs.Record.Placement

/-
  What an envelope has lost and kept without hidden fields.
  Over a resolved catalog every relation leads to a resource,
  whose hidden fields are gone from the object of its label;
  the other names and the other values are those from before.

  Key definitions include:
    * `Catalog.Redacts`

  Main declarations:
    * `Catalog.Resolved.exists_find?`
    * `Resource.Tidy.stripHidden`
    * `Catalog.Resolved.strips_exactly`
-/

namespace RelationalRest

------------------------------------------------------------
-- Relations that lead somewhere
------------------------------------------------------------

namespace Catalog

variable {c : Catalog}
variable {r : Resource}

/- A reference to many records that is accepted leads somewhere. -/
theorem hasMany_of_referenceError?
    (hNone : c.referenceError? r = none)
    {entry : String × Relation}
    (hEntry : entry ∈ r.hasMany) :
    ∃ related, c.find? entry.2.resource = some related := by
  simp only [referenceError?, Option.orElse_eq_orElse,
    Option.orElse_eq_or, Option.or_eq_none_iff] at hNone
  have hMany :=
    List.findSome?_eq_none_iff.mp hNone.2.1 entry hEntry
  unfold hasManyError? at hMany
  split at hMany
  · cases hMany
  · next related hRelated => exact ⟨related, hRelated⟩

/- Every relation of a resolved catalog leads to a resource. -/
theorem Resolved.exists_find?
    (h : c.Resolved)
    (hr : r ∈ c.resources)
    {entry : String × Relation}
    (hEntry : entry ∈ r.relations) :
    ∃ related, c.find? entry.2.resource = some related := by
  rcases List.mem_append.mp hEntry with hOne | hMany
  · rcases h.sound.belongsTo r hr entry hOne with
      ⟨related, _, hFind, _⟩
    exact ⟨related, hFind⟩
  · rcases h with ⟨declarations, resolved, hResolve, hSame⟩
    have hFind : c.find? = resolved.find? := by
      funext name
      simp [find?, hSame]
    rw [hSame] at hr
    rw [hFind]
    have hFollow := (Declaration.resolve_eq_ok_iff.mp hResolve).2.2.1
    exact hasMany_of_referenceError? (hFollow r hr) hMany

end Catalog

------------------------------------------------------------
-- Distinct names
------------------------------------------------------------

/- Removing names keeps names distinct. -/
theorem Fields.Distinct.without
    {β : Type}
    {m : Fields β}
    (h : Distinct m)
    (names : List String) :
    Distinct (Fields.without m names) :=
  List.foldlRecOn names _ h fun _ hm name _ => hm.swapRemove name

/- Adjusting a value leaves the names. -/
theorem Fields.keys_adjust
    {β : Type}
    (m : Fields β)
    (name : String)
    (f : β → β) :
    keys (adjust m name f) = keys m := by
  unfold keys adjust
  rw [List.map_map]
  refine List.map_congr_left fun entry _ => ?_
  dsimp only [Function.comp_apply]
  split <;> rfl

/- A value without names is an object only if it was one. -/
theorem Json.without_eq_object_iff
    {v : Json}
    {names : List String}
    {members : List (String × Json)} :
    v.without names = .object members ↔
      ∃ before, v = .object before ∧
        members = Fields.without before names := by
  cases v <;> simp [Json.without, eq_comm]

namespace Resource.Tidy

variable {c : Catalog}
variable {r : Resource}
variable {e : Fields Json}

/- Hidden fields leave a tidy envelope tidy. -/
theorem stripHidden
    (hr : r.Sound)
    (h : Tidy e) :
    Tidy (c.stripHidden r e) := by
  refine ⟨?_, ?_⟩
  · unfold Catalog.stripHidden
    refine List.foldlRecOn r.relations _ (h.distinct.without _) ?_
    intro e he entry _
    unfold Catalog.stripRelation
    split
    · exact he
    · unfold Fields.Distinct
      rw [Fields.keys_adjust]
      exact he
  · intro name members hFound
    rw [Catalog.get?_stripHidden hr h.distinct] at hFound
    split at hFound
    · cases hFound
    · rcases Option.map_eq_some_iff.mp hFound with
        ⟨v, hv, hObject⟩
      rcases Json.without_eq_object_iff.mp hObject with
        ⟨before, rfl, rfl⟩
      exact (h.members name before hv).without _

end Resource.Tidy

------------------------------------------------------------
-- Redacted envelopes
------------------------------------------------------------

namespace Catalog

variable {c : Catalog}
variable {r : Resource}
variable {e e' : Fields Json}

/-
  The second envelope is the first one without what a resource
  hides: without its own hidden names, without those that the
  related resource hides in the object of a label, and with
  everything else as it was.
-/
structure Redacts
    (c : Catalog)
    (r : Resource)
    (e e' : Fields Json) : Prop where
  tidy : Resource.Tidy e'
  hidden : ∀ name ∈ r.hidden, name ∉ e'.keys
  hiddenNested :
    ∀ label relation related members,
      Fields.get? r.relations label = some relation →
        c.find? relation.resource = some related →
          Fields.get? e' label = some (.object members) →
            ∀ column ∈ related.hidden,
              column ∉ Fields.keys members
  keptNested :
    ∀ label relation related members,
      label ∉ r.hidden →
        Fields.get? r.relations label = some relation →
          c.find? relation.resource = some related →
            Fields.get? e label = some (.object members) →
              ∃ left,
                Fields.get? e' label = some (.object left) ∧
                  ∀ column, column ∉ related.hidden →
                    Fields.get? left column =
                      Fields.get? members column
  kept :
    ∀ name, name ∉ r.hidden →
      (name ∉ r.relations.keys ∨
        ∀ members, Fields.get? e name ≠ some (.object members)) →
        Fields.get? e' name = Fields.get? e name

/- What is hidden under a label, by its relation. -/
theorem hiddenUnder_eq
    {label : String}
    {relation : Relation}
    {related : Resource}
    (hRelation : Fields.get? r.relations label = some relation)
    (hFind : c.find? relation.resource = some related) :
    c.hiddenUnder r label = related.hidden := by
  simp only [hiddenUnder, hRelation, hFind]

/- Nothing is hidden under a name that is no label. -/
theorem hiddenUnder_of_not_mem
    {name : String}
    (h : name ∉ r.relations.keys) :
    c.hiddenUnder r name = [] := by
  simp only [hiddenUnder, Fields.get?_eq_none_iff.mpr h]

/- Removing names changes no value but an object. -/
theorem without_of_not_object
    {v : Json}
    (h : ∀ members, v ≠ .object members)
    (names : List String) :
    v.without names = v := by
  cases v with
  | object members => exact absurd rfl (h members)
  | _ => rfl

/- An envelope is redacted when its hidden fields are removed. -/
theorem redacts_stripHidden
    (hr : r.Sound)
    (h : Resource.Tidy e) :
    c.Redacts r e (c.stripHidden r e) := by
  have hTidy : Resource.Tidy (c.stripHidden r e) :=
    h.stripHidden hr
  have hFound := get?_stripHidden (c := c) hr h.distinct
  refine ⟨hTidy, ?_, ?_, ?_, ?_⟩
  · intro name hName
    rw [← Fields.get?_eq_none_iff, hFound, if_pos hName]
  · intro label relation related members hRelation hFind hObject
    rw [hFound, hiddenUnder_eq hRelation hFind] at hObject
    split at hObject
    · cases hObject
    · rcases Option.map_eq_some_iff.mp hObject with
        ⟨v, hv, hWithout⟩
      rcases Json.without_eq_object_iff.mp hWithout with
        ⟨before, rfl, rfl⟩
      intro column hColumn
      rw [← Fields.get?_eq_none_iff,
        Fields.get?_without (h.members label before hv),
        if_pos hColumn]
  · intro label relation related members hLabel hRelation hFind
      hObject
    refine ⟨Fields.without members related.hidden, ?_, ?_⟩
    · rw [hFound, if_neg hLabel, hObject,
        hiddenUnder_eq hRelation hFind]
      rfl
    · intro column hColumn
      rw [Fields.get?_without (h.members label members hObject),
        if_neg hColumn]
  · intro name hName hPlain
    rw [hFound, if_neg hName]
    rcases hPlain with hNoLabel | hNoObject
    · simp only [hiddenUnder_of_not_mem hNoLabel, without_nil,
        Option.map_id']
    · cases hValue : Fields.get? e name with
      | none => rfl
      | some v =>
          rw [hValue] at hNoObject
          rw [Option.map_some, without_of_not_object]
          intro members hObject
          exact hNoObject members (congrArg some hObject)

/-
  Over a resolved catalog every relation of a resource leads to
  a resource, and removing hidden fields from an envelope takes
  away what these hide and nothing else.
-/
theorem Resolved.strips_exactly
    (hResolved : c.Resolved)
    (hr : r ∈ c.resources)
    (hTidy : Resource.Tidy e) :
    (∀ entry ∈ r.relations,
      ∃ related, c.find? entry.2.resource = some related) ∧
      c.Redacts r e (c.stripHidden r e) :=
  ⟨fun _ hEntry => hResolved.exists_find? hr hEntry,
    redacts_stripHidden (hResolved.sound.resources r hr) hTidy⟩

end Catalog

------------------------------------------------------------
-- An idea without the password of its creator
------------------------------------------------------------

/- An idea with all that is known of its creator. -/
def Resource.ideaEnvelope : Fields Json :=
  [ ("id", .number (.int 1))
  , ("creator",
      .object
        [ ("password", .string "secret")
        , ("id", .number (.int 2))
        , ("name", .string "x") ])
  , ("deleted", .bool false) ]

/- Names are distinct in this envelope. -/
theorem Resource.tidy_ideaEnvelope : Tidy ideaEnvelope where
  distinct := by decide
  members := by
    intro name members hFound
    have hEntry := Fields.mem_of_get?_eq_some hFound
    simp only [ideaEnvelope, List.mem_cons, Prod.mk.injEq,
      Json.object.injEq, reduceCtorEq, and_false, false_or,
      or_false, List.not_mem_nil] at hEntry
    rw [hEntry.2]
    decide

/- The password of the creator is taken away, and it alone. -/
theorem Catalog.Resolved.strips_exactly_sample :
    Resource.Tidy Resource.ideaEnvelope ∧
      sample.Redacts Resource.sample Resource.ideaEnvelope
        [ ("id", .number (.int 1))
        , ("creator",
            .object
              [ ("name", .string "x")
              , ("id", .number (.int 2)) ])
        , ("deleted", .bool false) ] :=
  ⟨Resource.tidy_ideaEnvelope,
    (strips_exactly sample_resolved mem_sample
      Resource.tidy_ideaEnvelope).2⟩

end RelationalRest
