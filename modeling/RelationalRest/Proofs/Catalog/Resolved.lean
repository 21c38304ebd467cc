import RelationalRest.Proofs.Catalog.Building
import RelationalRest.Proofs.Catalog.Checked

/-
  What the checks of declarations establish of a catalog: in
  each resource every field is either a column or a relation
  of one kind, no label captures the columns of the table,
  and every relation to one record leads to a resource with a
  primary key.

  Main declarations:
    * `Resource.Sound`
    * `Catalog.Sound`
    * `Catalog.Resolved`
    * `Catalog.Resolved.sound`
    * `Catalog.sample`
-/

namespace RelationalRest

------------------------------------------------------------
-- Sound resources
------------------------------------------------------------

/- What the check of a draft establishes of its resource. -/
structure Resource.Sound (r : Resource) : Prop where
  distinct : (r.owns.keys ++ r.relations.keys).Nodup
  labels :
    ∀ label ∈ r.relations.keys,
      ResourceDraft.clashes label r.table.name = false
  owner : ∀ o ∈ r.ownership, r.ownsColumn o.column = true

/- A label of a relation to one record is one of a relation. -/
theorem Resource.mem_relations_of_belongsTo
    {r : Resource}
    {label : String}
    (h : label ∈ r.belongsTo.keys) :
    label ∈ r.relations.keys := by
  unfold relations Fields.keys
  rw [List.map_append]
  exact List.mem_append_left _ h

namespace Resource.Sound

variable {r : Resource}

/- No column has the name of another one. -/
theorem distinct_owns
    (h : r.Sound) :
    r.owns.Distinct :=
  (List.nodup_append.mp h.distinct).1

/- The relations of both kinds have labels of their own. -/
theorem nodup_relations
    (h : r.Sound) :
    (r.belongsTo.keys ++ r.hasMany.keys).Nodup := by
  have hNodup := (List.nodup_append.mp h.distinct).2.1
  simpa [Resource.relations, Fields.keys] using hNodup

/- No label belongs to two records. -/
theorem distinct_belongsTo
    (h : r.Sound) :
    r.belongsTo.Distinct :=
  (List.nodup_append.mp h.nodup_relations).1

/- A relation to one record is none to many. -/
theorem not_hasMany_of_belongsTo
    {label : String}
    (h : r.Sound)
    (hLabel : label ∈ r.belongsTo.keys) :
    label ∉ r.hasMany.keys := by
  intro hMany
  have hApart := (List.nodup_append.mp h.nodup_relations).2.2
  exact hApart label hLabel label hMany rfl

/- A column of the table is no label. -/
theorem ne_of_owns
    {name label : String}
    (h : r.Sound)
    (hName : name ∈ r.owns.keys)
    (hLabel : label ∈ r.belongsTo.keys) :
    label ≠ name := by
  have hApart := (List.nodup_append.mp h.distinct).2.2
  have hRelation : label ∈ r.relations.keys :=
    mem_relations_of_belongsTo hLabel
  exact (hApart name hName label hRelation).symm

/- No label is the name of the table. -/
theorem ne_table
    {label : String}
    (h : r.Sound)
    (hLabel : label ∈ r.relations.keys) :
    label ≠ r.table.name := by
  rintro rfl
  have hClash := h.labels _ hLabel
  simp [ResourceDraft.clashes] at hClash

end Resource.Sound

namespace ResourceDraft

/- A resource that passes the check is sound. -/
theorem sound_of_check
    {d : ResourceDraft}
    {r : Resource}
    (hDistinct : d.fields.Distinct)
    (h : d.check = .ok r) :
    r.Sound := by
  have hNodup := (sorts_of_check hDistinct h).nodup_keys hDistinct
  rcases check_eq_ok_iff.mp h with ⟨hFits, rfl⟩
  refine ⟨?_, ?_, ?_⟩
  · unfold Resource.relations Fields.keys
    rw [List.map_append]
    exact hNodup
  · intro label hLabel
    unfold Resource.relations Fields.keys at hLabel
    rw [List.map_append] at hLabel
    rcases List.mem_append.mp hLabel with hOne | hMany
    · exact hFits.clashes_eq_false hOne
    · exact hFits.clashes_eq_false hMany
  · intro o hOwner
    exact Fields.contains_iff_mem_keys.mpr
      (mem_keys_owns_iff.mpr (hFits.owner o hOwner))

end ResourceDraft

namespace Declaration

/- The draft of a declaration has the names of its fields. -/
theorem keys_draft
    {d : Declaration}
    {draft : ResourceDraft}
    (h : d.draft = .ok draft) :
    draft.fields.keys = d.fields.keys := by
  unfold Declaration.draft at h
  rcases Success.bind_eq_ok_iff.mp h with ⟨fields, hFields, hDraft⟩
  cases hDraft
  refine Success.map_results ?_ hFields
  rintro ⟨label, f⟩ entry hEntry
  rcases Success.bind_eq_ok_iff.mp hEntry with ⟨draft, _, hPair⟩
  cases hPair
  rfl

/- A declared resource that is accepted is sound. -/
theorem sound_of_resource
    {d : Declaration}
    {r : Resource}
    (h : d.resource = .ok r) :
    r.Sound := by
  unfold Declaration.resource at h
  rcases Success.bind_eq_ok_iff.mp h with ⟨draft, hDraft, hCheck⟩
  have hDistinct : draft.fields.Distinct := by
    unfold Fields.Distinct
    rw [keys_draft hDraft]
    exact d.distinct
  exact ResourceDraft.sound_of_check hDistinct hCheck

end Declaration

------------------------------------------------------------
-- Sound catalogs
------------------------------------------------------------

/- What resolving declarations establishes of their catalog. -/
structure Catalog.Sound (c : Catalog) : Prop where
  resources : ∀ r ∈ c.resources, r.Sound
  belongsTo :
    ∀ r ∈ c.resources, ∀ entry ∈ r.belongsTo,
      ∃ related key,
        c.find? entry.2.resource = some related ∧
          related.primaryKey = some key

/-
  A catalog that declarations resolve to, whatever hooks were
  set since.
-/
def Catalog.Resolved (c : Catalog) : Prop :=
  ∃ declarations resolved,
    Declaration.resolve declarations = .ok resolved ∧
      c.resources = resolved.resources

namespace Catalog

/- A reference to one record that is accepted can be followed. -/
theorem belongsTo_of_referenceError?
    {c : Catalog}
    {r : Resource}
    (hNone : c.referenceError? r = none)
    {entry : String × Relation}
    (hEntry : entry ∈ r.belongsTo) :
    ∃ related key,
      c.find? entry.2.resource = some related ∧
        related.primaryKey = some key := by
  simp only [referenceError?, Option.orElse_eq_orElse,
    Option.orElse_eq_or, Option.or_eq_none_iff] at hNone
  have hOne :=
    List.findSome?_eq_none_iff.mp hNone.1 entry hEntry
  unfold belongsToError? at hOne
  split at hOne
  · cases hOne
  · next related hRelated =>
      cases hKey : related.primaryKey with
      | none => simp [hKey] at hOne
      | some key => exact ⟨related, key, hRelated, hKey⟩

/- A catalog that declarations resolve to is sound. -/
theorem sound_of_resolve
    {declarations : List Declaration}
    {c : Catalog}
    (h : Declaration.resolve declarations = .ok c) :
    c.Sound := by
  rcases Declaration.resolve_eq_ok_iff.mp h with
    ⟨hResources, _, hFollow, _⟩
  refine ⟨?_, ?_⟩
  · intro r hr
    rcases Success.exists_of_mem_results hResources hr with
      ⟨d, _, hResource⟩
    exact Declaration.sound_of_resource hResource
  · intro r hr entry hEntry
    exact belongsTo_of_referenceError? (hFollow r hr) hEntry

/- A resource that is found is one of the catalog. -/
theorem mem_resources_of_find?
    {c : Catalog}
    {name : String}
    {r : Resource}
    (h : c.find? name = some r) :
    r ∈ c.resources :=
  List.mem_of_find?_eq_some h

/- Hooks do not matter to the soundness of a catalog. -/
theorem Resolved.sound
    {c : Catalog}
    (h : c.Resolved) :
    c.Sound := by
  rcases h with ⟨declarations, resolved, hResolve, hSame⟩
  have hSound := sound_of_resolve hResolve
  refine ⟨?_, ?_⟩
  · rw [hSame]
    exact hSound.resources
  · intro r hr entry hEntry
    rw [hSame] at hr
    have hFind : c.find? = resolved.find? := by
      funext name
      simp [find?, hSame]
    rw [hFind]
    exact hSound.belongsTo r hr entry hEntry

end Catalog

------------------------------------------------------------
-- A resolved catalog
------------------------------------------------------------

/- Members write ideas, and an idea belongs to who wrote it. -/
def Declaration.samples : List Declaration :=
  [ { name := "users"
      table := "member"
      primaryKey := some "id"
      hidden := ["password"]
      fields :=
        [ ("id", { type := .named "int", props := ["default"] })
        , ("name", { type := .named "string", props := ["default"] })
        , ("password", { type := .named "string" })
        , ("entries",
            { type := .reference "entries"
              relation := some "has_many"
              mapping := some "creator_id" }) ] }
  , { name := "entries"
      table := "idea"
      primaryKey := some "id"
      softDelete := some (.column "deleted")
      fields :=
        [ ("id", { type := .named "int", props := ["default"] })
        , ("title", { type := .named "string", props := ["default"] })
        , ("creator_id", { type := .named "int" })
        , ("deleted", { type := .named "bool" })
        , ("creator",
            { type := .reference "users"
              props := ["default"]
              relation := some "belongs_to"
              mapping := some "creator_id" }) ] } ]

namespace Catalog

/- The catalog of members and ideas. -/
def sample : Catalog :=
  (Declaration.resolve Declaration.samples).toOption.getD {}

/- The declarations of members and ideas are accepted. -/
theorem sample_resolved : sample.Resolved :=
  ⟨Declaration.samples, sample, rfl, rfl⟩

end Catalog

/- The resource of ideas. -/
def Resource.sample : Resource :=
  (Catalog.sample.find? "entries").get rfl

/- The resource of ideas is one of the catalog. -/
theorem Catalog.mem_sample :
    Resource.sample ∈ sample.resources :=
  mem_resources_of_find? (Option.some_get _).symm

end RelationalRest
