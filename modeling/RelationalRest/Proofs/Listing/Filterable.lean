import RelationalRest.Proofs.Listing.Plan

/-
  Only fields that can be filtered by filter.  What a request
  asks of a resource are demands on its filterable columns and
  on those of the relations that can be filtered by; nothing
  else of the request is read.  Their conditions are added in
  the order in which the fields are declared, those of a
  relation in the place of its label, and a relation of a
  relation is refused.

  Key definitions include:
    * `Catalog.Leads`
    * `Filter.Asks`
    * `Filter.Refuses`
    * `Filter.Precedes`
    * `Filter.Confined`

  Main declarations:
    * `Filter.mem_plan_cases`
    * `Filter.pairwise_plan`
    * `Filter.plan_eq_of_agree`
    * `Catalog.Resolved.filters_confined`
-/

namespace RelationalRest

/- The label of a relation to one record leads to a resource. -/
def Catalog.Leads
    (c : Catalog)
    (root : Resource)
    (label : String)
    (related : Resource) : Prop :=
  ∃ relation,
    Fields.get? root.belongsTo label = some relation ∧
      c.find? relation.resource = some related

/- A field is declared before another one. -/
def Resource.DeclaresBefore
    (r : Resource)
    (first later : String) : Prop :=
  [first, later].Sublist r.types.keys

namespace Filter

variable {c : Catalog}
variable {root related : Resource}
variable {requests requests' : Fields String}
variable {label name value : String}
variable {s : Step}
variable {d : Demand}

------------------------------------------------------------
-- What a request asks
------------------------------------------------------------

/-
  A request asks something of a column that can be filtered by:
  of one of the root, or of one of a resource to which a label
  leads that can be filtered by and that is requested, too.
-/
inductive Asks
    (c : Catalog)
    (root : Resource)
    (requests : Fields String) : Demand → Prop
| own
    {name text : String}
    {field : OwnedField}
    (hName : name ∈ root.filterable)
    (hField : Fields.get? root.owns name = some field)
    (hText : Fields.get? requests name = some text) :
    Asks c root requests ⟨none, name, field.type.kind, text⟩
| nested
    {label value name text : String}
    {related : Resource}
    {field : OwnedField}
    (hLabel : label ∈ root.filterable)
    (hLeads : c.Leads root label related)
    (hValue : Fields.get? requests label = some value)
    (hName : name ∈ related.filterable)
    (hField : Fields.get? related.owns name = some field)
    (hText : Fields.get? (subrequests value) name = some text) :
    Asks c root requests
      ⟨some label, name, field.type.kind, text⟩

/-
  A request asks what cannot be filtered by: a relation to many
  records, or a relation of a relation.
-/
inductive Refuses
    (c : Catalog)
    (root : Resource)
    (requests : Fields String) : Prop
| notRelation
    {name : String}
    (hName : name ∈ root.filterable)
    (hRequested : Fields.contains requests name = true)
    (hColumn : Fields.get? root.owns name = none)
    (hRelation : Fields.get? root.belongsTo name = none)
| tooDeep
    {label value name : String}
    {related : Resource}
    (hLabel : label ∈ root.filterable)
    (hLeads : c.Leads root label related)
    (hValue : Fields.get? requests label = some value)
    (hName : name ∈ related.filterable)
    (hRequested :
      Fields.contains (subrequests value) name = true)
    (hColumn : Fields.get? related.owns name = none)

/-
  The order of demands: that in which the root declares their
  places, and under one label that in which the related
  resource declares their columns.
-/
inductive Precedes
    (c : Catalog)
    (root : Resource) : Demand → Demand → Prop
| place
    {first later : Demand}
    (h : root.DeclaresBefore first.place later.place) :
    Precedes c root first later
| name
    {label : String}
    {related : Resource}
    {first later : Demand}
    (hLeads : c.Leads root label related)
    (hFirst : first.label = some label)
    (hLater : later.label = some label)
    (h : related.DeclaresBefore first.name later.name) :
    Precedes c root first later

------------------------------------------------------------
-- Steps of a plan
------------------------------------------------------------

/- The step of a field of a resource known by a label. -/
theorem mem_labelledSteps_iff :
    s ∈ labelledSteps related label requests name ↔
      ∃ text, Fields.get? requests name = some text ∧
        ((∃ field, Fields.get? related.owns name = some field ∧
            s = .demand ⟨some label, name, field.type.kind, text⟩) ∨
          (Fields.get? related.owns name = none ∧
            s = .refuse .filterTooDeep)) := by
  unfold labelledSteps
  cases Fields.get? requests name with
  | none => simp
  | some text =>
      cases Fields.get? related.owns name <;> simp

/- The step of a field of the root. -/
theorem mem_fieldSteps_iff :
    s ∈ fieldSteps c root requests name ↔
      ∃ text, Fields.get? requests name = some text ∧
        ((∃ field, Fields.get? root.owns name = some field ∧
            s = .demand ⟨none, name, field.type.kind, text⟩) ∨
          (Fields.get? root.owns name = none ∧
            s ∈ relationSteps c root name text)) := by
  unfold fieldSteps
  cases Fields.get? requests name with
  | none => simp
  | some text =>
      cases Fields.get? root.owns name <;> simp

/- The steps of a label that leads to a resource. -/
theorem relationSteps_eq
    (h : c.Leads root label related)
    (value : String) :
    relationSteps c root label value =
      related.filterable.flatMap
          (labelledSteps related label (subrequests value)) ++
        [.follow label related] := by
  rcases h with ⟨relation, hRelation, hFind⟩
  have hRelated : c.related relation = .ok related :=
    Catalog.related_of_find? hFind
  simp only [relationSteps, hRelation, hRelated]

/- A label of a sound catalog leads to a resource, or is none. -/
theorem leads_or_none
    (hSound : c.Sound)
    (hr : root ∈ c.resources)
    (label : String) :
    (∃ related, c.Leads root label related) ∨
      Fields.get? root.belongsTo label = none := by
  cases hRelation : Fields.get? root.belongsTo label with
  | none => exact .inr rfl
  | some relation =>
      rcases hSound.exists_related hr hRelation with
        ⟨related, _, hFind⟩
      exact .inl ⟨related, relation, hRelation, hFind⟩

/- A label that leads to a resource is no column. -/
theorem get?_owns_of_leads
    (hSound : c.Sound)
    (hr : root ∈ c.resources)
    (h : c.Leads root label related) :
    Fields.get? root.owns label = none := by
  rcases h with ⟨relation, hRelation, _⟩
  exact (hSound.resources root hr).get?_owns_of_label
    (Resource.mem_relations_of_belongsTo
      (Fields.mem_keys_of_get?_eq_some hRelation))

/-
  A step of a plan is a demand that is asked, a label that is
  followed, or the refusal of what cannot be filtered by.
-/
theorem mem_plan_cases
    (hSound : c.Sound)
    (hr : root ∈ c.resources)
    (h : s ∈ plan c root requests) :
    (∃ d, s = .demand d ∧ Asks c root requests d) ∨
      (∃ label related, s = .follow label related ∧
        c.Leads root label related) ∨
      ∃ e, s = .refuse e ∧ e.errorClass = .invalidArgument ∧
        Refuses c root requests := by
  rcases List.mem_flatMap.mp h with ⟨name, hName, hStep⟩
  rcases mem_fieldSteps_iff.mp hStep with
    ⟨value, hValue, ⟨field, hField, rfl⟩ | ⟨hColumn, hRest⟩⟩
  · exact .inl ⟨_, rfl, .own hName hField hValue⟩
  have hRequested : Fields.contains requests name = true := by
    simp [Fields.contains, hValue]
  rcases leads_or_none hSound hr name with
    ⟨related, hLeads⟩ | hRelation
  · rw [relationSteps_eq hLeads, List.mem_append,
      List.mem_singleton, List.mem_flatMap] at hRest
    rcases hRest with ⟨nested, hNested, hRest⟩ | rfl
    · rcases mem_labelledSteps_iff.mp hRest with
        ⟨text, hText, ⟨field, hField, rfl⟩ | ⟨hNone, rfl⟩⟩
      · exact .inl
          ⟨_, rfl, .nested hName hLeads hValue hNested hField hText⟩
      · have hDeep :
            Fields.contains (subrequests value) nested = true := by
          simp [Fields.contains, hText]
        exact .inr (.inr
          ⟨_, rfl, rfl,
            .tooDeep hName hLeads hValue hNested hDeep hNone⟩)
    · exact .inr (.inl ⟨name, related, rfl, hLeads⟩)
  · simp only [relationSteps, hRelation, List.mem_singleton] at hRest
    subst hRest
    exact .inr (.inr
      ⟨_, rfl, rfl, .notRelation hName hRequested hColumn hRelation⟩)

/- The steps of a plan over a sound catalog are sound. -/
theorem sound_of_mem_plan
    (hSound : c.Sound)
    (hr : root ∈ c.resources)
    (h : s ∈ plan c root requests) :
    s.Sound root := by
  rcases mem_plan_cases hSound hr h with
    ⟨d, rfl, _⟩ | ⟨label, related, rfl, hLeads⟩ |
      ⟨e, rfl, hClass, _⟩
  · trivial
  · rcases hLeads with ⟨relation, hRelation, hFind⟩
    rcases hSound.exists_primaryKey hr hRelation hFind with
      ⟨key, hKey⟩
    exact ⟨relation, key, hRelation, hKey⟩
  · exact hClass

/- What stands under a label that is requested is planned. -/
theorem mem_plan_of_nested
    (hSound : c.Sound)
    (hr : root ∈ c.resources)
    (hLabel : label ∈ root.filterable)
    (hLeads : c.Leads root label related)
    (hValue : Fields.get? requests label = some value)
    (hName : name ∈ related.filterable)
    (h : s ∈ labelledSteps related label (subrequests value) name) :
    s ∈ plan c root requests := by
  refine List.mem_flatMap.mpr ⟨label, hLabel, ?_⟩
  refine mem_fieldSteps_iff.mpr ⟨value, hValue, .inr ⟨?_, ?_⟩⟩
  · exact get?_owns_of_leads hSound hr hLeads
  · rw [relationSteps_eq hLeads]
    exact List.mem_append_left _
      (List.mem_flatMap.mpr ⟨name, hName, h⟩)

/- The demands of a plan are those that are asked. -/
theorem mem_plan_iff_asks
    (hSound : c.Sound)
    (hr : root ∈ c.resources) :
    .demand d ∈ plan c root requests ↔ Asks c root requests d := by
  constructor
  · intro h
    rcases mem_plan_cases hSound hr h with
      ⟨d', hSame, hAsks⟩ | ⟨_, _, hSame, _⟩ | ⟨_, hSame, _⟩
    · cases hSame
      exact hAsks
    · cases hSame
    · cases hSame
  · intro h
    cases h with
    | own hName hField hText =>
        refine List.mem_flatMap.mpr ⟨_, hName, ?_⟩
        exact mem_fieldSteps_iff.mpr
          ⟨_, hText, .inl ⟨_, hField, rfl⟩⟩
    | nested hLabel hLeads hValue hName hField hText =>
        refine mem_plan_of_nested hSound hr hLabel hLeads hValue
          hName ?_
        exact mem_labelledSteps_iff.mpr
          ⟨_, hText, .inl ⟨_, hField, rfl⟩⟩

/- A plan has a refusal if something cannot be filtered by. -/
theorem exists_refuse_of_refuses
    (hSound : c.Sound)
    (hr : root ∈ c.resources)
    (h : Refuses c root requests) :
    ∃ e, .refuse e ∈ plan c root requests := by
  cases h with
  | @notRelation name hName hRequested hColumn hRelation =>
      rcases Option.isSome_iff_exists.mp hRequested with
        ⟨text, hText⟩
      refine ⟨.filterNotRelation name,
        List.mem_flatMap.mpr ⟨name, hName, ?_⟩⟩
      refine mem_fieldSteps_iff.mpr
        ⟨text, hText, .inr ⟨hColumn, ?_⟩⟩
      simp [relationSteps, hRelation]
  | tooDeep hLabel hLeads hValue hName hRequested hColumn =>
      rcases Option.isSome_iff_exists.mp hRequested with
        ⟨text, hText⟩
      refine ⟨.filterTooDeep, ?_⟩
      refine mem_plan_of_nested hSound hr hLabel hLeads hValue
        hName ?_
      exact mem_labelledSteps_iff.mpr
        ⟨text, hText, .inr ⟨hColumn, rfl⟩⟩

------------------------------------------------------------
-- The order of a plan
------------------------------------------------------------

/- Two steps are in order if their demands are. -/
def Ordered
    (c : Catalog)
    (root : Resource)
    (first later : Step) : Prop :=
  ∀ d ∈ first.demand?, ∀ d' ∈ later.demand?, Precedes c root d d'

/- A step without a demand may stand anywhere. -/
theorem ordered_of_no_demand_right
    {first later : Step}
    (h : later.demand? = none) :
    Ordered c root first later := by
  intro d _ d' hd'
  rw [h] at hd'
  cases hd'

/- What can be filtered by is in the order of declaration. -/
theorem pairwise_filterable
    {r : Resource}
    (h : r.filterable.Sublist r.types.keys) :
    r.filterable.Pairwise r.DeclaresBefore :=
  List.pairwise_iff_forall_sublist.mpr fun hPair => hPair.trans h

/- Steps of one field known by a label are at most one. -/
theorem pairwise_labelledSteps
    {R : Step → Step → Prop} :
    (labelledSteps related label requests name).Pairwise R := by
  unfold labelledSteps
  split
  · exact .nil
  · split <;> exact List.pairwise_singleton _ _

/- The demand of a field known by a label is under the label. -/
theorem demand_of_mem_labelledSteps
    (h : s ∈ labelledSteps related label requests name)
    (hd : d ∈ s.demand?) :
    d.label = some label ∧ d.name = name := by
  rcases mem_labelledSteps_iff.mp h with
    ⟨text, _, ⟨field, _, rfl⟩ | ⟨_, rfl⟩⟩
  · cases hd
    exact ⟨rfl, rfl⟩
  · cases hd

/- The steps of a label are in the order of the related columns. -/
theorem pairwise_relationSteps
    (hLeads : c.Leads root label related)
    (hOrder : related.filterable.Sublist related.types.keys)
    (value : String) :
    (relationSteps c root label value).Pairwise (Ordered c root) := by
  rw [relationSteps_eq hLeads, List.pairwise_append,
    List.pairwise_flatMap]
  refine ⟨⟨fun _ _ => pairwise_labelledSteps, ?_⟩,
    List.pairwise_singleton _ _, ?_⟩
  · refine (pairwise_filterable hOrder).imp ?_
    intro first later hBefore s hs s' hs' d hd d' hd'
    rcases demand_of_mem_labelledSteps hs hd with ⟨hLabel, rfl⟩
    rcases demand_of_mem_labelledSteps hs' hd' with ⟨hLabel', rfl⟩
    exact .name hLeads hLabel hLabel' hBefore
  · intro s _ s' hs'
    rw [List.mem_singleton] at hs'
    subst hs'
    exact ordered_of_no_demand_right rfl

/- The demand of a field of the root has the field as its place. -/
theorem place_of_mem_fieldSteps
    (hSound : c.Sound)
    (hr : root ∈ c.resources)
    (h : s ∈ fieldSteps c root requests name)
    (hd : d ∈ s.demand?) :
    d.place = name := by
  rcases mem_fieldSteps_iff.mp h with
    ⟨value, _, ⟨field, _, rfl⟩ | ⟨_, hRest⟩⟩
  · cases hd
    rfl
  rcases leads_or_none hSound hr name with
    ⟨related, hLeads⟩ | hRelation
  · rw [relationSteps_eq hLeads, List.mem_append,
      List.mem_singleton, List.mem_flatMap] at hRest
    rcases hRest with ⟨nested, _, hRest⟩ | rfl
    · rw [Demand.place, (demand_of_mem_labelledSteps hRest hd).1]
      rfl
    · cases hd
  · simp only [relationSteps, hRelation, List.mem_singleton] at hRest
    subst hRest
    cases hd

/- The steps of a field of the root are in order. -/
theorem pairwise_fieldSteps
    (hResolved : c.Resolved)
    (hr : root ∈ c.resources) :
    (fieldSteps c root requests name).Pairwise (Ordered c root) := by
  unfold fieldSteps
  split
  · exact .nil
  · split
    · exact List.pairwise_singleton _ _
    · rcases leads_or_none hResolved.sound hr name with
        ⟨related, hLeads⟩ | hRelation
      · rcases hLeads with ⟨relation, hRelation, hFind⟩
        exact pairwise_relationSteps ⟨relation, hRelation, hFind⟩
          (hResolved.openFilters
            (Catalog.mem_resources_of_find? hFind)).declared _
      · simp only [relationSteps, hRelation]
        exact List.pairwise_singleton _ _

/- The demands of a plan are in the order of declaration. -/
theorem pairwise_plan
    (hResolved : c.Resolved)
    (hr : root ∈ c.resources) :
    ((plan c root requests).filterMap Step.demand?).Pairwise
      (Precedes c root) := by
  have hPlace :
      ∀ {name s d}, s ∈ fieldSteps c root requests name →
        d ∈ s.demand? → d.place = name :=
    place_of_mem_fieldSteps hResolved.sound hr
  rw [List.pairwise_filterMap, plan, List.pairwise_flatMap]
  refine ⟨fun _ _ => pairwise_fieldSteps hResolved hr, ?_⟩
  refine (pairwise_filterable
    (hResolved.openFilters hr).declared).imp ?_
  intro first later hBefore s hs s' hs' d hd d' hd'
  refine .place ?_
  rw [hPlace hs hd, hPlace hs' hd']
  exact hBefore

------------------------------------------------------------
-- Requests with one plan
------------------------------------------------------------

/- Requests that agree on the columns of a label plan the same. -/
theorem labelledSteps_eq_of_agree
    (h : ColumnsAgree (fun _ => Eq) related requests requests')
    (hName : name ∈ related.filterable) :
    labelledSteps related label requests name =
      labelledSteps related label requests' name := by
  unfold labelledSteps
  rcases h.cases hName with ⟨hs, hs'⟩ | ⟨text, text', hs, hs'⟩
  · rw [hs, hs']
  · rw [hs, hs']
    cases hField : Fields.get? related.owns name with
    | none => rfl
    | some field =>
        rw [h.texts name hName field text text' hField hs hs']

/- Requests that agree on what can be filtered by plan the same. -/
theorem plan_eq_of_agree
    (hSound : c.Sound)
    (hr : root ∈ c.resources)
    (h : Agree (fun _ => Eq) c root requests requests') :
    plan c root requests = plan c root requests' := by
  refine List.flatMap_congr fun name hName => ?_
  unfold fieldSteps
  rcases h.cases hName with ⟨hs, hs'⟩ | ⟨value, value', hs, hs'⟩
  · rw [hs, hs']
  · rw [hs, hs']
    cases hField : Fields.get? root.owns name with
    | some field =>
        rw [h.texts name hName field value value' hField hs hs']
    | none =>
        rcases leads_or_none hSound hr name with
          ⟨related, hLeads⟩ | hRelation
        · dsimp only
          rw [relationSteps_eq hLeads, relationSteps_eq hLeads]
          rcases hLeads with ⟨relation, hRelation, hFind⟩
          have hRelated : c.related relation = .ok related :=
            Catalog.related_of_find? hFind
          have hNested :=
            h.nested name hName relation related value value'
              hField hRelation hRelated hs hs'
          rw [List.flatMap_congr fun nested hNestedName =>
            labelledSteps_eq_of_agree hNested hNestedName]
        · simp only [relationSteps, hRelation]

------------------------------------------------------------
-- Confined filters
------------------------------------------------------------

/-
  Filters by a request are confined to the fields that can be
  filtered by, which are those that do not say otherwise where
  they are declared.  What is asked of these comes in the order of
  declaration, and the first demands of it become the
  conditions that are added to a query: all of them if nothing
  stops the filters, and otherwise those before the one that is
  refused, always as an invalid argument.  A request with the
  same texts for these fields does the same to every query, and
  a relation of a relation is refused whatever else is asked.
-/
structure Confined
    (c : Catalog)
    (root : Resource)
    (requests : Fields String) : Prop where
  listed : root.OpenFilters
  listedBelow :
    ∀ label related, c.Leads root label related →
      related.OpenFilters
  conditions :
    ∃ demands : List Demand,
      (∀ d, d ∈ demands ↔ Asks c root requests d) ∧
        demands.Pairwise (Precedes c root) ∧
        ∀ q, ∃ met left found,
          demands = met ++ left ∧
            (apply c root requests q).query.conditions =
              q.conditions ++ found ∧
            List.Forall₂ (Demand.Becomes root) met found ∧
            ((apply c root requests q).error? = none → left = [])
  succeeds :
    ∀ q, (apply c root requests q).error? = none ↔
      (∀ d, Asks c root requests d →
        ∃ condition, d.Becomes root condition) ∧
      ¬ Refuses c root requests
  refused :
    ∀ q e, (apply c root requests q).error? = some e →
      e.errorClass = .invalidArgument
  independent :
    ∀ requests', Agree (fun _ => Eq) c root requests requests' →
      ∀ q, apply c root requests q = apply c root requests' q
  tooDeep :
    ∀ label ∈ root.filterable, ∀ related value,
      c.Leads root label related →
        Fields.get? requests label = some value →
          ∀ name ∈ related.filterable,
            name ∈ related.relations.keys →
              Fields.contains (subrequests value) name = true →
                ∀ q, ∃ e,
                  (apply c root requests q).error? = some e ∧
                    e.errorClass = .invalidArgument

/- Every step passes if all demands do and nothing is refused. -/
theorem all_pass_iff
    (hSound : c.Sound)
    (hr : root ∈ c.resources) :
    (∀ s ∈ plan c root requests, s.Passes root) ↔
      (∀ d, Asks c root requests d →
        ∃ condition, d.Becomes root condition) ∧
      ¬ Refuses c root requests := by
  constructor
  · intro h
    refine ⟨?_, ?_⟩
    · intro d hAsks
      exact h _ ((mem_plan_iff_asks hSound hr).mpr hAsks)
    · intro hRefuses
      rcases exists_refuse_of_refuses hSound hr hRefuses with
        ⟨e, hMem⟩
      exact h _ hMem
  · rintro ⟨hAsked, hNone⟩ s hs
    rcases mem_plan_cases hSound hr hs with
      ⟨d, rfl, hAsks⟩ | ⟨_, _, rfl, _⟩ | ⟨_, _, _, hRefuses⟩
    · exact hAsked d hAsks
    · trivial
    · exact absurd hRefuses hNone

/- Filtering runs the plan of a request. -/
theorem exists_ran_apply
    (hSound : c.Sound)
    (hr : root ∈ c.resources)
    (requests : Fields String)
    (q : Sql.Query) :
    ∃ met left found,
      Ran root (plan c root requests) q (apply c root requests q) met
        left found := by
  rw [apply_eq_each]
  exact exists_ran (fun s hs => sound_of_mem_plan hSound hr hs) q

/- What stops filtering is an invalid argument. -/
theorem errorClass_of_apply
    {q : Sql.Query}
    {e : RequestError}
    (hSound : c.Sound)
    (hr : root ∈ c.resources)
    (h : (apply c root requests q).error? = some e) :
    e.errorClass = .invalidArgument := by
  rcases exists_ran_apply hSound hr requests q with
    ⟨_, _, _, hRan⟩
  exact hRan.refused e h

/- Nothing stops filtering exactly if nothing asked is at fault. -/
theorem error?_apply_eq_none_iff
    {q : Sql.Query}
    (hSound : c.Sound)
    (hr : root ∈ c.resources) :
    (apply c root requests q).error? = none ↔
      (∀ d, Asks c root requests d →
        ∃ condition, d.Becomes root condition) ∧
      ¬ Refuses c root requests := by
  rcases exists_ran_apply hSound hr requests q with
    ⟨_, _, _, hRan⟩
  rw [hRan.passes]
  exact all_pass_iff hSound hr

/- A relation of a relation that is requested stops filtering. -/
theorem exists_error_of_tooDeep
    (hSound : c.Sound)
    (hr : root ∈ c.resources)
    (hLabel : label ∈ root.filterable)
    (hLeads : c.Leads root label related)
    (hValue : Fields.get? requests label = some value)
    (hName : name ∈ related.filterable)
    (hRelation : name ∈ related.relations.keys)
    (hRequested :
      Fields.contains (subrequests value) name = true)
    (q : Sql.Query) :
    ∃ e, (apply c root requests q).error? = some e ∧
      e.errorClass = .invalidArgument := by
  have hRelated : related ∈ c.resources := by
    rcases hLeads with ⟨relation, _, hFind⟩
    exact Catalog.mem_resources_of_find? hFind
  have hColumn : Fields.get? related.owns name = none :=
    (hSound.resources related hRelated).get?_owns_of_label hRelation
  have hRefuses : Refuses c root requests :=
    .tooDeep hLabel hLeads hValue hName hRequested hColumn
  cases hError : (apply c root requests q).error? with
  | some e => exact ⟨e, rfl, errorClass_of_apply hSound hr hError⟩
  | none =>
      have hNone := (error?_apply_eq_none_iff hSound hr).mp hError
      exact absurd hRefuses hNone.2

end Filter

/-
  In a resolved catalog the filters of every request for any
  resource are confined to what can be filtered by.
-/
theorem Catalog.Resolved.filters_confined
    {c : Catalog}
    {root : Resource}
    (hResolved : c.Resolved)
    (hr : root ∈ c.resources)
    (requests : Fields String) :
    Filter.Confined c root requests := by
  have hSound := hResolved.sound
  refine
    { listed := hResolved.openFilters hr
      listedBelow := ?_
      conditions :=
        ⟨(Filter.plan c root requests).filterMap Filter.Step.demand?,
          ?_, Filter.pairwise_plan hResolved hr, ?_⟩
      succeeds := fun _ => Filter.error?_apply_eq_none_iff hSound hr
      refused := fun _ _ => Filter.errorClass_of_apply hSound hr
      independent := ?_
      tooDeep := ?_ }
  · rintro label related ⟨relation, _, hFind⟩
    exact hResolved.openFilters (mem_resources_of_find? hFind)
  · intro d
    rw [← Filter.mem_plan_iff_asks hSound hr, List.mem_filterMap]
    simp only [Filter.Step.demand?_eq_some_iff, exists_eq_right]
  · intro q
    rcases Filter.exists_ran_apply hSound hr requests q with
      ⟨met, left, found, h⟩
    exact
      ⟨met, left, found, h.demands, h.conditions, h.becomes,
        h.finished⟩
  · intro requests' hAgree q
    rw [Filter.apply_eq_each, Filter.apply_eq_each,
      Filter.plan_eq_of_agree hSound hr hAgree]
  · intro label hLabel related value hLeads hValue name hName
      hRelation hRequested q
    exact Filter.exists_error_of_tooDeep hSound hr hLabel hLeads
      hValue hName hRelation hRequested q

/- The title of an idea, and under its creator a relation. -/
def Filter.deepRequests : Fields String :=
  [("creator", "entries=5,name=x"), ("title", "~a"), ("owner", "1")]

/-
  The relation of a relation is refused, after the filters that
  are declared before it.
-/
theorem Catalog.Resolved.filters_confined_sample :
    Catalog.sample.Resolved ∧
      Resource.sample ∈ Catalog.sample.resources ∧
      ∀ q,
        (∃ e,
          (Filter.apply .sample .sample Filter.deepRequests q).error? =
              some e ∧
            e.errorClass = .invalidArgument) ∧
          (Filter.apply .sample .sample Filter.deepRequests
              q).query.conditions =
            q.conditions ++
              [.compare ⟨"idea", "title"⟩ .like (.string "%a%"),
                .compare ⟨"creator", "name"⟩ .like (.string "x")] := by
  refine ⟨sample_resolved, mem_sample, fun q => ⟨?_, ?_⟩⟩
  · have hConfined :=
      filters_confined sample_resolved mem_sample Filter.deepRequests
    exact hConfined.tooDeep "creator" (by decide) _ _ ⟨_, rfl, rfl⟩
      rfl "entries" (by decide) (by decide) (by decide) q
  · exact List.append_assoc q.conditions [_] [_]

end RelationalRest
