import RelationalRest.Listing.Filter

/-
  Two listings built side by side.  A relation between their
  queries that survives each pair of steps holds between the
  queries that they finish with, if neither is stopped.

  Filters are the steps of which two listings may take
  different ones: their texts are related as the two requests
  relate them, for the columns of the root and, one level
  deep, for those of its relations.

  Key definitions include:
    * `Building.Parallel`
    * `Filter.ColumnsAgree`
    * `Filter.Agree`
    * `Filter.Congruent`

  Main declarations:
    * `Building.Parallel.andThen`
    * `Building.parallel_each`
    * `Filter.parallel_apply`
-/

namespace RelationalRest

------------------------------------------------------------
-- Pairs of steps
------------------------------------------------------------

namespace Building

variable {R S : Sql.Query → Sql.Query → Prop}

/- The queries of two steps are related, if nothing stopped them. -/
def Parallel
    (R : Sql.Query → Sql.Query → Prop)
    (b b' : Building) : Prop :=
  b.error? = none → b'.error? = none → R b.query b'.query

/- Two steps that nothing stops. -/
theorem parallel_ok
    {q q' : Sql.Query}
    (h : R q q') :
    Parallel R (ok q) (ok q') :=
  fun _ _ => h

/- A first step that is stopped. -/
theorem parallel_stop_left
    (q : Sql.Query)
    (e : RequestError)
    (b : Building) :
    Parallel R (stop q e) b := by
  intro hNone
  cases hNone

/- A second step that is stopped. -/
theorem parallel_stop_right
    (b : Building)
    (q : Sql.Query)
    (e : RequestError) :
    Parallel R b (stop q e) := by
  intro _ hNone
  cases hNone

/- A pair of steps after a pair of steps. -/
theorem Parallel.andThen
    {b b' : Building}
    {step step' : Sql.Query → Building}
    (h : Parallel R b b')
    (hStep : ∀ q q', R q q' → Parallel S (step q) (step' q')) :
    Parallel S (b.andThen step) (b'.andThen step') := by
  obtain ⟨q, error?⟩ := b
  obtain ⟨q', error?'⟩ := b'
  cases error? with
  | some e => exact parallel_stop_left q e _
  | none =>
      cases error?' with
      | some e => exact parallel_stop_right _ q' e
      | none => exact hStep q q' (h rfl rfl)

/- A step after the first of two, which keeps them related. -/
theorem Parallel.andThen_left
    {b b' : Building}
    {step : Sql.Query → Building}
    (h : Parallel R b b')
    (hStep : ∀ q q', R q q' → R (step q).query q') :
    Parallel R (b.andThen step) b' := by
  obtain ⟨q, error?⟩ := b
  cases error? with
  | some e => exact parallel_stop_left q e _
  | none => exact fun _ hSecond => hStep q _ (h rfl hSecond)

/- Pairs of steps, one for each item. -/
theorem parallel_each
    {α : Type}
    {step step' : α → Sql.Query → Building}
    {items : List α}
    (hStep :
      ∀ a ∈ items, ∀ q q', R q q' →
        Parallel R (step a q) (step' a q'))
    {q q' : Sql.Query}
    (h : R q q') :
    Parallel R (each step items q) (each step' items q') := by
  induction items generalizing q q' with
  | nil => exact parallel_ok h
  | cons a items ih =>
      have hHead := hStep a List.mem_cons_self q q' h
      have hRest :
          ∀ b ∈ items, ∀ q q', R q q' →
            Parallel R (step b q) (step' b q') :=
        fun b hb => hStep b (List.mem_cons_of_mem a hb)
      exact hHead.andThen fun _ _ hNext => ih hRest hNext

/- The finished queries of two listings are related. -/
theorem Parallel.of_result
    {b b' : Building}
    (h : Parallel R b b')
    {q q' : Sql.Query}
    (hq : b.result = .ok q)
    (hq' : b'.result = .ok q') :
    R q q' := by
  rw [result_eq_ok_iff] at hq hq'
  subst hq hq'
  exact h rfl rfl

end Building

------------------------------------------------------------
-- Filters of two requests
------------------------------------------------------------

namespace Filter

/-
  Two requests name the same columns of a resource to filter
  by, with texts that are related for the kind of the column.
-/
structure ColumnsAgree
    (A : Kind → String → String → Prop)
    (r : Resource)
    (requests requests' : Fields String) : Prop where
  names :
    ∀ name ∈ r.filterable,
      Fields.contains requests name =
        Fields.contains requests' name
  texts :
    ∀ name ∈ r.filterable, ∀ field s s',
      Fields.get? r.owns name = some field →
        Fields.get? requests name = some s →
          Fields.get? requests' name = some s' →
            A field.type.kind s s'

/-
  Two requests agree on the filters of a root: on those of its
  columns, and on those that the values of its relations hold.
-/
structure Agree
    (A : Kind → String → String → Prop)
    (c : Catalog)
    (root : Resource)
    (requests requests' : Fields String) : Prop
    extends ColumnsAgree A root requests requests' where
  nested :
    ∀ name ∈ root.filterable, ∀ relation related s s',
      Fields.get? root.owns name = none →
        Fields.get? root.belongsTo name = some relation →
          c.related relation = .ok related →
            Fields.get? requests name = some s →
              Fields.get? requests' name = some s' →
                ColumnsAgree A related (subrequests s)
                  (subrequests s')

/-
  A relation between queries survives conditions of related
  texts, and the join of a relation to both.
-/
structure Congruent
    (A : Kind → String → String → Prop)
    (R : Sql.Query → Sql.Query → Prop) : Prop where
  addCondition :
    ∀ {kind column s s' condition condition' q q'},
      A kind s s' →
        kind.condition column s = .ok condition →
          kind.condition column s' = .ok condition' →
            R q q' →
              R (q.addCondition condition)
                (q'.addCondition condition')
  join :
    ∀ {root label related q q'},
      R q q' →
        Building.Parallel R (Listing.join root label related q)
          (Listing.join root label related q')

variable {A : Kind → String → String → Prop}
variable {R : Sql.Query → Sql.Query → Prop}
variable {c : Catalog}
variable {root related : Resource}
variable {requests requests' : Fields String}
variable {q q' : Sql.Query}

/- A request agrees with itself. -/
theorem Agree.refl
    (hA : ∀ kind s, A kind s s)
    (c : Catalog)
    (root : Resource)
    (requests : Fields String) :
    Agree A c root requests requests := by
  have hColumns :
      ∀ (r : Resource) (requests : Fields String),
        ColumnsAgree A r requests requests := by
    intro r requests
    refine ⟨fun _ _ => rfl, ?_⟩
    intro name _ field s s' _ hs hs'
    rw [hs] at hs'
    cases hs'
    exact hA field.type.kind s
  refine ⟨hColumns root requests, ?_⟩
  intro name _ relation related s s' _ _ _ hs hs'
  rw [hs] at hs'
  cases hs'
  exact hColumns related (subrequests s)

/- A name is requested by both requests or by neither. -/
theorem ColumnsAgree.cases
    {name : String}
    (h : ColumnsAgree A root requests requests')
    (hName : name ∈ root.filterable) :
    (Fields.get? requests name = none ∧
        Fields.get? requests' name = none) ∨
      ∃ s s', Fields.get? requests name = some s ∧
        Fields.get? requests' name = some s' := by
  have hSame := h.names name hName
  unfold Fields.contains at hSame
  cases hs : Fields.get? requests name with
  | none =>
      cases hs' : Fields.get? requests' name with
      | none => exact .inl ⟨rfl, rfl⟩
      | some s' => simp [hs, hs'] at hSame
  | some s =>
      cases hs' : Fields.get? requests' name with
      | none => simp [hs, hs'] at hSame
      | some s' => exact .inr ⟨s, s', rfl, rfl⟩

/- Two filters of a column by related texts. -/
theorem parallel_applyColumn
    (hR : Congruent A R)
    (field : OwnedField)
    (column : Sql.Column)
    {s s' : String}
    (hTexts : A field.type.kind s s')
    (h : R q q') :
    Building.Parallel R (applyColumn field column s q)
      (applyColumn field column s' q') := by
  unfold applyColumn
  cases hFirst : field.type.kind.condition column s with
  | error e => exact Building.parallel_stop_left q e _
  | ok condition =>
      cases hSecond : field.type.kind.condition column s' with
      | error e => exact Building.parallel_stop_right _ q' e
      | ok condition' =>
          exact Building.parallel_ok
            (hR.addCondition hTexts hFirst hSecond h)

/- Filters of a resource known by a label. -/
theorem parallel_applyLabelled
    (hR : Congruent A R)
    (label : String)
    (hAgree : ColumnsAgree A related requests requests')
    (h : R q q') :
    Building.Parallel R (applyLabelled related label requests q)
      (applyLabelled related label requests' q') := by
  refine Building.parallel_each ?_ h
  intro name hName q q' hq
  unfold applyLabelledField
  rcases hAgree.cases hName with
    ⟨hs, hs'⟩ | ⟨s, s', hs, hs'⟩
  · simp only [hs, hs']
    exact Building.parallel_ok hq
  · simp only [hs, hs']
    cases hField : Fields.get? related.owns name with
    | none => exact Building.parallel_stop_left q _ _
    | some field =>
        exact parallel_applyColumn hR field _
          (hAgree.texts name hName field s s' hField hs hs') hq

/- Filters of a relation, and its join. -/
theorem parallel_applyRelation
    (hR : Congruent A R)
    {name s s' : String}
    (hAgree :
      ∀ relation related,
        Fields.get? root.belongsTo name = some relation →
          c.related relation = .ok related →
            ColumnsAgree A related (subrequests s)
              (subrequests s'))
    (h : R q q') :
    Building.Parallel R (applyRelation c root name s q)
      (applyRelation c root name s' q') := by
  unfold applyRelation
  cases hRelation : Fields.get? root.belongsTo name with
  | none => exact Building.parallel_stop_left q _ _
  | some relation =>
      cases hRelated : c.related relation with
      | error e =>
          simp only [hRelated]
          exact Building.parallel_stop_left q e _
      | ok related =>
          simp only [hRelated]
          have hFilters :=
            parallel_applyLabelled hR name
              (hAgree relation related hRelation hRelated) h
          exact hFilters.andThen fun _ _ hq => hR.join hq

/- Filters of two requests that agree. -/
theorem parallel_apply
    (hR : Congruent A R)
    (hAgree : Agree A c root requests requests')
    (h : R q q') :
    Building.Parallel R (apply c root requests q)
      (apply c root requests' q') := by
  refine Building.parallel_each ?_ h
  intro name hName q q' hq
  unfold applyField
  rcases hAgree.cases hName with
    ⟨hs, hs'⟩ | ⟨s, s', hs, hs'⟩
  · simp only [hs, hs']
    exact Building.parallel_ok hq
  · simp only [hs, hs']
    cases hField : Fields.get? root.owns name with
    | none =>
        refine parallel_applyRelation hR ?_ hq
        intro relation related hRelation hRelated
        exact hAgree.nested name hName relation related s s'
          hField hRelation hRelated hs hs'
    | some field =>
        exact parallel_applyColumn hR field _
          (hAgree.texts name hName field s s' hField hs hs') hq

end Filter

end RelationalRest
