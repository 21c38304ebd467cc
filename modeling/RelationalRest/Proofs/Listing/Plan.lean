import RelationalRest.Proofs.Listing.ColumnFilter
import RelationalRest.Proofs.Listing.Covering
import RelationalRest.Proofs.Listing.Steps
import RelationalRest.Proofs.Text.Split

/-
  The filters of a request as a plan.  What a request asks of a
  resource is laid out before any query is built, as a list of
  steps: demands on columns, relations to follow, and refusals.
  Filtering takes the steps in order until one is refused, so
  what it does to a query is read off the list.

  Key definitions include:
    * `Filter.Demand`
    * `Filter.Demand.Becomes`
    * `Filter.Step`
    * `Filter.plan`
    * `Filter.Ran`

  Main declarations:
    * `Filter.apply_eq_each`
    * `Filter.Step.run_cases`
    * `Filter.exists_ran`
-/

namespace RelationalRest

namespace Filter

------------------------------------------------------------
-- Demands
------------------------------------------------------------

/-
  What is asked of one column: a text of the kind of the
  column, which is one of the root unless a label is given.
-/
structure Demand where
  label : Option String
  name : String
  kind : Kind
  text : String

namespace Demand

variable {root : Resource}
variable {d : Demand}
variable {condition : Sql.Condition}

/- The column of a demand. -/
def column
    (root : Resource)
    (d : Demand) : Sql.Column where
  qualifier := d.label.getD root.table.name
  name := d.name

/- The field of the root that a demand is found under. -/
def place (d : Demand) : String :=
  d.label.getD d.name

/-
  A demand becomes a condition: the one its text is read as,
  which compares its column with one value at least.
-/
structure Becomes
    (root : Resource)
    (d : Demand)
    (condition : Sql.Condition) : Prop where
  read : d.kind.condition (d.column root) d.text = .ok condition
  compares :
    ∃ op values, values ≠ [] ∧
      Sql.Condition.Compares (d.column root) op values condition

/- A demand becomes a condition, or its text is at fault. -/
theorem becomes_or_refused
    (root : Resource)
    (d : Demand) :
    (∃ condition, d.Becomes root condition) ∨
      ∃ e, d.kind.condition (d.column root) d.text = .error e ∧
        e.errorClass = .invalidArgument := by
  by_cases hAccepted :
      ∀ part ∈ Text.split ',' (d.kind.resolve d.text).2,
        d.kind.acceptsText part = true
  · rcases Kind.exists_condition hAccepted (d.column root) with
      ⟨values, condition, hRead, hOperands, hCompares⟩
    refine .inl ⟨condition, hRead, _, values, ?_, hCompares⟩
    rintro rfl
    exact
      Text.split_ne_nil _ _ (List.forall₂_nil_right_iff.mp hOperands)
  · have hRefused :
        ∃ part ∈ Text.split ',' (d.kind.resolve d.text).2,
          d.kind.acceptsText part = false := by
      simpa using hAccepted
    exact .inr
      ⟨_, Kind.condition_of_refused hRefused (d.column root), rfl⟩

end Demand

------------------------------------------------------------
-- Steps
------------------------------------------------------------

/- A step of a plan. -/
inductive Step where
| demand (d : Demand)
| follow (label : String) (related : Resource)
| refuse (e : RequestError)

namespace Step

/- Take a step. -/
def run (root : Resource) : Step → Sql.Query → Building
| .demand d, q =>
    match d.kind.condition (d.column root) d.text with
    | .ok c => .ok (q.addCondition c)
    | .error e => .stop q e
| .follow label related, q => Listing.join root label related q
| .refuse e, q => .stop q e

/- The demand that a step is. -/
def demand? : Step → Option Demand
| .demand d => some d
| _ => none

/- The step that is a demand. -/
theorem demand?_eq_some_iff
    {s : Step}
    {d : Demand} :
    s.demand? = some d ↔ s = .demand d := by
  cases s <;> simp [demand?]

/- Nothing stops a step. -/
def Passes (root : Resource) : Step → Prop
| .demand d => ∃ condition, d.Becomes root condition
| .follow _ _ => True
| .refuse _ => False

/-
  A step over a sound catalog: relations can be followed, and
  only faults of the request are refused.
-/
def Sound (root : Resource) : Step → Prop
| .demand _ => True
| .follow label related =>
    ∃ relation key,
      Fields.get? root.belongsTo label = some relation ∧
        related.primaryKey = some key
| .refuse e => e.errorClass = .invalidArgument

variable {root : Resource}

/-
  What one step does: if it passes, a demand adds its condition
  and other steps add none; and if not, the query is as before
  and the request is at fault.
-/
theorem run_cases
    {s : Step}
    (h : s.Sound root)
    (q : Sql.Query) :
    (∃ q' found,
        s.run root q = .ok q' ∧ s.Passes root ∧
          q'.conditions = q.conditions ++ found ∧
          List.Forall₂ (Demand.Becomes root) s.demand?.toList
            found) ∨
      ∃ e, s.run root q = .stop q e ∧ ¬ s.Passes root ∧
        e.errorClass = .invalidArgument := by
  cases s with
  | demand d =>
      rcases d.becomes_or_refused root with
        ⟨condition, hBecomes⟩ | ⟨e, hRefused, hClass⟩
      · refine .inl
          ⟨q.addCondition condition, [condition], ?_,
            ⟨condition, hBecomes⟩, rfl, .cons hBecomes .nil⟩
        simp only [run, hBecomes.read]
      · refine .inr ⟨e, by simp only [run, hRefused], ?_, hClass⟩
        rintro ⟨condition, hBecomes⟩
        rw [hBecomes.read] at hRefused
        cases hRefused
  | follow label related =>
      rcases h with ⟨relation, key, hRelation, hKey⟩
      refine .inl
        ⟨_, [], Listing.join_eq hRelation hKey q, trivial, ?_, .nil⟩
      rw [List.append_nil, (Sql.Query.Covers.leftJoin q _).conditions]
  | refuse e => exact .inr ⟨e, rfl, id, h⟩

end Step

/-
  What a run of steps does to a query: the demands that it
  meets before it stops become conditions of the query, in
  order, and it stops exactly if a step does not pass.
-/
structure Ran
    (root : Resource)
    (steps : List Step)
    (q : Sql.Query)
    (b : Building)
    (met left : List Demand)
    (found : List Sql.Condition) : Prop where
  demands : steps.filterMap Step.demand? = met ++ left
  conditions : b.query.conditions = q.conditions ++ found
  becomes : List.Forall₂ (Demand.Becomes root) met found
  finished : b.error? = none → left = []
  passes : b.error? = none ↔ ∀ s ∈ steps, s.Passes root
  refused :
    ∀ e, b.error? = some e → e.errorClass = .invalidArgument

section Runs

variable {root : Resource}
variable {s : Step}
variable {steps : List Step}
variable {q q' : Sql.Query}
variable {b : Building}
variable {met left : List Demand}
variable {found later : List Sql.Condition}

/- The demands of a step and of more steps. -/
theorem demands_cons
    (s : Step)
    (steps : List Step) :
    (s :: steps).filterMap Step.demand? =
      s.demand?.toList ++ steps.filterMap Step.demand? := by
  cases s <;> rfl

/- Without steps, nothing is done. -/
theorem ran_nil (q : Sql.Query) :
    Ran root [] q (.ok q) [] [] [] where
  demands := rfl
  conditions := (List.append_nil _).symm
  becomes := .nil
  finished := fun _ => rfl
  passes := by simp [Building.ok]
  refused := fun _ hError => by cases hError

/- A step that passes, and then a run of more steps. -/
theorem Ran.cons
    (hPasses : s.Passes root)
    (hFound : q'.conditions = q.conditions ++ found)
    (hBecomes :
      List.Forall₂ (Demand.Becomes root) s.demand?.toList found)
    (h : Ran root steps q' b met left later) :
    Ran root (s :: steps) q b (s.demand?.toList ++ met) left
      (found ++ later) where
  demands := by
    rw [demands_cons, h.demands, List.append_assoc]
  conditions := by
    rw [h.conditions, hFound, List.append_assoc]
  becomes := List.rel_append hBecomes h.becomes
  finished := h.finished
  passes := by
    rw [h.passes, List.forall_mem_cons]
    exact (and_iff_right hPasses).symm
  refused := h.refused

/- A step that does not pass ends a run. -/
theorem ran_stop
    {e : RequestError}
    (hStuck : ¬ s.Passes root)
    (hClass : e.errorClass = .invalidArgument)
    (steps : List Step)
    (q : Sql.Query) :
    Ran root (s :: steps) q (.stop q e) []
      ((s :: steps).filterMap Step.demand?) [] where
  demands := rfl
  conditions := (List.append_nil _).symm
  becomes := .nil
  finished := fun hNone => by cases hNone
  passes := by
    constructor
    · intro hNone
      cases hNone
    · intro hAll
      exact absurd (hAll s List.mem_cons_self) hStuck
  refused := by
    intro e' hError
    cases hError
    exact hClass

/- Steps over a sound catalog run. -/
theorem exists_ran
    (h : ∀ s ∈ steps, s.Sound root)
    (q : Sql.Query) :
    ∃ met left found,
      Ran root steps q (Building.each (Step.run root) steps q) met
        left found := by
  induction steps generalizing q with
  | nil => exact ⟨[], [], [], ran_nil q⟩
  | cons s steps ih =>
      have hRest : ∀ s ∈ steps, s.Sound root :=
        fun s hs => h s (List.mem_cons_of_mem _ hs)
      rcases s.run_cases (h s List.mem_cons_self) q with
        ⟨q', found, hRun, hPasses, hFound, hBecomes⟩ |
          ⟨e, hRun, hStuck, hClass⟩
      · rcases ih hRest q' with ⟨met, left, later, hLater⟩
        refine ⟨s.demand?.toList ++ met, left, found ++ later, ?_⟩
        rw [Building.each, hRun, Building.ok_andThen]
        exact hLater.cons hPasses hFound hBecomes
      · refine ⟨[], (s :: steps).filterMap Step.demand?, [], ?_⟩
        rw [Building.each, hRun, Building.stop_andThen]
        exact ran_stop hStuck hClass steps q

end Runs

------------------------------------------------------------
-- Plans
------------------------------------------------------------

/- The steps of a field of a resource known by a label. -/
def labelledSteps
    (r : Resource)
    (label : String)
    (requests : Fields String)
    (name : String) : List Step :=
  match Fields.get? requests name with
  | none => []
  | some text =>
      match Fields.get? r.owns name with
      | some field =>
          [.demand ⟨some label, name, field.type.kind, text⟩]
      | none => [.refuse .filterTooDeep]

/- The steps of a relation, which is followed last. -/
def relationSteps
    (c : Catalog)
    (root : Resource)
    (label : String)
    (value : String) : List Step :=
  match Fields.get? root.belongsTo label with
  | none => [.refuse (.filterNotRelation label)]
  | some relation =>
      match c.related relation with
      | .error e => [.refuse e]
      | .ok related =>
          related.filterable.flatMap
              (labelledSteps related label (subrequests value)) ++
            [.follow label related]

/- The steps of a field of the root. -/
def fieldSteps
    (c : Catalog)
    (root : Resource)
    (requests : Fields String)
    (name : String) : List Step :=
  match Fields.get? requests name with
  | none => []
  | some text =>
      match Fields.get? root.owns name with
      | some field => [.demand ⟨none, name, field.type.kind, text⟩]
      | none => relationSteps c root name text

/- The steps of the fields of the root, in order. -/
def plan
    (c : Catalog)
    (root : Resource)
    (requests : Fields String) : List Step :=
  root.filterable.flatMap (fieldSteps c root requests)

variable {c : Catalog}
variable {root : Resource}

/- A single step. -/
@[simp]
theorem each_singleton (s : Step) :
    Building.each (Step.run root) [s] = s.run root := by
  funext q
  exact Building.andThen_ok _

/- The filter of a field known by a label takes its steps. -/
theorem applyLabelledField_eq_each
    (root r : Resource)
    (label : String)
    (requests : Fields String)
    (name : String) :
    applyLabelledField r label requests name =
      Building.each (Step.run root)
        (labelledSteps r label requests name) := by
  funext q
  unfold applyLabelledField labelledSteps
  cases Fields.get? requests name with
  | none => rfl
  | some text =>
      cases Fields.get? r.owns name <;> simp <;> rfl

/- The filter of a relation takes its steps. -/
theorem applyRelation_eq_each
    (c : Catalog)
    (root : Resource)
    (label value : String) :
    applyRelation c root label value =
      Building.each (Step.run root)
        (relationSteps c root label value) := by
  funext q
  unfold applyRelation relationSteps
  cases Fields.get? root.belongsTo label with
  | none => simp [Step.run]
  | some relation =>
      cases hRelated : c.related relation with
      | error e => simp [hRelated, Step.run]
      | ok related =>
          simp only [hRelated]
          rw [Building.each_append, Building.each_flatMap,
            each_singleton, applyLabelled,
            Building.each_congr fun name _ =>
              applyLabelledField_eq_each root related label _ name]
          rfl

/- The filter of a field of the root takes its steps. -/
theorem applyField_eq_each
    (c : Catalog)
    (root : Resource)
    (requests : Fields String)
    (name : String) :
    applyField c root requests name =
      Building.each (Step.run root)
        (fieldSteps c root requests name) := by
  funext q
  unfold applyField fieldSteps
  cases Fields.get? requests name with
  | none => rfl
  | some text =>
      cases Fields.get? root.owns name with
      | none => exact congrFun (applyRelation_eq_each c root name text) q
      | some field =>
          simp only [each_singleton]
          rfl

/- Filtering takes the steps of its plan. -/
theorem apply_eq_each
    (c : Catalog)
    (root : Resource)
    (requests : Fields String) :
    apply c root requests =
      Building.each (Step.run root) (plan c root requests) := by
  funext q
  rw [plan, Building.each_flatMap, apply,
    Building.each_congr fun name _ =>
      applyField_eq_each c root requests name]

end Filter

end RelationalRest
