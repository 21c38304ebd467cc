import RelationalRest.Listing.Filter
import RelationalRest.Listing.Paging
import RelationalRest.Listing.Projection
import RelationalRest.Listing.Sorting
import RelationalRest.Proofs.Catalog.Resolved

/-
  The names that a query under construction may use: its root
  table, the labels that it joins, and for a while the labels
  that are still to be joined.

  A step of a listing meets a condition when the query that
  it leaves satisfies the condition, or the error at which it
  stops is a fault of the request.

  Main declarations:
    * `Sql.Query.mentions`
    * `RequestError.Internal`
    * `RequestError.Refusal`
    * `RequestError.Answers`
    * `Building.Meets`
    * `Scoped`
-/

namespace RelationalRest

------------------------------------------------------------
-- Mentioned columns
------------------------------------------------------------

namespace Sql

mutual

/- The columns that a condition compares. -/
def Condition.columns : Condition → List Column
| .compare column _ _ => [column]
| .anyOf parts => Condition.choiceColumns parts
termination_by structural c => c

/- The columns that the parts of a choice compare. -/
def Condition.choiceColumns : List Condition → List Column
| [] => []
| c :: rest =>
    Condition.columns c ++ Condition.choiceColumns rest
termination_by structural cs => cs

end

/-
  The columns that a query mentions: those it selects, those
  in conditions, those it is ordered by and those it joins
  tables on.
-/
def Query.mentions (q : Query) : List Column :=
  q.columns ++ q.conditions.flatMap Condition.columns ++
    q.ordering.map Prod.fst ++
    q.joins.flatMap fun j => [j.left, j.right]

/- The labels that a query joins. -/
def Query.labels (q : Query) : List String :=
  q.joins.map Join.label

/- The columns of a choice are those of its parts. -/
theorem Condition.mem_choiceColumns_iff
    {parts : List Condition}
    {col : Column} :
    col ∈ choiceColumns parts ↔
      ∃ c ∈ parts, col ∈ c.columns := by
  induction parts with
  | nil => simp [choiceColumns]
  | cons c parts ih => simp [choiceColumns, ih]

namespace Query

variable {q : Query}
variable {col : Column}

/- Selecting a column mentions it. -/
theorem mem_mentions_addColumn
    {new : Column}
    (h : col ∈ (q.addColumn new).mentions) :
    col ∈ q.mentions ∨ col = new := by
  unfold addColumn at h
  by_cases hMem : new ∈ q.columns
  · rw [if_pos hMem] at h
    exact .inl h
  · rw [if_neg hMem] at h
    simp only [mentions, List.mem_append, List.mem_singleton]
      at h ⊢
    tauto

/- Demanding a condition mentions its columns. -/
theorem mem_mentions_addCondition
    {condition : Condition}
    (h : col ∈ (q.addCondition condition).mentions) :
    col ∈ q.mentions ∨ col ∈ condition.columns := by
  simp only [mentions, addCondition, List.flatMap_append,
    List.flatMap_cons, List.flatMap_nil, List.append_nil,
    List.mem_append] at h ⊢
  tauto

/- Ordering by a column mentions it. -/
theorem mem_mentions_orderBy
    {new : Column}
    {d : Direction}
    (h : col ∈ (q.orderBy new d).mentions) :
    col ∈ q.mentions ∨ col = new := by
  simp only [mentions, orderBy, List.map_append, List.map_cons,
    List.map_nil, List.mem_append, List.mem_singleton] at h ⊢
  tauto

/- Joining a table mentions the columns it is joined on. -/
theorem mem_mentions_leftJoin
    {j : Join}
    (h : col ∈ (q.leftJoin j).mentions) :
    col ∈ q.mentions ∨ col = j.left ∨ col = j.right := by
  unfold leftJoin at h
  by_cases hJoined : q.isJoined j.label = true
  · rw [if_pos hJoined] at h
    exact .inl h
  · rw [if_neg hJoined] at h
    simp only [mentions, List.flatMap_append, List.mem_append,
      List.flatMap_cons, List.flatMap_nil, List.append_nil,
      List.mem_cons, List.not_mem_nil, or_false] at h ⊢
    tauto

end Query

end Sql

/- The condition of a filter compares the filtered column alone. -/
theorem Kind.columns_of_condition
    {k : Kind}
    {column : Sql.Column}
    {s : String}
    {condition : Sql.Condition}
    (h : k.condition column s = .ok condition)
    {col : Sql.Column}
    (hCol : col ∈ condition.columns) :
    col = column := by
  unfold Kind.condition at h
  split at h
  next op rest _ =>
    by_cases hAccepts : k.accepts rest = true
    · simp only [hAccepts, if_true, Except.ok.injEq] at h
      subst h
      unfold Kind.choice at hCol
      split at hCol
      · next part hParts =>
          have hMem : part ∈ [part] := by simp
          rw [← hParts] at hMem
          rcases List.mem_map.mp hMem with ⟨text, _, rfl⟩
          simpa [Sql.Condition.columns] using hCol
      · rw [Sql.Condition.columns,
          Sql.Condition.mem_choiceColumns_iff] at hCol
        rcases hCol with ⟨part, hPart, hCol⟩
        rcases List.mem_map.mp hPart with ⟨text, _, rfl⟩
        simpa [Sql.Condition.columns] using hCol
    · simp [hAccepts] at h

------------------------------------------------------------
-- Causes of errors
------------------------------------------------------------

/-
  A cause that lies in the declared resources and not in the
  request: an error of their schema, or a label that is no
  relation to join.
-/
def RequestError.Internal : RequestError → Prop
| .schema _ => True
| .notARelation _ _ => True
| _ => False

/- A cause that lies in the request, its actor or the store. -/
def RequestError.External (e : RequestError) : Prop :=
  ¬ e.Internal

/-
  A class of causes for which a request is refused: it is not
  valid, it lacks a parameter, or its actor may not ask.
-/
def ErrorClass.Refuses : ErrorClass → Prop
| .invalidArgument => True
| .missingParameter => True
| .unauthorized => True
| _ => False

/- A cause that lies in the request or in its actor. -/
structure RequestError.Refusal (e : RequestError) : Prop where
  refuses : e.errorClass.Refuses
  external : e.External

/- A result satisfies a condition, or is a refusal. -/
def RequestError.Answers
    {α : Type}
    (P : α → Prop) : Except RequestError α → Prop
| .ok a => P a
| .error e => e.Refusal

namespace RequestError.Answers

variable {α : Type}
variable {P : α → Prop}
variable {x : Except RequestError α}

/- The error of a result is a refusal. -/
theorem refusal
    {e : RequestError}
    (h : Answers P x)
    (hx : x = .error e) :
    e.Refusal := by
  subst hx
  exact h

/- A condition that follows is satisfied as well. -/
theorem mono
    {Q : α → Prop}
    (h : Answers P x)
    (hImplies : ∀ a, P a → Q a) :
    Answers Q x := by
  cases x with
  | ok a => exact hImplies a h
  | error e => exact h

/- The value of a result satisfies the condition. -/
theorem of_ok
    {a : α}
    (h : Answers P x)
    (hx : x = .ok a) :
    P a := by
  subst hx
  exact h

end RequestError.Answers

/- A filter is refused for a fault of its text. -/
theorem Kind.refusal_of_condition
    {k : Kind}
    {column : Sql.Column}
    {s : String}
    {e : RequestError}
    (h : k.condition column s = .error e) :
    e.Refusal := by
  unfold Kind.condition at h
  split at h
  next op rest _ =>
    by_cases hAccepts : k.accepts rest = true
    · simp [hAccepts] at h
    · simp only [hAccepts, Bool.false_eq_true, if_false,
        Except.error.injEq] at h
      subst h
      exact ⟨trivial, id⟩

------------------------------------------------------------
-- Steps
------------------------------------------------------------

namespace Building

/-
  A step meets a condition: if nothing stopped it, the query
  satisfies the condition, and if an error did, that is a
  refusal.
-/
structure Meets
    (P : Sql.Query → Prop)
    (b : Building) : Prop where
  query : b.error? = none → P b.query
  error : ∀ e, b.error? = some e → e.Refusal

variable {P Q : Sql.Query → Prop}

/- A step that nothing stops. -/
theorem meets_ok
    {q : Sql.Query}
    (h : P q) :
    (ok q).Meets P where
  query := fun _ => h
  error := by
    intro e he
    cases he

/- A step that a refusal stops. -/
theorem meets_stop
    (q : Sql.Query)
    {e : RequestError}
    (h : e.Refusal) :
    (stop q e).Meets P where
  query := by
    intro he
    cases he
  error := by
    intro e' he
    cases he
    exact h

/- A condition that follows from what is met is met. -/
theorem Meets.mono
    {b : Building}
    (h : b.Meets P)
    (hImplies : ∀ q, P q → Q q) :
    b.Meets Q where
  query := fun he => hImplies _ (h.query he)
  error := h.error

/- A step after a step. -/
theorem Meets.andThen
    {b : Building}
    {step : Sql.Query → Building}
    (h : b.Meets P)
    (hStep : ∀ q, P q → (step q).Meets Q) :
    (b.andThen step).Meets Q := by
  obtain ⟨query, error?⟩ := b
  cases error? with
  | none => exact hStep query (h.query rfl)
  | some e => exact meets_stop query (h.error e rfl)

/- The steps of items, each of which keeps a condition. -/
theorem meets_each
    {α : Type}
    {step : α → Sql.Query → Building}
    {items : List α}
    (hStep : ∀ a ∈ items, ∀ q, P q → (step a q).Meets P)
    {q : Sql.Query}
    (h : P q) :
    (each step items q).Meets P := by
  induction items generalizing q with
  | nil => exact meets_ok h
  | cons a items ih =>
      have hHead := hStep a List.mem_cons_self q h
      have hRest :
          ∀ b ∈ items, ∀ q, P q → (step b q).Meets P :=
        fun b hb => hStep b (List.mem_cons_of_mem a hb)
      exact hHead.andThen fun q hq => ih hRest hq

/- The result of a step that meets a condition. -/
theorem Meets.answers
    {b : Building}
    (h : b.Meets P) :
    RequestError.Answers P b.result := by
  obtain ⟨query, error?⟩ := b
  cases error? with
  | none => exact h.query rfl
  | some e => exact h.error e rfl

end Building

------------------------------------------------------------
-- Scope
------------------------------------------------------------

/- A join follows a relation of the root to one record. -/
def Follows
    (c : Catalog)
    (root : Resource)
    (j : Sql.Join) : Prop :=
  ∃ relation related key,
    Fields.get? root.belongsTo j.label = some relation ∧
      c.find? relation.resource = some related ∧
      related.primaryKey = some key ∧
      j = root.joinOf j.label relation related key

/-
  A name may qualify columns: it is the table of the root, a
  label that is joined, or a label still to be joined.
-/
def InScope
    (root : Resource)
    (pending : List String)
    (q : Sql.Query)
    (name : String) : Prop :=
  name = root.table.name ∨ name ∈ q.labels ∨ name ∈ pending

/-
  A query on the table of the root joins relations of the
  root, each once, and mentions columns in scope.
-/
structure Scoped
    (c : Catalog)
    (root : Resource)
    (pending : List String)
    (q : Sql.Query) : Prop where
  table : q.root = root.table
  joins : ∀ j ∈ q.joins, Follows c root j
  labels : q.labels.Nodup
  mentions :
    ∀ col ∈ q.mentions, InScope root pending q col.qualifier

namespace Scoped

variable {c : Catalog}
variable {root : Resource}
variable {pending : List String}
variable {q q' : Sql.Query}

/- A label may be announced before it is joined. -/
theorem announce
    (label : String)
    (h : Scoped c root pending q) :
    Scoped c root (label :: pending) q where
  table := h.table
  joins := h.joins
  labels := h.labels
  mentions := by
    intro col hCol
    rcases h.mentions col hCol with hRoot | hLabel | hPending
    · exact .inl hRoot
    · exact .inr (.inl hLabel)
    · exact .inr (.inr (List.mem_cons_of_mem _ hPending))

/-
  A query stays in scope if its tables stay and it mentions
  further columns in scope only.
-/
theorem extend
    (h : Scoped c root pending q)
    (hRoot : q'.root = q.root)
    (hJoins : q'.joins = q.joins)
    (hMentions :
      ∀ col ∈ q'.mentions,
        col ∈ q.mentions ∨
          InScope root pending q col.qualifier) :
    Scoped c root pending q' where
  table := by rw [hRoot, h.table]
  joins := by
    rw [hJoins]
    exact h.joins
  labels := by
    rw [Sql.Query.labels, hJoins]
    exact h.labels
  mentions := by
    intro col hCol
    have hScope : InScope root pending q col.qualifier := by
      rcases hMentions col hCol with hOld | hNew
      · exact h.mentions col hOld
      · exact hNew
    simpa [InScope, Sql.Query.labels, hJoins] using hScope

/- Selecting a column leaves the tables of a query. -/
theorem tables_addColumn
    (q : Sql.Query)
    (col : Sql.Column) :
    (q.addColumn col).root = q.root ∧
      (q.addColumn col).joins = q.joins := by
  unfold Sql.Query.addColumn
  split
  · exact ⟨rfl, rfl⟩
  · exact ⟨rfl, rfl⟩

/- Selecting a column in scope. -/
theorem addColumn
    (h : Scoped c root pending q)
    {col : Sql.Column}
    (hCol : InScope root pending q col.qualifier) :
    Scoped c root pending (q.addColumn col) := by
  refine h.extend (tables_addColumn q col).1
    (tables_addColumn q col).2 ?_
  intro col' hCol'
  rcases Sql.Query.mem_mentions_addColumn hCol' with hOld | rfl
  · exact .inl hOld
  · exact .inr hCol

/- Demanding a condition on columns in scope. -/
theorem addCondition
    (h : Scoped c root pending q)
    {condition : Sql.Condition}
    (hCols :
      ∀ col ∈ condition.columns,
        InScope root pending q col.qualifier) :
    Scoped c root pending (q.addCondition condition) := by
  refine h.extend rfl rfl ?_
  intro col hCol
  rcases Sql.Query.mem_mentions_addCondition hCol with hOld | hNew
  · exact .inl hOld
  · exact .inr (hCols col hNew)

/- Ordering by a column in scope. -/
theorem orderBy
    (h : Scoped c root pending q)
    {col : Sql.Column}
    (hCol : InScope root pending q col.qualifier)
    (d : Sql.Direction) :
    Scoped c root pending (q.orderBy col d) := by
  refine h.extend rfl rfl ?_
  intro col' hCol'
  rcases Sql.Query.mem_mentions_orderBy hCol' with hOld | rfl
  · exact .inl hOld
  · exact .inr hCol

/- A label is joined exactly when a query says so. -/
theorem isJoined_iff {label : String} :
    q.isJoined label = true ↔ label ∈ q.labels := by
  simp [Sql.Query.isJoined, Sql.Query.labels]

/- A label that was announced and is joined. -/
theorem settle
    {label : String}
    (h : Scoped c root (label :: pending) q)
    (hLabel : label ∈ q.labels) :
    Scoped c root pending q where
  table := h.table
  joins := h.joins
  labels := h.labels
  mentions := by
    intro col hCol
    rcases h.mentions col hCol with hRoot | hOld | hPending
    · exact .inl hRoot
    · exact .inr (.inl hOld)
    · rcases List.mem_cons.mp hPending with hEq | hPending
      · exact .inr (.inl (hEq ▸ hLabel))
      · exact .inr (.inr hPending)

/- Joining a relation under its label. -/
theorem leftJoin
    (h : Scoped c root pending q)
    {j : Sql.Join}
    (hFollows : Follows c root j)
    (hNew : j.label ∉ q.labels) :
    Scoped c root pending (q.leftJoin j) ∧
      j.label ∈ (q.leftJoin j).labels := by
  have hJoined : q.isJoined j.label = false := by
    rw [Bool.eq_false_iff]
    exact fun hJoined => hNew (isJoined_iff.mp hJoined)
  have hNext : q.leftJoin j = { q with joins := q.joins ++ [j] } := by
    simp [Sql.Query.leftJoin, hJoined]
  have hLabels :
      (q.leftJoin j).labels = q.labels ++ [j.label] := by
    simp [hNext, Sql.Query.labels]
  refine ⟨⟨?_, ?_, ?_, ?_⟩, by simp [hLabels]⟩
  · rw [hNext]
    exact h.table
  · rw [hNext]
    intro j' hj'
    rcases List.mem_append.mp hj' with hOld | hLast
    · exact h.joins j' hOld
    · rw [List.mem_singleton.mp hLast]
      exact hFollows
  · rw [hLabels, List.nodup_append]
    refine ⟨h.labels, by simp, ?_⟩
    rintro a ha b hb rfl
    exact hNew (List.mem_singleton.mp hb ▸ ha)
  · intro col hCol
    unfold InScope
    rw [hLabels]
    rcases hFollows with ⟨relation, related, key, _, _, _, hj⟩
    rcases Sql.Query.mem_mentions_leftJoin hCol with
      hOld | rfl | rfl
    · rcases h.mentions col hOld with hRoot | hLabel | hPending
      · exact .inl hRoot
      · exact .inr (.inl (List.mem_append_left _ hLabel))
      · exact .inr (.inr hPending)
    · left
      rw [hj]
      rfl
    · right
      left
      rw [hj]
      exact List.mem_append_right _ List.mem_cons_self

end Scoped

end RelationalRest
