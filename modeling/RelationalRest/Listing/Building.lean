import RelationalRest.Error.Request
import RelationalRest.Sql.Query

/-
  This file defines queries under construction.  A step that
  fails leaves the query as far as it came, and the steps
  after it do nothing.

  Key definitions include:
    * `Building`
    * `Building.andThen`
    * `Building.each`
    * `Building.result`
-/

namespace RelationalRest

/- A query as built so far, and the error that stopped it. -/
structure Building where
  query : Sql.Query
  error? : Option RequestError := none

namespace Building

/- A query that nothing stopped. -/
def ok (q : Sql.Query) : Building where
  query := q

/- A query at which an error stops. -/
def stop
    (q : Sql.Query)
    (e : RequestError) : Building where
  query := q
  error? := some e

/- Go on with a step, unless an error stopped. -/
def andThen
    (b : Building)
    (step : Sql.Query → Building) : Building :=
  match b.error? with
  | none => step b.query
  | some _ => b

/- Take the step of each item in order. -/
def each
    {α : Type}
    (step : α → Sql.Query → Building) :
    List α → Sql.Query → Building
| [], q => ok q
| a :: rest, q => (step a q).andThen (each step rest)

/- The finished query, or the error. -/
def result (b : Building) : Except RequestError Sql.Query :=
  match b.error? with
  | none => .ok b.query
  | some e => .error e

/- Nothing stopped exactly when there is a finished query. -/
theorem result_eq_ok_iff
    {b : Building}
    {q : Sql.Query} :
    b.result = .ok q ↔ b = ok q := by
  obtain ⟨query, error?⟩ := b
  cases error? <;> simp [result, ok]

/- Steps after a step that nothing stopped. -/
@[simp]
theorem ok_andThen
    (q : Sql.Query)
    (step : Sql.Query → Building) :
    (ok q).andThen step = step q :=
  rfl

/- Steps after an error. -/
@[simp]
theorem stop_andThen
    (q : Sql.Query)
    (e : RequestError)
    (step : Sql.Query → Building) :
    (stop q e).andThen step = stop q e :=
  rfl

/- A last step that does nothing. -/
@[simp]
theorem andThen_ok (b : Building) : b.andThen ok = b := by
  obtain ⟨query, error?⟩ := b
  cases error? <;> rfl

/- Steps after two steps in a row. -/
theorem andThen_assoc
    (b : Building)
    (step next : Sql.Query → Building) :
    (b.andThen step).andThen next =
      b.andThen fun q => (step q).andThen next := by
  obtain ⟨query, error?⟩ := b
  cases error? <;> rfl

section Items

variable {α β : Type}
variable {step step' : α → Sql.Query → Building}

/- The steps of items, and then those of more items. -/
theorem each_append
    (items more : List α)
    (q : Sql.Query) :
    each step (items ++ more) q =
      (each step items q).andThen (each step more) := by
  induction items generalizing q with
  | nil => rfl
  | cons a items ih =>
      have hRest :
          each step (items ++ more) =
            fun q => (each step items q).andThen (each step more) :=
        funext ih
      simp only [List.cons_append, each, hRest, andThen_assoc]

/- Items that each stand for items of their own. -/
theorem each_flatMap
    (f : β → List α)
    (items : List β) :
    each step (items.flatMap f) =
      each (fun b => each step (f b)) items := by
  induction items with
  | nil => rfl
  | cons b items ih =>
      funext q
      rw [List.flatMap_cons, each_append, ih]
      rfl

/- Steps that do the same for each item do the same for all. -/
theorem each_congr
    {items : List α}
    (h : ∀ a ∈ items, step a = step' a) :
    each step items = each step' items := by
  induction items with
  | nil => rfl
  | cons a items ih =>
      funext q
      unfold each
      rw [h a List.mem_cons_self,
        ih fun b hb => h b (List.mem_cons_of_mem a hb)]

end Items

end Building

end RelationalRest
