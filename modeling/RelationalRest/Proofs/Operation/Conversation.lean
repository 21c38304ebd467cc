import RelationalRest.Operation.Conversation

/-
  The calls that a conversation makes to a store, and what
  can be said of them and of the result whatever the store
  answers.

  Key definitions include:
    * `Call`
    * `Conversation.sent`
    * `Conversation.Meets`

  Main declarations:
    * `Conversation.Meets.of_mem_sent`
    * `Conversation.Meets.of_run`
-/

namespace RelationalRest

/- A statement sent for rows, for a count, or for a change. -/
inductive Call where
| rows (statement : Sql.Statement)
| count (statement : Sql.Statement)
| change (statement : Sql.Statement)

/- The statement of a call. -/
def Call.statement : Call → Sql.Statement
| .rows s => s
| .count s => s
| .change s => s

namespace Conversation

variable {α σ : Type}

/- The calls that a conversation makes to a store, in order. -/
def sent
    (store : Store σ) : Conversation α → σ → List Call
| .done _, _ => []
| .fetchRows s next, state =>
    let (answer, state) := store.fetchRows s state
    .rows s :: (next answer).sent store state
| .fetchCount s next, state =>
    let (answer, state) := store.fetchCount s state
    .count s :: (next answer).sent store state
| .execute s next, state =>
    let (answer, state) := store.execute s state
    .change s :: (next answer).sent store state

/-
  Whatever the answers are, every call satisfies one condition
  and every result another.
-/
def Meets
    (P : Call → Prop)
    (Q : α → Prop) : Conversation α → Prop
| .done a => Q a
| .fetchRows s next =>
    P (.rows s) ∧ ∀ answer, (next answer).Meets P Q
| .fetchCount s next =>
    P (.count s) ∧ ∀ answer, (next answer).Meets P Q
| .execute s next =>
    P (.change s) ∧ ∀ answer, (next answer).Meets P Q

namespace Meets

variable {P : Call → Prop}
variable {Q : α → Prop}
variable {c : Conversation α}

/- The condition on calls is met by those that are made. -/
theorem of_mem_sent
    (h : c.Meets P Q)
    (store : Store σ)
    (state : σ) :
    ∀ call ∈ c.sent store state, P call := by
  induction c generalizing state with
  | done a =>
      intro call hCall
      cases hCall
  | fetchRows s next ih =>
      intro call hCall
      rcases List.mem_cons.mp hCall with rfl | hLater
      · exact h.1
      · exact ih _ (h.2 _) _ call hLater
  | fetchCount s next ih =>
      intro call hCall
      rcases List.mem_cons.mp hCall with rfl | hLater
      · exact h.1
      · exact ih _ (h.2 _) _ call hLater
  | execute s next ih =>
      intro call hCall
      rcases List.mem_cons.mp hCall with rfl | hLater
      · exact h.1
      · exact ih _ (h.2 _) _ call hLater

/- The condition on results is met by the result of a run. -/
theorem of_run
    (h : c.Meets P Q)
    (store : Store σ)
    (state : σ) :
    Q (c.run store state).1 := by
  induction c generalizing state with
  | done a => exact h
  | fetchRows s next ih => exact ih _ (h.2 _) _
  | fetchCount s next ih => exact ih _ (h.2 _) _
  | execute s next ih => exact ih _ (h.2 _) _

end Meets

end Conversation

/- A store that holds no records. -/
def Store.empty : Store Unit where
  fetchRows := fun _ state => (.ok [], state)
  fetchCount := fun _ state => (.ok 0, state)
  execute := fun _ state => (.ok 0, state)

end RelationalRest
