import RelationalRest.Error.Store
import RelationalRest.Record.Envelope
import RelationalRest.Sql.Statement

/-
  This file defines conversations with a store.  An operation
  is described by the statements that it sends and by what it
  does with each answer, apart from any store.

  Key definitions include:
    * `Conversation`
    * `Conversation.bind`
    * `Store`
    * `Conversation.run`
    * `Conversation.Silent`
-/

namespace RelationalRest

/-
  A conversation ends with a result, or sends a statement to
  fetch rows, to fetch a count or to change rows, and goes on
  with the answer.
-/
inductive Conversation (α : Type) where
| done (a : α)
| fetchRows
    (statement : Sql.Statement)
    (next : Except StoreError (List Row) → Conversation α)
| fetchCount
    (statement : Sql.Statement)
    (next : Except StoreError Nat → Conversation α)
| execute
    (statement : Sql.Statement)
    (next : Except StoreError Nat → Conversation α)

namespace Conversation

variable {α β : Type}

/- Go on with the result of a conversation. -/
def bind : Conversation α → (α → Conversation β) → Conversation β
| .done a, f => f a
| .fetchRows s next, f => .fetchRows s fun answer => (next answer).bind f
| .fetchCount s next, f => .fetchCount s fun answer => (next answer).bind f
| .execute s next, f => .execute s fun answer => (next answer).bind f

/- Change the result of a conversation. -/
def map
    (f : α → β)
    (c : Conversation α) : Conversation β :=
  c.bind fun a => .done (f a)

/- A conversation that sends nothing. -/
def Silent : Conversation α → Prop
| .done _ => True
| _ => False

/- A mapped conversation is silent when the first one is. -/
theorem silent_map_iff
    {f : α → β}
    {c : Conversation α} :
    (c.map f).Silent ↔ c.Silent := by
  cases c <;> simp [map, bind, Silent]

end Conversation

------------------------------------------------------------
-- Stores
------------------------------------------------------------

/- A store with a state, by its answers to statements. -/
structure Store (σ : Type) where
  fetchRows :
    Sql.Statement → σ → Except StoreError (List Row) × σ
  fetchCount : Sql.Statement → σ → Except StoreError Nat × σ
  execute : Sql.Statement → σ → Except StoreError Nat × σ

/-
  Hold a conversation with a store: its result, and the state
  in which it leaves the store.
-/
def Conversation.run
    {α σ : Type}
    (store : Store σ) : Conversation α → σ → α × σ
| .done a, state => (a, state)
| .fetchRows s next, state =>
    let (answer, state) := store.fetchRows s state
    (next answer).run store state
| .fetchCount s next, state =>
    let (answer, state) := store.fetchCount s state
    (next answer).run store state
| .execute s next, state =>
    let (answer, state) := store.execute s state
    (next answer).run store state

end RelationalRest
