import RelationalRest.Proofs.Operation.Rejection

/-
  How a store words its failures does not reach a caller.  Two
  stores that give the same answers, and fail at the same calls
  by the same rule, lead every operation to the same result and
  the server to the same response.

  What an operation does with a failure is told by the rule
  alone.  This is a property of the conversation, without any
  store; a run with two stores then takes the same turns.

  Key definitions include:
    * `StoreError.Akin`
    * `Store.Akin`
    * `Conversation.Blunt`
    * `Conversation.IgnoresWording`

  Main declarations:
    * `Conversation.IgnoresWording.run`
    * `Conversation.IgnoresWording.map`
    * `Http.Server.ignoresWording_respond`
    * `Store.Akin.wording_withheld`
-/

namespace RelationalRest

variable {c : Catalog}
variable {r : Resource}

------------------------------------------------------------
-- Stores that word failures differently
------------------------------------------------------------

section Stores

variable {β σ τ : Type}

/- Two answers are one answer, or failures by one rule. -/
def StoreError.Akin :
    Except StoreError β → Except StoreError β → Prop
| .ok b, .ok b' => b = b'
| .error e, .error e' => e.violation = e'.violation
| _, _ => False

/- Two answers are akin, and leave their stores in related states. -/
def Store.AkinAfter
    (R : σ → τ → Prop)
    (given : Except StoreError β × σ)
    (given' : Except StoreError β × τ) : Prop :=
  StoreError.Akin given.1 given'.1 ∧ R given.2 given'.2

/-
  In related states two stores answer every call akin, and are
  left in related states.
-/
structure Store.Akin
    (R : σ → τ → Prop)
    (store : Store σ)
    (store' : Store τ) : Prop where
  fetchRows :
    ∀ {state state'}, R state state' → ∀ s,
      AkinAfter R (store.fetchRows s state)
        (store'.fetchRows s state')
  fetchCount :
    ∀ {state state'}, R state state' → ∀ s,
      AkinAfter R (store.fetchCount s state)
        (store'.fetchCount s state')
  execute :
    ∀ {state state'}, R state state' → ∀ s,
      AkinAfter R (store.execute s state)
        (store'.execute s state')

end Stores

------------------------------------------------------------
-- Conversations that ignore wording
------------------------------------------------------------

namespace Conversation

variable {α β σ τ : Type}

/- What follows a failure is told by the rule alone. -/
def Blunt (next : Except StoreError β → Conversation α) : Prop :=
  ∀ e e' : StoreError, e.violation = e'.violation →
    next (.error e) = next (.error e')

/- Whatever the answers are, failures are told by their rule. -/
def IgnoresWording : Conversation α → Prop
| .done _ => True
| .fetchRows _ next =>
    Blunt next ∧ ∀ answer, (next answer).IgnoresWording
| .fetchCount _ next =>
    Blunt next ∧ ∀ answer, (next answer).IgnoresWording
| .execute _ next =>
    Blunt next ∧ ∀ answer, (next answer).IgnoresWording

/- Answers that are akin are followed by one conversation. -/
theorem Blunt.eq_of_akin
    {next : Except StoreError β → Conversation α}
    (h : Blunt next)
    {answer answer' : Except StoreError β}
    (hAkin : StoreError.Akin answer answer') :
    next answer = next answer' := by
  cases answer with
  | ok b =>
      cases answer' with
      | ok b' => exact congrArg (fun b => next (.ok b)) hAkin
      | error e' => cases hAkin
  | error e =>
      cases answer' with
      | ok b' => cases hAkin
      | error e' => exact h e e' hAkin

namespace IgnoresWording

variable {talk : Conversation α}

/-
  With stores that are akin, a conversation that ignores their
  wording has one result, and leaves them in related states.
-/
theorem run
    (h : talk.IgnoresWording)
    {R : σ → τ → Prop}
    {store : Store σ}
    {store' : Store τ}
    (hAkin : store.Akin R store')
    {state : σ}
    {state' : τ}
    (hState : R state state') :
    (talk.run store state).1 = (talk.run store' state').1 ∧
      R (talk.run store state).2 (talk.run store' state').2 := by
  induction talk generalizing state state' with
  | done a => exact ⟨rfl, hState⟩
  | fetchRows s next ih =>
      have hAnswer := hAkin.fetchRows hState s
      have hNext := h.1.eq_of_akin hAnswer.1
      simp only [Conversation.run, ← hNext]
      exact ih _ (h.2 _) hAnswer.2
  | fetchCount s next ih =>
      have hAnswer := hAkin.fetchCount hState s
      have hNext := h.1.eq_of_akin hAnswer.1
      simp only [Conversation.run, ← hNext]
      exact ih _ (h.2 _) hAnswer.2
  | execute s next ih =>
      have hAnswer := hAkin.execute hState s
      have hNext := h.1.eq_of_akin hAnswer.1
      simp only [Conversation.run, ← hNext]
      exact ih _ (h.2 _) hAnswer.2

/- Changing the result brings no wording in. -/
theorem map
    (h : talk.IgnoresWording)
    (f : α → β) :
    (talk.map f).IgnoresWording := by
  have hBlunt :
      ∀ {γ : Type} {next : Except StoreError γ → Conversation α},
        Blunt next → Blunt fun answer => (next answer).map f :=
    fun hNext e e' hRule =>
      congrArg (Conversation.map f) (hNext e e' hRule)
  induction talk with
  | done a => trivial
  | fetchRows s next ih =>
      exact ⟨hBlunt h.1, fun answer => ih answer (h.2 answer)⟩
  | fetchCount s next ih =>
      exact ⟨hBlunt h.1, fun answer => ih answer (h.2 answer)⟩
  | execute s next ih =>
      exact ⟨hBlunt h.1, fun answer => ih answer (h.2 answer)⟩

end IgnoresWording

end Conversation

------------------------------------------------------------
-- Operations
------------------------------------------------------------

/- A lookup fails in one way, whatever the store says. -/
theorem Lookup.ignoresWording_find
    (c : Catalog)
    (r : Resource)
    (text : String)
    (request : Request) :
    (find c r text request).IgnoresWording := by
  unfold find
  cases query c r text request.params with
  | error e => trivial
  | ok q =>
      refine ⟨fun _ _ _ => rfl, ?_⟩
      rintro (_ | (_ | ⟨row, rows⟩))
      · trivial
      · trivial
      · trivial

/- A survey fails in one way at either query. -/
theorem Survey.ignoresWording_list
    (c : Catalog)
    (baseUrl : String)
    (r : Resource)
    (request : Request) :
    (list c baseUrl r request).IgnoresWording := by
  unfold list
  dsimp only
  split
  · trivial
  · trivial
  · refine ⟨fun _ _ _ => rfl, ?_⟩
    rintro (_ | rows)
    · trivial
    · refine ⟨fun _ _ _ => rfl, ?_⟩
      rintro (_ | total)
      · trivial
      · trivial

namespace Creation

/- A failure while creating is told by its rule. -/
theorem failed_eq_of_rule
    {α : Type}
    {e e' : StoreError}
    (h : e.violation = e'.violation) :
    (failed e : Conversation (Except RequestError α)) =
      failed e' := by
  unfold failed
  rw [h]

/- Reading records back ignores the wording of a failure. -/
theorem ignoresWording_expand
    (c : Catalog)
    (r : Resource)
    (request : Request)
    (many : Bool)
    (ids : List Json)
    (location : Option String) :
    (expand c r request many ids location).IgnoresWording := by
  unfold expand
  split
  · cases expansion c r ids with
    | error e => trivial
    | ok q =>
        refine ⟨fun _ _ => failed_eq_of_rule, ?_⟩
        rintro (_ | rows)
        · trivial
        · trivial
  · trivial

/- An insertion ignores the wording of a failure. -/
theorem ignoresWording_insertAll
    (c : Catalog)
    (baseUrl : String)
    (r : Resource)
    (request : Request)
    (many : Bool)
    (rows : List (Fields Sql.Value)) :
    (insertAll c baseUrl r request many rows).IgnoresWording := by
  unfold insertAll
  cases r.primaryKey with
  | none =>
      refine ⟨fun _ _ => failed_eq_of_rule, ?_⟩
      rintro (_ | count)
      · trivial
      · trivial
  | some key =>
      refine ⟨fun _ _ => failed_eq_of_rule, ?_⟩
      rintro (_ | inserted)
      · trivial
      · exact ignoresWording_expand c r request many _ _

/- A creation tells failures by their rule. -/
theorem ignoresWording_create
    (c : Catalog)
    (baseUrl : String)
    (now : Timestamp)
    (r : Resource)
    (request : Request)
    (body : Json) :
    (create c baseUrl now r request body).IgnoresWording := by
  unfold create
  cases records body with
  | error e => trivial
  | ok found =>
      obtain ⟨items, many⟩ := found
      dsimp only
      cases rows r now request.actor items with
      | error e => trivial
      | ok rows =>
          exact ignoresWording_insertAll c baseUrl r request many
            rows

end Creation

/- A removal fails in one way, whatever the store says. -/
theorem Removal.ignoresWording_remove
    (r : Resource)
    (text : String)
    (request : Request) :
    (remove r text request).IgnoresWording := by
  unfold remove
  cases conditions r text request.actor with
  | error e => trivial
  | ok found =>
      refine ⟨fun _ _ _ => rfl, ?_⟩
      rintro (_ | (_ | count))
      · trivial
      · trivial
      · trivial

------------------------------------------------------------
-- The server
------------------------------------------------------------

namespace Http.Server

variable (s : Server)
variable (now : Timestamp)

/- An action tells failures by their rule at most. -/
theorem ignoresWording_act
    (action : Action)
    (resource : Resource)
    (key : String)
    (request : Http.Request)
    (body : Json) :
    (s.act now action resource key request body).IgnoresWording := by
  cases action with
  | list => exact (Survey.ignoresWording_list _ _ _ _).map _
  | create => exact (Creation.ignoresWording_create _ _ _ _ _ _).map _
  | read => exact (Lookup.ignoresWording_find _ _ _ _).map _
  | remove => exact (Removal.ignoresWording_remove _ _ _).map _

/- So does the action on the resource of a route. -/
theorem ignoresWording_actOn
    (action : Action)
    (route : Route)
    (request : Http.Request)
    (body : Json) :
    (s.actOn now action route request body).IgnoresWording := by
  unfold actOn
  split
  · trivial
  · exact s.ignoresWording_act now action _ _ request body

/- So does the answer on a route. -/
theorem ignoresWording_follow
    (route : Route)
    (request : Http.Request) :
    (s.follow now route request).IgnoresWording := by
  unfold follow
  split
  · trivial
  · trivial
  · split
    · trivial
    · exact s.ignoresWording_actOn now _ _ request _
  · exact s.ignoresWording_actOn now _ _ request _

/- So does the answer to a request. -/
theorem ignoresWording_respond
    (request : Http.Request) :
    (s.respond now request).IgnoresWording := by
  unfold respond
  split
  · trivial
  · split
    · trivial
    · exact (s.ignoresWording_follow now _ request).map _

end Http.Server

------------------------------------------------------------
-- Results and responses
------------------------------------------------------------

namespace Store

variable {σ τ : Type}

/-
  Stores that differ in the wording of their failures at most
  lead to one result of every operation, and to one response to
  every request that arrives.
-/
theorem Akin.wording_withheld
    {R : σ → τ → Prop}
    {store : Store σ}
    {store' : Store τ}
    (hAkin : store.Akin R store')
    (state : σ)
    (state' : τ)
    (hState : R state state')
    (c : Catalog)
    (baseUrl : String)
    (now : Timestamp)
    (r : Resource)
    (request : Request)
    (text : String)
    (body : Json)
    (s : Http.Server)
    (arrived : Http.Request) :
    ((Survey.list c baseUrl r request).run store state).1 =
        ((Survey.list c baseUrl r request).run store' state').1 ∧
      ((Lookup.find c r text request).run store state).1 =
        ((Lookup.find c r text request).run store' state').1 ∧
      ((Creation.create c baseUrl now r request body).run
          store state).1 =
        ((Creation.create c baseUrl now r request body).run
          store' state').1 ∧
      ((Removal.remove r text request).run store state).1 =
        ((Removal.remove r text request).run store' state').1 ∧
      ((s.respond now arrived).run store state).1 =
        ((s.respond now arrived).run store' state').1 := by
  have hList := Survey.ignoresWording_list c baseUrl r request
  have hFind := Lookup.ignoresWording_find c r text request
  have hCreate :=
    Creation.ignoresWording_create c baseUrl now r request body
  have hRemove := Removal.ignoresWording_remove r text request
  have hRespond := s.ignoresWording_respond now arrived
  exact
    ⟨(hList.run hAkin hState).1, (hFind.run hAkin hState).1,
      (hCreate.run hAkin hState).1, (hRemove.run hAkin hState).1,
      (hRespond.run hAkin hState).1⟩

/- A store that fails at every call. -/
def failing (e : StoreError) : Store Unit where
  fetchRows := fun _ state => (.error e, state)
  fetchCount := fun _ state => (.error e, state)
  execute := fun _ state => (.error e, state)

/- Stores that fail by one rule are akin. -/
theorem akin_failing
    {e e' : StoreError}
    (h : e.violation = e'.violation) :
    (failing e).Akin (fun _ _ => True) (failing e') where
  fetchRows := fun _ _ => ⟨h, trivial⟩
  fetchCount := fun _ _ => ⟨h, trivial⟩
  execute := fun _ _ => ⟨h, trivial⟩

end Store

/- A failure that tells a key. -/
def StoreError.telling : StoreError where
  violation := .unique
  detail := "Key (id)=(7) already exists."

/- A failure by the same rule that tells nothing. -/
def StoreError.mute : StoreError where
  violation := .unique
  detail := ""

/- A request for the first idea. -/
def Http.Request.firstIdea : Request where
  method := "GET"
  target := { path := "/entries/1" }
  arrival := { path := "/entries/1" }

/-
  Whether the store tells the key or not, an idea is said to be
  a duplicate, and a lookup to have failed.
-/
theorem Store.Akin.wording_withheld_sample :
    StoreError.telling.message ≠ StoreError.mute.message ∧
      ((Creation.create .sample "" ⟨0, 0, 0⟩ .sample .sample
          (.object [("title", .string "a")])).run
          (Store.failing .telling) ()).1 =
        .error (.createFailed .unique) ∧
      ((Creation.create .sample "" ⟨0, 0, 0⟩ .sample .sample
          (.object [("title", .string "a")])).run
          (Store.failing .mute) ()).1 =
        .error (.createFailed .unique) ∧
      ((Http.Server.sample.respond ⟨0, 0, 0⟩
          Http.Request.firstIdea).run
          (Store.failing .telling) ()).1 =
        .ofError .storeFailed ∧
      ((Http.Server.sample.respond ⟨0, 0, 0⟩
          Http.Request.firstIdea).run
          (Store.failing .mute) ()).1 =
        .ofError .storeFailed := by
  have hAkin :
      (Store.failing .telling).Akin (fun _ _ => True)
        (Store.failing .mute) :=
    Store.akin_failing rfl
  rcases hAkin.wording_withheld () () trivial .sample ""
      ⟨0, 0, 0⟩ .sample .sample "1"
      (.object [("title", .string "a")]) .sample
      Http.Request.firstIdea with
    ⟨_, _, hCreate, _, hRespond⟩
  exact
    ⟨by decide, rfl, hCreate.symm.trans rfl, rfl,
      hRespond.symm.trans rfl⟩

end RelationalRest
