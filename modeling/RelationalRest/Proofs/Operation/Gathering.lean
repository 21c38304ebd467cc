import RelationalRest.Operation.Survey
import RelationalRest.Proofs.Operation.Statements
import RelationalRest.Proofs.Success

/-
  A page of records and the lookups of these records.  Where
  the hook of a resource treats a listing record by record,
  what the lookups of the rows of a page would answer makes up
  what the page answers: their bodies in order or, if one of
  them does not send its record, the answer of the first that
  does not.

  Key definitions include:
    * `Outcome.Gathers`
    * `Catalog.OneByOne`
    * `Lookup.Receives`
    * `Lookup.Answers`
    * `Survey.Receives`

  Main declarations:
    * `Hook.gathers_collectEach`
    * `Lookup.run_find`
    * `Survey.run_list`
    * `Survey.listed_as_found`
-/

namespace RelationalRest

------------------------------------------------------------
-- Answers for records and for their listing
------------------------------------------------------------

/-
  Answers for records make up one for their listing.  If all
  of them are sent, the listing sends their bodies in order;
  otherwise the first that is not sent answers for it.
-/
inductive Outcome.Gathers : List Outcome → Outcome → Prop
| sent
    (bodies : List Json) :
    Gathers (bodies.map .send) (.send (.array bodies))
| takenOver
    (earlier : List Json)
    (status : Nat)
    (body : Json)
    (later : List Outcome) :
    Gathers
      (earlier.map .send ++ .takeOver status body :: later)
      (.takeOver status body)

/- A listing that is sent has no record that is not. -/
theorem Outcome.Gathers.not_takeOver_mem
    {answers : List Outcome}
    {body : Json}
    (h : Gathers answers (.send body))
    (status : Nat)
    (refusal : Json) :
    .takeOver status refusal ∉ answers := by
  cases h with
  | sent bodies => simp

namespace Hook

/- A hook treats the records of a listing one by one. -/
def OneByOne (hook : Hook) : Prop :=
  ∀ records,
    hook.collection records = collectEach hook.single records

/- Records that are each sent are sent with their own bodies. -/
theorem map_single_of_each
    {single : Json → Outcome}
    {records bodies : List Json}
    (h : each single records = .ok bodies) :
    records.map single = bodies.map .send := by
  refine (Success.map_results ?_ h).symm
  intro record body hBody
  split at hBody
  · next sent hSent =>
      cases hBody
      exact hSent.symm
  · cases hBody

/- The answers for records make up that for all of them. -/
theorem gathers_collectEach
    (single : Json → Outcome)
    (records : List Json) :
    Outcome.Gathers (records.map single)
      (collectEach single records) := by
  unfold collectEach
  cases hEach : each single records with
  | ok bodies =>
      rw [map_single_of_each hEach]
      exact .sent bodies
  | error answer =>
      rcases Success.exists_first_of_mapM_eq_error hEach with
        ⟨before, record, after, bodies, rfl, hBefore, hRecord⟩
      have hSent : before.map single = bodies.map .send :=
        map_single_of_each hBefore
      rw [List.map_append, List.map_cons, hSent]
      cases hSingle : single record with
      | send body =>
          rw [hSingle] at hRecord
          cases hRecord
      | takeOver status body =>
          rw [hSingle] at hRecord
          cases hRecord
          exact .takenOver bodies status body _

end Hook

variable {c : Catalog}
variable {r : Resource}
variable {σ : Type}

/- The hook of a resource, if it has one, treats records so. -/
def Catalog.OneByOne
    (c : Catalog)
    (r : Resource) : Prop :=
  ∀ hook, c.hook? r.name = some hook → hook.OneByOne

/- What is sent for rows is made up of what is sent for each. -/
theorem Survey.gathers_outcome
    (h : c.OneByOne r)
    (rows : List Row) :
    Outcome.Gathers (rows.map (Lookup.outcome c r))
      (outcome c r rows) := by
  unfold outcome Lookup.outcome
  cases hHook : c.hook? r.name with
  | none =>
      have hSent := Outcome.Gathers.sent (rows.map (c.present r))
      rwa [List.map_map] at hSent
  | some hook =>
      have hEach :=
        Hook.gathers_collectEach hook.single (rows.map (c.present r))
      rw [List.map_map, ← h hook hHook] at hEach
      exact hEach

------------------------------------------------------------
-- Lookups and surveys that receive rows
------------------------------------------------------------

/- A lookup is given a row by the store. -/
def Lookup.Receives
    (c : Catalog)
    (r : Resource)
    (text : String)
    (request : Request)
    (store : Store σ)
    (state : σ)
    (row : Row) : Prop :=
  ∃ q others,
    query c r text request.params = .ok q ∧
      (store.fetchRows q.select state).1 = .ok (row :: others)

/- A lookup answers with what is sent for the row it is given. -/
theorem Lookup.run_find
    {text : String}
    {request : Request}
    {store : Store σ}
    {state : σ}
    {row : Row}
    (h : Receives c r text request store state row) :
    ((find c r text request).run store state).1 =
      .ok (outcome c r row) := by
  rcases h with ⟨q, others, hQuery, hRow⟩
  simp only [find, hQuery, Conversation.run, hRow]

/- Every lookup that is given a row gives the same answer. -/
def Lookup.Answers
    (c : Catalog)
    (r : Resource)
    (row : Row)
    (answer : Outcome) : Prop :=
  ∀ (σ : Type) (store : Store σ) (state : σ) (text : String)
    (request : Request),
    Receives c r text request store state row →
      ((find c r text request).run store state).1 = .ok answer

/- A survey is given rows and a total by the store. -/
def Survey.Receives
    (c : Catalog)
    (r : Resource)
    (request : Request)
    (store : Store σ)
    (state : σ)
    (rows : List Row)
    (total : Nat) : Prop :=
  ∃ q counted,
    rowQuery c r request.params = .ok q ∧
      countQuery c r request.params = .ok counted ∧
      (store.fetchRows q.select state).1 = .ok rows ∧
      (store.fetchCount counted.count
        (store.fetchRows q.select state).2).1 = .ok total

/- A survey answers with what is sent for the rows it is given. -/
theorem Survey.run_list
    {request : Request}
    {store : Store σ}
    {state : σ}
    {rows : List Row}
    {total : Nat}
    (h : Receives c r request store state rows total)
    (baseUrl : String) :
    ((list c baseUrl r request).run store state).1 =
      .ok
        { outcome := outcome c r rows
          length := rows.length
          total
          links :=
            PageLinks.ofParams? (baseUrl ++ request.path)
              request.params total } := by
  rcases h with ⟨q, counted, hQuery, hCounted, hRows, hTotal⟩
  simp only [list, hQuery, hCounted, Conversation.run, hRows, hTotal]

------------------------------------------------------------
-- The page and its records
------------------------------------------------------------

/-
  Where the hook of a resource, if any, treats a listing record
  by record, a survey that is given rows answers with a listing
  of as many records.  What lookups answer that are given these
  rows makes up what the listing is; and it is not sent if the
  hook takes over with the envelope of one of them.
-/
theorem Survey.listed_as_found
    (hEach : c.OneByOne r)
    {request : Request}
    {store : Store σ}
    {state : σ}
    {rows : List Row}
    {total : Nat}
    (hGiven : Receives c r request store state rows total)
    (baseUrl : String) :
    ∃ listing,
      ((list c baseUrl r request).run store state).1 =
          .ok listing ∧
        listing.length = rows.length ∧
        Outcome.Gathers (rows.map (Lookup.outcome c r))
          listing.outcome ∧
        (∀ row ∈ rows,
          Lookup.Answers c r row (Lookup.outcome c r row)) ∧
        ∀ hook, c.hook? r.name = some hook →
          ∀ row ∈ rows, ∀ status body,
            hook.single (c.present r row) = .takeOver status body →
              ∀ sent, listing.outcome ≠ .send sent := by
  have hGathers := gathers_outcome hEach rows
  refine
    ⟨_, run_list hGiven baseUrl, rfl, hGathers, ?_, ?_⟩
  · intro row _ σ store state text request hReceives
    exact Lookup.run_find hReceives
  · intro hook hHook row hRow status body hTakesOver sent hSent
    dsimp only at hSent
    rw [hSent] at hGathers
    apply hGathers.not_takeOver_mem status body
    refine List.mem_map.mpr ⟨row, hRow, ?_⟩
    unfold Lookup.outcome
    rw [hHook]
    exact hTakesOver

/- A hook that sends titles, unless the title is a secret. -/
def Hook.discreet : Hook :=
  .ofSingle fun record =>
    match record with
    | .object [("title", .string "secret")] => .takeOver 403 .null
    | _ => .send (.array [record])

/- Members and ideas, of which not all are shown. -/
def Catalog.discreet : Catalog :=
  { sample with hooks := [("entries", .discreet)] }

/- A row whose title is not a secret. -/
def Row.plain : Row :=
  [("idea_title", .string "a")]

/- A row whose title is a secret. -/
def Row.secret : Row :=
  [("idea_title", .string "secret")]

/- A store that gives the same rows to everyone. -/
def Store.giving (rows : List Row) : Store Unit where
  fetchRows := fun _ state => (.ok rows, state)
  fetchCount := fun _ state => (.ok rows.length, state)
  execute := fun _ state => (.ok 0, state)

/- Of two ideas the second answers, since it is a secret. -/
theorem Survey.listed_as_found_sample :
    ∃ listing,
      ((list .discreet "" .sample .sample).run
          (Store.giving [.plain, .secret]) ()).1 = .ok listing ∧
        listing.length = 2 ∧
        Outcome.Gathers
          [ .send (.array [.object [("title", .string "a")]])
          , .takeOver 403 .null ]
          listing.outcome ∧
        ((Lookup.find .discreet .sample "1" .sample).run
          (Store.giving [.secret]) ()).1 =
          .ok (.takeOver 403 .null) := by
  have hEach : Catalog.discreet.OneByOne .sample := by
    intro hook hHook records
    cases hHook
    rfl
  have hGiven :
      Receives .discreet .sample .sample
        (Store.giving [.plain, .secret]) () [.plain, .secret] 2 :=
    ⟨_, _, rfl, rfl, rfl, rfl⟩
  have hFound :
      Lookup.Receives .discreet .sample "1" .sample
        (Store.giving [.secret]) () .secret :=
    ⟨_, _, rfl, rfl⟩
  rcases listed_as_found hEach hGiven "" with
    ⟨listing, hRun, hLength, hGathers, hAnswers, _⟩
  refine ⟨listing, hRun, hLength, hGathers, ?_⟩
  exact hAnswers .secret (by simp) Unit _ () "1" .sample hFound

end RelationalRest
