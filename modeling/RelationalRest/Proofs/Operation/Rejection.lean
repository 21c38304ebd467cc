import RelationalRest.Http.Server
import RelationalRest.Proofs.Catalog.Declared
import RelationalRest.Proofs.Listing.Selection
import RelationalRest.Proofs.Operation.Creation

/-
  Requests that are refused.  An operation refuses its request
  exactly when it sends nothing to the store: once a statement
  is sent, all that can go wrong is a fault of the store or a
  record that is not there.  Over a resolved catalog this
  holds of a creation as well, because the query that reads
  created records back can always be built.

  Key definitions include:
    * `Refused`
    * `Conversation.RefusesFirst`
    * `Creation.Admits`

  Main declarations:
    * `Conversation.RefusesFirst.refused_iff`
    * `Creation.exists_expansion`
    * `Creation.refused_create`
    * `Http.Server.silent_respond`
    * `Catalog.Resolved.refused_iff_unsent`
-/

namespace RelationalRest

variable {c : Catalog}
variable {r : Resource}

------------------------------------------------------------
-- Conversations that refuse first
------------------------------------------------------------

/- A result that refuses the request. -/
def Refused
    {α : Type} : Except RequestError α → Prop
| .ok _ => False
| .error e => e.errorClass.Refuses

namespace Conversation

variable {α σ : Type}

/- A silent conversation sends nothing to any store. -/
theorem sent_of_silent
    {talk : Conversation α}
    (h : talk.Silent)
    (store : Store σ)
    (state : σ) :
    talk.sent store state = [] := by
  cases talk with
  | done a => rfl
  | fetchRows s next => cases h
  | fetchCount s next => cases h
  | execute s next => cases h

/-
  A conversation refuses a request at once or not at all: if
  it is over it is a refusal, and if it sends anything it ends
  in no refusal, whatever the answers are.
-/
def RefusesFirst : Conversation (Except RequestError α) → Prop
| .done result => Refused result
| talk => talk.Meets (fun _ => True) fun result => ¬ Refused result

/- What sends something and ends in no refusal refuses first. -/
theorem RefusesFirst.of_meets
    {talk : Conversation (Except RequestError α)}
    (hSent : ¬ talk.Silent)
    (h :
      talk.Meets (fun _ => True) fun result => ¬ Refused result) :
    talk.RefusesFirst := by
  cases talk with
  | done result => exact absurd trivial hSent
  | fetchRows s next => exact h
  | fetchCount s next => exact h
  | execute s next => exact h

/- It ends in a refusal exactly if it sends nothing. -/
theorem RefusesFirst.refused_iff
    {talk : Conversation (Except RequestError α)}
    (h : talk.RefusesFirst)
    (store : Store σ)
    (state : σ) :
    Refused (talk.run store state).1 ↔
      talk.sent store state = [] := by
  cases talk with
  | done result => exact ⟨fun _ => rfl, fun _ => h⟩
  | fetchRows s next =>
      exact iff_of_false (Meets.of_run h store state) (by simp [sent])
  | fetchCount s next =>
      exact iff_of_false (Meets.of_run h store state) (by simp [sent])
  | execute s next =>
      exact iff_of_false (Meets.of_run h store state) (by simp [sent])

end Conversation

------------------------------------------------------------
-- Lookups, surveys and removals
------------------------------------------------------------

/- A lookup refuses its key or its parameters first. -/
theorem Lookup.refusesFirst_find
    (text : String)
    (request : Request)
    (hSound : c.Sound)
    (hr : r ∈ c.resources) :
    (find c r text request).RefusesFirst := by
  have hQuery := answers_query text request.params hSound hr
  unfold find
  cases hFound : query c r text request.params with
  | error e => exact (hQuery.refusal hFound).refuses
  | ok q =>
      refine ⟨trivial, ?_⟩
      rintro (_ | (_ | ⟨row, rows⟩))
      · exact id
      · exact id
      · exact id

/- A survey refuses its parameters first. -/
theorem Survey.refusesFirst_list
    (baseUrl : String)
    (request : Request)
    (hSound : c.Sound)
    (hr : r ∈ c.resources) :
    (list c baseUrl r request).RefusesFirst := by
  have hRows := answers_rowQuery request.params hSound hr
  have hCount := answers_countQuery request.params hSound hr
  unfold list
  cases hRowQuery : rowQuery c r request.params with
  | error e =>
      simp only [hRowQuery]
      exact (hRows.refusal hRowQuery).refuses
  | ok rows =>
      cases hCountQuery : countQuery c r request.params with
      | error e =>
          simp only [hRowQuery, hCountQuery]
          exact (hCount.refusal hCountQuery).refuses
      | ok count =>
          simp only [hRowQuery, hCountQuery]
          refine ⟨trivial, ?_⟩
          rintro (_ | found)
          · exact id
          · refine ⟨trivial, ?_⟩
            rintro (_ | total)
            · exact id
            · exact id

/- A removal refuses its key or its actor first. -/
theorem Removal.refusesFirst_remove
    (r : Resource)
    (text : String)
    (request : Request) :
    (remove r text request).RefusesFirst := by
  have hConditions := refusing_conditions r text request.actor
  unfold remove
  cases hFound : conditions r text request.actor with
  | error e => exact (hConditions.refusal hFound).refuses
  | ok found =>
      refine ⟨trivial, ?_⟩
      rintro (_ | (_ | count))
      · exact id
      · exact id
      · exact id

------------------------------------------------------------
-- Creations
------------------------------------------------------------

/- A primary key of a resolved catalog is of some kind. -/
theorem Catalog.Resolved.exists_keyKind
    {key : String}
    (hResolved : c.Resolved)
    (hr : r ∈ c.resources)
    (hKey : r.primaryKey = some key) :
    ∃ kind, r.keyKind = .ok (key, kind) := by
  rcases (hResolved.grounded hr).exists_keyKind hKey with
    ⟨type, hType⟩
  exact ⟨type.kind, by simp [Resource.keyKind, hKey, hType]⟩

namespace Creation

/- Created records are read back by the values of their keys. -/
theorem exists_expansion_of_keyKind
    {key : String}
    {kind : Kind}
    (hSound : c.Sound)
    (hr : r ∈ c.resources)
    (hKind : r.keyKind = .ok (key, kind))
    (ids : List Json) :
    ∃ q,
      expansion c r ids = .ok q ∧
        .anyOf
            (ids.map fun id =>
              .equal (r.column key) (kind.ofJson id)) ∈
          q.conditions := by
  have hExpansion :
      expansion c r ids =
        .ok
          ((Projection.byDefault.apply c r
            { root := r.table }).query.addCondition <|
              .anyOf <| ids.map fun id =>
                .equal (r.column key) (kind.ofJson id)) := by
    simp [expansion, hKind, Except.map,
      Projection.result_apply _ hSound hr]
  exact ⟨_, hExpansion, by simp [Sql.Query.addCondition]⟩

/- Created records can be read back by their keys. -/
theorem exists_expansion
    {key : String}
    (hResolved : c.Resolved)
    (hr : r ∈ c.resources)
    (hKey : r.primaryKey = some key)
    (ids : List Json) :
    ∃ q, expansion c r ids = .ok q := by
  rcases hResolved.exists_keyKind hr hKey with ⟨kind, hKind⟩
  rcases exists_expansion_of_keyKind hResolved.sound hr hKind
      ids with
    ⟨q, hQuery, _⟩
  exact ⟨q, hQuery⟩

/- An insertion refuses nothing. -/
theorem refusesFirst_insertAll
    (baseUrl : String)
    (request : Request)
    (many : Bool)
    (values : List (Fields Sql.Value))
    (hResolved : c.Resolved)
    (hr : r ∈ c.resources) :
    (insertAll c baseUrl r request many values).RefusesFirst := by
  have hSent :
      ¬ (insertAll c baseUrl r request many values).Silent := by
    unfold insertAll
    cases r.primaryKey with
    | none => exact id
    | some key => exact id
  refine .of_meets hSent ?_
  refine meets_insertAll baseUrl request many (fun _ _ => trivial)
    (fun _ => id) (fun _ => id) (fun _ _ _ => trivial) ?_
  intro key ids e hKey hFound
  rcases exists_expansion hResolved hr hKey ids with ⟨q, hQuery⟩
  rw [hQuery] at hFound
  cases hFound

/- A creation refuses its body or its actor first. -/
theorem refusesFirst_create
    (baseUrl : String)
    (now : Timestamp)
    (request : Request)
    (body : Json)
    (hResolved : c.Resolved)
    (hr : r ∈ c.resources) :
    (create c baseUrl now r request body).RefusesFirst := by
  have hRecords := refusing_records body
  unfold create
  cases hFound : records body with
  | error e => exact (hRecords.refusal hFound).refuses
  | ok found =>
      obtain ⟨items, many⟩ := found
      have hRows := refusing_rows r now request.actor items
      dsimp only
      cases hRow : rows r now request.actor items with
      | error e => exact (hRows.refusal hRow).refuses
      | ok rows =>
          exact refusesFirst_insertAll baseUrl request many rows
            hResolved hr

end Creation

------------------------------------------------------------
-- Records that are refused
------------------------------------------------------------

namespace Creation

variable {now : Timestamp}
variable {actor : Option Actor}

/- An item of a body is a record that comes to a row. -/
def Admits
    (r : Resource)
    (now : Timestamp)
    (actor : Option Actor)
    (item : Json) : Prop :=
  ∃ record values,
    recordOf item = .ok record ∧
      row r now actor record = .ok values

/- All items of a body that comes to rows are admitted. -/
theorem admits_of_rows
    {items : List Json}
    {found : List Record}
    {many : Bool}
    {values : List (Fields Sql.Value)}
    (hRecords : records (.array items) = .ok (found, many))
    (hRows : rows r now actor found = .ok values) :
    ∀ item ∈ items, Admits r now actor item := by
  have hFound : items.mapM recordOf = .ok found := by
    unfold records at hRecords
    dsimp only at hRecords
    split at hRecords
    · cases hRecords
    · cases hRecords
    · next hItems =>
        cases hRecords
        exact hItems
  intro item hItem
  rcases Success.exists_result_of_mem hFound hItem with
    ⟨record, hRecord, hSame⟩
  rcases Success.exists_result_of_mem
      (accepted_of_rows hRows).1 hRecord with
    ⟨cells, _, hRow⟩
  exact ⟨record, cells, hSame, hRow⟩

/- One item that is not admitted has the whole body refused. -/
theorem refused_create
    (c : Catalog)
    (baseUrl : String)
    (request : Request)
    {items : List Json}
    {item : Json}
    (hItem : item ∈ items)
    (hNot : ¬ Admits r now request.actor item) :
    ∃ e : RequestError, e.Refusal ∧
      create c baseUrl now r request (.array items) =
        .done (.error e) := by
  unfold create
  cases hRecords : records (.array items) with
  | error e =>
      exact ⟨e, (refusing_records _).refusal hRecords, rfl⟩
  | ok result =>
      obtain ⟨found, many⟩ := result
      dsimp only
      cases hRows : rows r now request.actor found with
      | error e =>
          exact ⟨e, (refusing_rows _ _ _ _).refusal hRows, rfl⟩
      | ok values =>
          exact absurd (admits_of_rows hRecords hRows item hItem)
            hNot

end Creation

------------------------------------------------------------
-- Routes that lead nowhere
------------------------------------------------------------

namespace Http.Server

/- On a segment that names no resource, nothing is sent. -/
theorem silent_follow
    (s : Server)
    (now : Timestamp)
    {route : Route}
    (request : Http.Request)
    (hNone :
      ∀ decoded, route.decode? = some decoded →
        s.catalog.byPath? decoded.segment = none) :
    (s.follow now route request).Silent := by
  unfold follow
  split
  · trivial
  · trivial
  · next decoded _ hDecoded =>
      split
      · trivial
      · simp [actOn, hNone _ hDecoded, Conversation.Silent]
  · next hDecoded =>
      simp [actOn, hNone _ hDecoded, Conversation.Silent]

/- A request whose path names no resource is answered silently. -/
theorem silent_respond
    (s : Server)
    (now : Timestamp)
    (request : Http.Request)
    (hNone :
      ∀ route decoded,
        Route.ofPath? request.target.path = some route →
          route.decode? = some decoded →
            s.catalog.byPath? decoded.segment = none) :
    (s.respond now request).Silent := by
  unfold respond
  split
  · trivial
  · split
    · trivial
    · next route hRoute =>
        rw [Conversation.silent_map_iff]
        exact silent_follow s now request fun decoded hDecoded =>
          hNone route decoded hRoute hDecoded

end Http.Server

------------------------------------------------------------
-- Resolved catalogs
------------------------------------------------------------

/- A request for ideas up to no number. -/
def Request.unbounded : Request where
  path := "/entries"
  params := .parse "limit=many"
  actor := none

/- An idea, and an object whose key is no number. -/
def Creation.mixed : List Json :=
  [ .object [("title", .string "a")]
  , .object [("id", .string "x")] ]

/- The server of members and ideas. -/
def Http.Server.sample : Server where
  catalog := Catalog.sample
  baseUrl := ""
  bodyLimit := 100

/- A request on a path that names no resource. -/
def Http.Request.stray : Request where
  method := "GET"
  target := { path := "/nothing" }
  arrival := { path := "/nothing" }

namespace Catalog.Resolved

variable {σ : Type}

/-
  Whatever is asked and whatever the store answers, a request
  is refused exactly if nothing has been sent for it.  One item
  of a body that is not admitted has the whole body refused,
  and on a path that names no resource nothing is sent either.
-/
theorem refused_iff_unsent
    (hResolved : c.Resolved)
    (hr : r ∈ c.resources)
    (baseUrl : String)
    (now : Timestamp)
    (request : Request)
    (text : String)
    (body : Json)
    (store : Store σ)
    (state : σ) :
    (Refused
        ((Survey.list c baseUrl r request).run store state).1 ↔
      (Survey.list c baseUrl r request).sent store state = []) ∧
    (Refused
        ((Lookup.find c r text request).run store state).1 ↔
      (Lookup.find c r text request).sent store state = []) ∧
    (Refused
        ((Creation.create c baseUrl now r request body).run
          store state).1 ↔
      (Creation.create c baseUrl now r request body).sent
        store state = []) ∧
    (Refused ((Removal.remove r text request).run store state).1 ↔
      (Removal.remove r text request).sent store state = []) ∧
    (∀ items, body = .array items →
      (∃ item ∈ items,
        ¬ Creation.Admits r now request.actor item) →
      Refused
          ((Creation.create c baseUrl now r request body).run
            store state).1 ∧
        (Creation.create c baseUrl now r request body).sent
          store state = []) ∧
    (∀ (s : Http.Server) (arrived : Http.Request),
      (∀ route decoded,
        Http.Route.ofPath? arrived.target.path = some route →
          route.decode? = some decoded →
            s.catalog.byPath? decoded.segment = none) →
      (s.respond now arrived).sent store state = []) := by
  have hSound := hResolved.sound
  have hList := Survey.refusesFirst_list baseUrl request hSound hr
  have hFind := Lookup.refusesFirst_find text request hSound hr
  have hCreate :=
    Creation.refusesFirst_create baseUrl now request body
      hResolved hr
  have hRemove := Removal.refusesFirst_remove r text request
  refine
    ⟨hList.refused_iff store state, hFind.refused_iff store state,
      hCreate.refused_iff store state,
      hRemove.refused_iff store state, ?_, ?_⟩
  · rintro items rfl ⟨item, hItem, hNot⟩
    rcases Creation.refused_create c baseUrl request hItem hNot with
      ⟨e, hRefusal, hDone⟩
    rw [hDone]
    exact ⟨hRefusal.refuses, rfl⟩
  · intro s arrived hNone
    exact Conversation.sent_of_silent
      (s.silent_respond now arrived hNone) store state

/-
  Ideas are not listed up to no number, found or removed by a
  text that is no key, or created beside one that is no idea,
  and a path that names nothing leads to nothing.
-/
theorem refused_iff_unsent_sample :
    (Survey.list sample "" Resource.sample
        Request.unbounded).sent Store.empty () = [] ∧
      (Lookup.find sample Resource.sample "x"
        Request.unbounded).sent Store.empty () = [] ∧
      (Removal.remove Resource.sample "x"
        Request.unbounded).sent Store.empty () = [] ∧
      (Creation.create sample "" ⟨0, 0, 0⟩ Resource.sample
        Request.unbounded (.array Creation.mixed)).sent
          Store.empty () = [] ∧
      (Http.Server.sample.respond ⟨0, 0, 0⟩
        Http.Request.stray).sent Store.empty () = [] := by
  have hSample :=
    refused_iff_unsent sample_resolved mem_sample "" ⟨0, 0, 0⟩
      Request.unbounded "x" (.array Creation.mixed)
      Store.empty ()
  rcases hSample with
    ⟨hList, hFind, _, hRemove, hCreate, hRespond⟩
  refine
    ⟨hList.mp trivial, hFind.mp trivial, hRemove.mp trivial, ?_,
      ?_⟩
  · refine (hCreate _ rfl ⟨.object [("id", .string "x")], ?_, ?_⟩).2
    · simp [Creation.mixed]
    · rintro ⟨record, values, hRecord, hRow⟩
      cases hRecord
      cases hRow
  · refine hRespond Http.Server.sample Http.Request.stray ?_
    intro route decoded hRoute hDecoded
    cases hRoute
    cases hDecoded
    rfl

end Catalog.Resolved

end RelationalRest
