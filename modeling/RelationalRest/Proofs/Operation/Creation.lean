import RelationalRest.Proofs.Operation.Statements
import RelationalRest.Proofs.Sql.ReadBack

/-
  A creation sends one insertion first, and nothing that
  inserts after it.  The insertion, read back from its text
  and its parameters, has a row for each record of the body,
  in the order of the records, and the row gives every column
  what the record came to: its value, or the default where
  the record has none.

  Key definitions include:
    * `Creation.Indistinct`
    * `Creation.Keeps`

  Main declarations:
    * `Creation.sent_insertAll`
    * `Creation.rows_of_accepted`
    * `Creation.keeps_insertion`
    * `Creation.refuses_or_inserts`
    * `Catalog.Resolved.creation_keeps_records`
-/

namespace RelationalRest

variable {c : Catalog}
variable {r : Resource}

namespace Creation

------------------------------------------------------------
-- Calls of a creation
------------------------------------------------------------

/- What only reads inserts nothing. -/
theorem inserted?_of_reads
    {call : Call}
    (h : call.Reads c r) :
    call.statement.inserted? = none := by
  cases call with
  | rows s =>
      rcases h with ⟨q, _, rfl⟩
      exact q.inserted?_select
  | count s =>
      rcases h with ⟨q, _, rfl⟩
      exact q.inserted?_count
  | change s => exact False.elim h

/-
  Rows are inserted first, and what follows meets a condition
  that the queries for created records meet.
-/
theorem sent_insertAll_meets
    {σ : Type}
    {P : Call → Prop}
    (hQuery :
      ∀ ids q, expansion c r ids = .ok q → P (.rows q.select))
    (baseUrl : String)
    (request : Request)
    (many : Bool)
    (values : List (Fields Sql.Value))
    (store : Store σ)
    (state : σ) :
    ∃ call later,
      (insertAll c baseUrl r request many values).sent
            store state =
          call :: later ∧
        call.statement = (insertion r values).statement ∧
        ∀ other ∈ later, P other := by
  unfold insertAll
  cases r.primaryKey with
  | none =>
      refine ⟨_, _, rfl, rfl, ?_⟩
      dsimp only
      cases (store.execute (insertion r values).statement
          state).1 with
      | error e =>
          intro other hOther
          cases hOther
      | ok count =>
          intro other hOther
          cases hOther
  | some key =>
      refine ⟨_, _, rfl, rfl, ?_⟩
      dsimp only
      cases (store.fetchRows (insertion r values).statement
          state).1 with
      | error e =>
          intro other hOther
          cases hOther
      | ok inserted =>
          refine Conversation.Meets.of_mem_sent
            (Q := fun _ => True) ?_ store _
          exact meets_expand request many _ (fun _ => trivial)
            (fun _ => trivial) (hQuery _) fun _ _ => trivial

/- Rows are inserted first, and what follows only reads. -/
theorem sent_insertAll
    {σ : Type}
    (baseUrl : String)
    (request : Request)
    (many : Bool)
    (values : List (Fields Sql.Value))
    (store : Store σ)
    (state : σ)
    (hSound : c.Sound)
    (hr : r ∈ c.resources) :
    ∃ call later,
      (insertAll c baseUrl r request many values).sent
            store state =
          call :: later ∧
        call.statement = (insertion r values).statement ∧
        ∀ other ∈ later, other.Reads c r :=
  sent_insertAll_meets
    (fun _ q hFound =>
      ⟨q, (answers_expansion _ hSound hr).of_ok hFound, rfl⟩)
    baseUrl request many values store state

------------------------------------------------------------
-- Rows of records
------------------------------------------------------------

variable {now : Timestamp}
variable {actor : Option Actor}
variable {items : List Record}
variable {found : List (Fields Sql.Value)}

/-
  Several records that come to rows without any column, of a
  resource without a primary key.
-/
def Indistinct
    (r : Resource)
    (now : Timestamp)
    (actor : Option Actor)
    (items : List Record) : Prop :=
  r.primaryKey = none ∧ 1 < items.length ∧
    ∀ record ∈ items, row r now actor record = .ok []

/- Records that cannot be told apart are refused. -/
theorem rows_of_indistinct
    (h : Indistinct r now actor items) :
    rows r now actor items = .error .severalWithoutFields := by
  rcases h with ⟨hKey, hMany, hEmpty⟩
  rcases Success.exists_mapM_eq_ok
      (fun record h => ⟨[], hEmpty record h⟩) with
    ⟨found, hFound⟩
  have hLength :=
    (Success.mapM_eq_ok_iff.mp hFound).length_eq
  have hAll : found.all List.isEmpty = true := by
    rw [List.all_eq_true]
    intro values hValues
    rcases Success.exists_of_mem_results hFound hValues with
      ⟨record, hRecord, hRow⟩
    rw [hEmpty record hRecord] at hRow
    cases hRow
    rfl
  have hMany : 1 < found.length := hLength ▸ hMany
  simp [rows, hFound, hKey, hMany, hAll]

/- Records that can be told apart are accepted as they are. -/
theorem rows_of_accepted
    (hFound : items.mapM (row r now actor) = .ok found)
    (hDistinct : ¬ Indistinct r now actor items) :
    rows r now actor items = .ok found := by
  have hLength :=
    (Success.mapM_eq_ok_iff.mp hFound).length_eq
  have hCondition :
      ¬ (r.primaryKey.isNone = true ∧ 1 < found.length ∧
        found.all List.isEmpty = true) := by
    rintro ⟨hKey, hMany, hAll⟩
    refine
      hDistinct
        ⟨Option.isNone_iff_eq_none.mp hKey, hLength ▸ hMany, ?_⟩
    intro record hRecord
    rcases Success.exists_result_of_mem hFound hRecord with
      ⟨values, hValues, hRow⟩
    have hEmpty := List.all_eq_true.mp hAll values hValues
    rw [hRow, List.isEmpty_iff.mp hEmpty]
  simp only [rows, hFound]
  rw [if_neg hCondition]

/- Rows that are inserted can be told apart. -/
theorem told_insertion
    (hFound : items.mapM (row r now actor) = .ok found)
    (hDistinct : ¬ Indistinct r now actor items) :
    (insertion r found).Told := by
  have hLength :=
    (Success.mapM_eq_ok_iff.mp hFound).length_eq
  intro hColumns
  by_cases hMany : 1 < found.length
  · right
    cases hKey : r.primaryKey with
    | some key => simp [insertion, hKey]
    | none =>
        -- without a key and without columns, `rows` refuses
        refine
          absurd ⟨hKey, hLength ▸ hMany, ?_⟩ hDistinct
        intro record hRecord
        rcases Success.exists_result_of_mem hFound hRecord with
          ⟨values, hValues, hRow⟩
        rw [hRow, Sql.Insert.eq_nil_of_columns hColumns hValues]
  · left
    exact Nat.le_of_not_lt hMany

/- Rows are those of records that can be told apart. -/
theorem accepted_of_rows
    (h : rows r now actor items = .ok found) :
    items.mapM (row r now actor) = .ok found ∧
      ¬ Indistinct r now actor items := by
  constructor
  · unfold rows at h
    split at h
    · cases h
    · next hFound =>
        split at h
        · cases h
        · cases h
          exact hFound
  · intro hIndistinct
    rw [rows_of_indistinct hIndistinct] at h
    cases h

/- Rows are read back from the insertion of them. -/
theorem inserted?_insertion
    (hRows : rows r now actor items = .ok found)
    (hSome : items ≠ []) :
    (insertion r found).rows ≠ [] ∧
      (insertion r found).statement.inserted? =
        some (insertion r found).readBack := by
  rcases accepted_of_rows hRows with ⟨hFound, hDistinct⟩
  have hNonempty : found ≠ [] := by
    rintro rfl
    cases Success.mapM_eq_ok_iff.mp hFound
    exact hSome rfl
  exact
    ⟨hNonempty,
      Sql.Insert.inserted?_statement hNonempty
        (told_insertion hFound hDistinct)⟩

------------------------------------------------------------
-- Records kept
------------------------------------------------------------

/-
  What was read back from an insertion keeps records: it names
  no column twice, and has one row for each record in order,
  which gives each column the value that the stamped record
  came to, or the default where the record has none.
-/
structure Keeps
    (r : Resource)
    (now : Timestamp)
    (actor : Option Actor)
    (items : List Record)
    (read : Sql.Inserted) : Prop where
  table : read.table = r.table.name
  columns : read.columns.Nodup
  count : read.rows.length = items.length
  rows :
    List.Forall₂
      (fun record cells =>
        ∃ stamped values,
          r.stampOwner actor record = .ok stamped ∧
            r.insertRow now stamped = .ok values ∧
            ∀ column,
              read.gives cells column = Fields.get? values column)
      items read.rows

/- A record comes to its row once it is stamped. -/
theorem row_eq_ok_iff
    {record : Record}
    {values : Fields Sql.Value} :
    row r now actor record = .ok values ↔
      ∃ stamped,
        r.stampOwner actor record = .ok stamped ∧
          r.insertRow now stamped = .ok values := by
  unfold row
  cases r.stampOwner actor record with
  | error e => simp
  | ok stamped => simp

/- The insertion of rows keeps the records that came to them. -/
theorem keeps_insertion
    (hFound : items.mapM (row r now actor) = .ok found) :
    Keeps r now actor items (insertion r found).readBack where
  table := rfl
  columns := (insertion r found).nodup_named
  count := by
    have hEach := Success.mapM_eq_ok_iff.mp hFound
    simp [Sql.Insert.readBack, insertion, hEach.length_eq]
  rows := by
    have hEach := Success.mapM_eq_ok_iff.mp hFound
    -- the columns of all rows decide how one row is read
    have hMem :=
      (List.forall₂_and_left found items).mpr
        ⟨fun values (h : values ∈ found) => h, hEach.flip⟩
    rw [Sql.Insert.readBack, List.forall₂_map_right_iff]
    refine hMem.flip.imp ?_
    rintro record values ⟨hValues, hRow⟩
    rcases row_eq_ok_iff.mp hRow with
      ⟨stamped, hStamped, hInserted⟩
    exact
      ⟨stamped, values, hStamped, hInserted,
        fun column => Sql.Insert.gives_named hValues column⟩

/- A body that is accepted holds a record. -/
theorem ne_nil_of_records
    {body : Json}
    {many : Bool}
    (h : records body = .ok (items, many)) :
    items ≠ [] := by
  unfold records at h
  split at h
  · cases h
    simp
  · split at h
    · cases h
    · cases h
    · next hSome _ =>
        cases h
        exact hSome
  · cases h

/-
  A creation is refused before anything is sent, or inserts the
  rows of its records first and nothing after them, whatever
  catalog the resource is looked up in.
-/
theorem refuses_or_inserts
    (c : Catalog)
    (baseUrl : String)
    (now : Timestamp)
    (r : Resource)
    (request : Request)
    (body : Json) :
    (∃ e,
      create c baseUrl now r request body = .done (.error e)) ∨
      ∃ items many found,
        records body = .ok (items, many) ∧
          items ≠ [] ∧
          rows r now request.actor items = .ok found ∧
          ∀ (σ : Type) (store : Store σ) (state : σ),
            ∃ call later,
              (create c baseUrl now r request body).sent
                    store state =
                  call :: later ∧
                call.statement.inserted? =
                  some (insertion r found).readBack ∧
                ∀ other ∈ later,
                  other.statement.inserted? = none := by
  cases hRecords : records body with
  | error e => exact .inl ⟨e, by simp [create, hRecords]⟩
  | ok parsed =>
      obtain ⟨items, many⟩ := parsed
      cases hRows : rows r now request.actor items with
      | error e =>
          exact .inl ⟨e, by simp [create, hRecords, hRows]⟩
      | ok found =>
          right
          have hSome := ne_nil_of_records hRecords
          refine ⟨items, many, found, rfl, hSome, hRows, ?_⟩
          intro σ store state
          rcases sent_insertAll_meets
              (P := fun call => call.statement.inserted? = none)
              (fun _ q _ => q.inserted?_select)
              baseUrl request many found store state with
            ⟨call, later, hSent, hCall, hLater⟩
          refine ⟨call, later, ?_, ?_, hLater⟩
          · simpa [create, hRecords, hRows] using hSent
          · rw [hCall]
            exact (inserted?_insertion hRows hSome).2

end Creation

------------------------------------------------------------
-- Resolved catalogs
------------------------------------------------------------

/- Ideas with a title, with a mark alone, and with no title. -/
def Creation.ragged : List Record :=
  [ [("title", .string "a")]
  , [("deleted", .bool true)]
  , [("title", .null)] ]

namespace Catalog.Resolved

open Creation (ragged)

variable {σ : Type}

/-
  Records that are accepted are inserted by one statement that
  keeps all of them.  Only records without any field, of a
  resource without a primary key, are refused if there are
  several.
-/
theorem creation_keeps_records
    (hResolved : c.Resolved)
    (hr : r ∈ c.resources)
    (baseUrl : String)
    (now : Timestamp)
    (request : Request)
    {body : Json}
    {items : List Record}
    {many : Bool}
    (hRecords : Creation.records body = .ok (items, many))
    (hAccepted :
      ∀ record ∈ items, ∃ values,
        Creation.row r now request.actor record = .ok values)
    (store : Store σ)
    (state : σ) :
    (Creation.Indistinct r now request.actor items →
      Creation.create c baseUrl now r request body =
        .done (.error .severalWithoutFields)) ∧
    (¬ Creation.Indistinct r now request.actor items →
      ∃ call later read,
        (Creation.create c baseUrl now r request body).sent
              store state =
            call :: later ∧
          call.statement.inserted? = some read ∧
          (∀ other ∈ later,
            other.statement.inserted? = none) ∧
          Creation.Keeps r now request.actor items read) := by
  constructor
  · intro hIndistinct
    simp [Creation.create, hRecords,
      Creation.rows_of_indistinct hIndistinct]
  · intro hDistinct
    rcases Success.exists_mapM_eq_ok hAccepted with
      ⟨found, hFound⟩
    have hRows := Creation.rows_of_accepted hFound hDistinct
    have hRead :=
      Creation.inserted?_insertion hRows
        (Creation.ne_nil_of_records hRecords)
    rcases Creation.sent_insertAll baseUrl request many found
        store state hResolved.sound hr with
      ⟨call, later, hSent, hCall, hLater⟩
    refine
      ⟨call, later, (Creation.insertion r found).readBack, ?_,
        ?_, ?_, Creation.keeps_insertion hFound⟩
    · simpa [Creation.create, hRecords, hRows] using hSent
    · rw [hCall]
      exact hRead.2
    · intro other hOther
      exact Creation.inserted?_of_reads (hLater other hOther)

/- Ideas with different fields are inserted by one statement. -/
theorem creation_keeps_records_sample :
    ¬ Creation.Indistinct Resource.sample ⟨0, 0, 0⟩ none ragged ∧
      ∃ call later read,
        (Creation.create sample "" ⟨0, 0, 0⟩ Resource.sample
              Request.sample
              (.array (ragged.map .object))).sent
              Store.empty () =
            call :: later ∧
          call.statement.inserted? = some read ∧
          (∀ other ∈ later,
            other.statement.inserted? = none) ∧
          Creation.Keeps Resource.sample ⟨0, 0, 0⟩ none
            ragged read := by
  have hDistinct :
      ¬ Creation.Indistinct Resource.sample ⟨0, 0, 0⟩ none
        ragged := by
    rintro ⟨hKey, _⟩
    cases hKey
  have hRecords :
      Creation.records (.array (ragged.map .object)) =
        .ok (ragged, true) := rfl
  have hAccepted :
      ∀ record ∈ ragged, ∃ values,
        Creation.row Resource.sample ⟨0, 0, 0⟩ none record =
          .ok values := by
    simp only [ragged, List.mem_cons, List.not_mem_nil,
      or_false, forall_eq_or_imp, forall_eq]
    exact ⟨⟨_, rfl⟩, ⟨_, rfl⟩, ⟨_, rfl⟩⟩
  have hKept :=
    creation_keeps_records sample_resolved mem_sample "" ⟨0, 0, 0⟩
      Request.sample hRecords hAccepted Store.empty ()
  exact ⟨hDistinct, hKept.2 hDistinct⟩

end Catalog.Resolved

end RelationalRest
