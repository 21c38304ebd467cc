import RelationalRest.Proofs.Operation.RemovalStatement
import RelationalRest.Proofs.Record.Row

/-
  A creation stamps records with their owner, as the kind of
  the owner column has it, and a removal compares that column
  with the owner as the actor has it.  The two values are the
  same exactly if the kind keeps the owner as it is; where it
  does not, an actor cannot remove what the actor created.

  Key definitions include:
    * `Kind.Keeps`
    * `Sql.Inserted.Stamps`
    * `Removal.Compares`

  Main declarations:
    * `Kind.ofJson_eq_iff`
    * `Removal.compares_owner`
    * `Creation.stamps_insertion`
    * `Catalog.Resolved.owner_kept_iff`
    * `Catalog.exists_owner_lost`
-/

namespace RelationalRest

variable {c : Catalog}
variable {r : Resource}

------------------------------------------------------------
-- Values that kinds keep
------------------------------------------------------------

namespace Kind

/- A kind of columns keeps a JSON value as it is. -/
def Keeps : Kind → Json → Bool
| _, .null => true
| .integer, .number _ => true
| .boolean, .bool _ => true
| .string, .string _ => true
| .oneOf _, .string _ => true
| _, _ => false

/- What a text is read as a number is no text. -/
theorem ne_string_of_number?
    {s : String}
    {v : Sql.Value}
    (h : number? s = some v)
    (t : String) :
    v ≠ .string t := by
  unfold number? at h
  dsimp only at h
  split at h
  · cases h
    simp
  · rcases Option.map_eq_some_iff.mp h with ⟨x, _, rfl⟩
    simp

/- What a number stands for is a number. -/
theorem ofNumber_cases (n : Json.Number) :
    (∃ i, Sql.Value.ofNumber n = .int i) ∨
      ∃ x, Sql.Value.ofNumber n = .float x := by
  unfold Sql.Value.ofNumber
  cases n.int64? with
  | some i => exact .inl ⟨i, rfl⟩
  | none => exact .inr ⟨_, rfl⟩

/-
  A column holds the value that a JSON value has by itself
  exactly if the kind of the column keeps the JSON value.
-/
theorem ofJson_eq_iff
    {k : Kind}
    {v : Json}
    (hAccepts : k.acceptsJson v = true) :
    k.ofJson v = Sql.Value.ofJson v ↔ k.Keeps v = true := by
  cases v with
  | null => cases k <;> simp [ofJson, Sql.Value.ofJson, Keeps]
  | bool b =>
      cases k with
      | boolean => simp [ofJson, Keeps]
      | string => simp [ofJson, Sql.Value.ofJson, Keeps]
      | _ => cases hAccepts
  | number n =>
      -- a column of truth values or of texts holds no number
      rcases ofNumber_cases n with ⟨i, hNumber⟩ | ⟨x, hNumber⟩
      all_goals
        cases k with
        | integer => simp [ofJson, Keeps]
        | boolean =>
            simp [ofJson, Sql.Value.ofJson, Keeps, hNumber]
        | string =>
            simp [ofJson, Sql.Value.ofJson, Keeps, hNumber]
        | _ => cases hAccepts
  | string s =>
      cases k with
      | integer =>
          have hNumber : (number? s).getD .null ≠ .string s := by
            cases hRead : number? s with
            | none => simp
            | some w => exact ne_string_of_number? hRead s
          simpa [ofJson, ofText, Sql.Value.ofJson, Keeps] using
            hNumber
      | timestamp =>
          cases hRead : Timestamp.read? s <;>
            simp [ofJson, ofText, Sql.Value.ofJson, Keeps, hRead]
      | _ => simp [ofJson, ofText, Sql.Value.ofJson, Keeps]
  | array items => cases k <;> cases hAccepts
  | object members => cases k <;> cases hAccepts

end Kind

------------------------------------------------------------
-- Owners created and compared
------------------------------------------------------------

section Owners

variable {now : Timestamp}
variable {actor : Option Actor}
variable {o : Ownership}
variable {owner : Json}
variable {record : Record}
variable {values : Fields Sql.Value}

/- The owner of a sound resource is in one of its columns. -/
theorem Resource.Sound.exists_ownerField
    (hSound : r.Sound)
    (hOwnership : r.ownership = some o) :
    ∃ f, Fields.get? r.owns o.column = some f := by
  have hOwned := hSound.owner o hOwnership
  simpa [ownsColumn, Fields.contains,
    Option.isSome_iff_exists] using hOwned

/- There are rows, and each gives a column this value. -/
def Sql.Inserted.Stamps
    (i : Inserted)
    (column : String)
    (v : Value) : Prop :=
  i.rows ≠ [] ∧ ∀ cells ∈ i.rows, i.gives cells column = some v

/-
  Every removal by an actor sends a statement that, read back
  from its text and its parameters, asks for the key, for this
  value in a column, and for the mark of live records if there
  is one; if the value is present, it is bound next after the
  key.
-/
def Removal.Compares
    (r : Resource)
    (actor : Option Actor)
    (column : String)
    (v : Sql.Value) : Prop :=
  ∀ (text : String) (request : Request),
    request.actor = actor →
      ∀ key value, r.keyValue text = .ok (key, value) →
        ∃ s next,
          remove r text request = .execute s next ∧
            s =
              statement r
                ([.equal (r.column key) value,
                    .equal (r.column column) v] ++
                  r.liveCondition?.toList) ∧
            s.effect? =
              some
                (effect r
                  ([(key, value), (column, v)] ++ live r)) ∧
            (v.isNull = false → s.params[bound r + 1]? = some v)

/- A removal compares the owner column with the bare owner. -/
theorem Removal.compares_owner
    (hOwnership : r.ownership = some o)
    (hOwner : r.ownerOf o actor = .ok owner) :
    Compares r actor o.column (Sql.Value.ofJson owner) := by
  rintro text request rfl key value hKey
  have hConditions :
      conditions r text request.actor =
        .ok
          ([.equal (r.column key) value,
              .equal (r.column o.column)
                (Sql.Value.ofJson owner)] ++
            r.liveCondition?.toList) := by
    simp [conditions, ownerCondition, hKey, hOwnership, hOwner]
  have hHolding :
      [ .equal (r.column key) value
      , .equal (r.column o.column) (Sql.Value.ofJson owner) ] ++
          r.liveCondition?.toList =
        Sql.holding r.table.name
          ((key, value) ::
            (o.column, Sql.Value.ofJson owner) :: live r) := by
    rw [← holding_live]
    rfl
  simp only [remove, hConditions]
  refine ⟨_, _, rfl, rfl, ?_, fun hPresent => ?_⟩
  · rw [hHolding]
    exact effect?_statement r _ _
  · exact
      getElem?_params_second (Resource.isNull_of_keyValue hKey)
        hPresent _

namespace Creation

/- A record comes to a row with its owner, as the column has it. -/
theorem get?_row
    (hOwnership : r.ownership = some o)
    (hOwner : r.ownerOf o actor = .ok owner)
    (hRow : row r now actor record = .ok values)
    (hSound : r.Sound)
    {f : OwnedField}
    (hField : Fields.get? r.owns o.column = some f) :
    f.type.kind.acceptsJson owner = true ∧
      Fields.get? values o.column =
        some (f.type.kind.ofJson owner) := by
  rcases row_eq_ok_iff.mp hRow with
    ⟨stamped, hStamped, hInserted⟩
  have hSent := Resource.get?_stampOwner hOwnership hStamped hOwner
  exact Resource.get?_insertCells hSound.distinct_owns hInserted
    hField hSent

/- The insertion of records stamps all of them with their owner. -/
theorem stamps_insertion
    {items : List Record}
    {found : List (Fields Sql.Value)}
    (hOwnership : r.ownership = some o)
    (hOwner : r.ownerOf o actor = .ok owner)
    (hRows : rows r now actor items = .ok found)
    (hSome : items ≠ [])
    (hSound : r.Sound)
    {f : OwnedField}
    (hField : Fields.get? r.owns o.column = some f) :
    f.type.kind.acceptsJson owner = true ∧
      (insertion r found).readBack.Stamps o.column
        (f.type.kind.ofJson owner) := by
  have hFound := (accepted_of_rows hRows).1
  have hEach :
      ∀ values ∈ found,
        f.type.kind.acceptsJson owner = true ∧
          Fields.get? values o.column =
            some (f.type.kind.ofJson owner) := by
    intro values hValues
    rcases Success.exists_of_mem_results hFound hValues with
      ⟨record, _, hRow⟩
    exact get?_row hOwnership hOwner hRow hSound hField
  have hNonempty := (inserted?_insertion hRows hSome).1
  refine ⟨?_, ?_, ?_⟩
  · rcases List.exists_mem_of_ne_nil found hNonempty with
      ⟨values, hValues⟩
    exact (hEach values hValues).1
  · simpa [Sql.Insert.readBack] using hNonempty
  · intro cells hCells
    rcases List.mem_map.mp hCells with ⟨values, hValues, rfl⟩
    rw [Sql.Insert.gives_named hValues]
    exact (hEach values hValues).2

/- A creation that succeeds has accepted the records of a body. -/
theorem exists_rows_of_created
    {σ : Type}
    {baseUrl : String}
    {request : Request}
    {body : Json}
    {store : Store σ}
    {state : σ}
    {created : Created}
    (h :
      ((create c baseUrl now r request body).run store state).1 =
        .ok created) :
    ∃ items many found,
      records body = .ok (items, many) ∧
        rows r now request.actor items = .ok found := by
  unfold create at h
  cases hRecords : records body with
  | error e => simp [hRecords, Conversation.run] at h
  | ok parsed =>
      obtain ⟨items, many⟩ := parsed
      cases hRows : rows r now request.actor items with
      | error e => simp [hRecords, hRows, Conversation.run] at h
      | ok found => exact ⟨items, many, found, rfl, hRows⟩

/-
  A creation that succeeds has sent an insertion that stamps
  every row with the owner, as the column has it.
-/
theorem exists_stamps_of_created
    {σ : Type}
    (hOwnership : r.ownership = some o)
    {baseUrl : String}
    {request : Request}
    (hOwner : r.ownerOf o request.actor = .ok owner)
    {body : Json}
    {store : Store σ}
    {state : σ}
    {created : Created}
    (hCreated :
      ((create c baseUrl now r request body).run store state).1 =
        .ok created)
    (hSound : c.Sound)
    (hr : r ∈ c.resources)
    {f : OwnedField}
    (hField : Fields.get? r.owns o.column = some f) :
    f.type.kind.acceptsJson owner = true ∧
      ∃ call later read,
        (create c baseUrl now r request body).sent store state =
            call :: later ∧
          call.statement.inserted? = some read ∧
          read.Stamps o.column (f.type.kind.ofJson owner) := by
  rcases exists_rows_of_created hCreated with
    ⟨items, many, found, hRecords, hRows⟩
  have hSome := ne_nil_of_records hRecords
  rcases stamps_insertion hOwnership hOwner hRows hSome
      (hSound.resources r hr) hField with
    ⟨hAccepts, hStamps⟩
  rcases sent_insertAll baseUrl request many found store state
      hSound hr with
    ⟨call, later, hSent, hCall, _⟩
  refine ⟨hAccepts, call, later, _, ?_, ?_, hStamps⟩
  · simpa [create, hRecords, hRows] using hSent
  · rw [hCall]
    exact (inserted?_insertion hRows hSome).2

end Creation

end Owners

------------------------------------------------------------
-- Resolved catalogs
------------------------------------------------------------

/- Notes that belong to the actor whose number they hold. -/
def Declaration.owned : List Declaration :=
  [ { name := "notes"
      table := "note"
      primaryKey := some "id"
      ownership := some ⟨"owner_id", "id"⟩
      fields :=
        [ ("id", { type := .named "int" })
        , ("owner_id", { type := .named "int" })
        , ("text", { type := .named "string" }) ] } ]

/- The catalog of notes. -/
def Catalog.owned : Catalog :=
  (Declaration.resolve Declaration.owned).toOption.getD {}

/- The declaration of notes is accepted. -/
theorem Catalog.owned_resolved : owned.Resolved :=
  ⟨Declaration.owned, owned, rfl, rfl⟩

/- The resource of notes. -/
def Resource.owned : Resource :=
  (Catalog.owned.find? "notes").get rfl

/- The resource of notes is one of the catalog. -/
theorem Catalog.mem_owned : Resource.owned ∈ owned.resources :=
  mem_resources_of_find? (Option.some_get _).symm

/- A request of an actor with this identity. -/
def Request.of (id : Json) : Request where
  path := "/notes"
  params := {}
  actor := some ⟨[("id", id)]⟩

namespace Catalog.Resolved

variable {σ : Type}

/-
  Whoever creates records stamps all of them with one value
  and removes records by comparing with another; they are the
  same exactly if the kind of the owner column keeps the field
  of the actor as it is.
-/
theorem owner_kept_iff
    (hResolved : c.Resolved)
    (hr : r ∈ c.resources)
    {o : Ownership}
    (hOwnership : r.ownership = some o)
    {baseUrl : String}
    {now : Timestamp}
    {request : Request}
    {owner : Json}
    (hOwner : request.actorField? o.actorField = some owner)
    {body : Json}
    {store : Store σ}
    {state : σ}
    {created : Created}
    (hCreated :
      ((Creation.create c baseUrl now r request body).run
        store state).1 = .ok created) :
    ∃ field call later read,
      Fields.get? r.owns o.column = some field ∧
        (Creation.create c baseUrl now r request body).sent
            store state = call :: later ∧
        call.statement.inserted? = some read ∧
        read.Stamps o.column (field.type.kind.ofJson owner) ∧
        Removal.Compares r request.actor o.column
          (Sql.Value.ofJson owner) ∧
        (field.type.kind.ofJson owner = Sql.Value.ofJson owner ↔
          field.type.kind.Keeps owner = true) := by
  have hSound := hResolved.sound
  have hOwner := Resource.ownerOf_eq_ok (r := r) hOwner
  rcases (hSound.resources r hr).exists_ownerField
      hOwnership with
    ⟨field, hField⟩
  rcases Creation.exists_stamps_of_created hOwnership hOwner
      hCreated hSound hr hField with
    ⟨hAccepts, call, later, read, hSent, hRead, hStamps⟩
  exact
    ⟨field, call, later, read, hField, hSent, hRead, hStamps,
      Removal.compares_owner hOwnership hOwner,
      Kind.ofJson_eq_iff hAccepts⟩

/- An actor with a number removes the note that was created. -/
theorem owner_kept_iff_sample :
    (Request.of (.number (.int 7))).actorField? "id" =
        some (.number (.int 7)) ∧
      ∃ field call later read,
        Fields.get? Resource.owned.owns "owner_id" =
            some field ∧
          (Creation.create owned "" ⟨0, 0, 0⟩ Resource.owned
              (Request.of (.number (.int 7)))
              (.object [("text", .string "a")])).sent
              Store.empty () = call :: later ∧
          call.statement.inserted? = some read ∧
          read.Stamps "owner_id"
            (field.type.kind.ofJson (.number (.int 7))) ∧
          Removal.Compares Resource.owned
            (Request.of (.number (.int 7))).actor "owner_id"
            (Sql.Value.ofJson (.number (.int 7))) ∧
          (field.type.kind.ofJson (.number (.int 7)) =
              Sql.Value.ofJson (.number (.int 7)) ↔
            field.type.kind.Keeps (.number (.int 7)) = true) := by
  have hCreated :
      ((Creation.create owned "" ⟨0, 0, 0⟩ Resource.owned
          (Request.of (.number (.int 7)))
          (.object [("text", .string "a")])).run
          Store.empty ()).1 = .ok {} := rfl
  have hKept :=
    owner_kept_iff owned_resolved mem_owned
      (o := ⟨"owner_id", "id"⟩) rfl
      (show (Request.of (.number (.int 7))).actorField? "id" =
        some (.number (.int 7)) from rfl)
      hCreated
  exact ⟨rfl, hKept⟩

end Catalog.Resolved

/-
  An actor whose number is known as a text creates a note with
  the number, and removes notes with the text.
-/
theorem Catalog.exists_owner_lost :
    ∃ call later read,
      (Creation.create owned "" ⟨0, 0, 0⟩ Resource.owned
          (Request.of (.string "7")) (.object [])).sent
          Store.empty () = call :: later ∧
        call.statement.inserted? = some read ∧
        read.Stamps "owner_id" (.int 7) ∧
        Removal.Compares Resource.owned
          (Request.of (.string "7")).actor "owner_id"
          (.string "7") ∧
        Sql.Value.int 7 ≠ .string "7" := by
  have hCreated :
      ((Creation.create owned "" ⟨0, 0, 0⟩ Resource.owned
          (Request.of (.string "7")) (.object [])).run
          Store.empty ()).1 = .ok {} := rfl
  have hField :
      Fields.get? Resource.owned.owns "owner_id" =
        some
          { type := .value .integer
            props := {}
            initial := none } := rfl
  rcases Creation.exists_stamps_of_created
      (o := ⟨"owner_id", "id"⟩) rfl rfl hCreated
      owned_resolved.sound mem_owned hField with
    ⟨-, call, later, read, hSent, hRead, hStamps⟩
  have hCompares :
      Removal.Compares Resource.owned
        (Request.of (.string "7")).actor "owner_id"
        (Sql.Value.ofJson (.string "7")) :=
    Removal.compares_owner (o := ⟨"owner_id", "id"⟩) rfl rfl
  exact
    ⟨call, later, read, hSent, hRead, hStamps, hCompares,
      by simp⟩

end RelationalRest
