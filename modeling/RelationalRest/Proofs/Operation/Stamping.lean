import RelationalRest.Proofs.Operation.RealOwner

/-
  The owner of created records cannot be forged.  Every row
  that is inserted has the owner that the actor is, whatever
  the body says; a record that names another owner has the
  whole body refused, unless an earlier record has; without an
  owner nothing is created; and a stamp changes nothing else of
  a record.

  Key definitions include:
    * `Creation.Lists`
    * `Creation.KeepsOwner`

  Main declarations:
    * `Creation.records_of_lists`
    * `Creation.exists_error_of_namesOther`
    * `Creation.create_of_nobody`
    * `ResourceDraft.owner_unforged`
-/

namespace RelationalRest

variable {c : Catalog}
variable {r : Resource}
variable {o : Ownership}
variable {owner : Json}
variable {now : Timestamp}
variable {request : Request}
variable {body : Json}
variable {items : List Record}

namespace Creation

------------------------------------------------------------
-- Bodies of records
------------------------------------------------------------

/- A body is one record, or a list of records that is not empty. -/
inductive Lists : List Record → Json → Prop
| one (record : Record) : Lists [record] (.object record)
| several
    {items : List Record}
    (hSome : items ≠ []) :
    Lists items (.array (items.map .object))

/- A body of records is read as these records. -/
theorem records_of_lists (h : Lists items body) :
    ∃ many, records body = .ok (items, many) := by
  cases h with
  | one record => exact ⟨false, rfl⟩
  | several hSome =>
      have hItems :
          (items.map Json.object).mapM recordOf = .ok items := by
        rw [Success.mapM_eq_ok_iff, List.forall₂_map_left_iff,
          List.forall₂_same]
        exact fun record _ => rfl
      refine ⟨true, ?_⟩
      cases items with
      | nil => exact absurd rfl hSome
      | cons first rest => simp only [records, hItems]

/- A body of records holds one. -/
theorem Lists.ne_nil (h : Lists items body) : items ≠ [] := by
  cases h with
  | one record => simp
  | several hSome => exact hSome

------------------------------------------------------------
-- Records that are refused
------------------------------------------------------------

/- A record that comes to no row has the whole body refused. -/
theorem exists_error_of_row
    {record : Record}
    {before after : List Record}
    {e : RequestError}
    (hBody : Lists items body)
    (hItems : items = before ++ record :: after)
    (hRow : row r now request.actor record = .error e)
    (c : Catalog)
    (baseUrl : String) :
    ∃ e',
      create c baseUrl now r request body = .done (.error e') ∧
        (e' = e ∨
          ∃ other ∈ before,
            row r now request.actor other = .error e') := by
  rcases records_of_lists hBody with ⟨many, hRecords⟩
  rcases Success.exists_error_of_mapM hRow before after with
    ⟨e', hFailed, hCause⟩
  rw [← hItems] at hFailed
  exact ⟨e', by simp [create, hRecords, rows, hFailed], hCause⟩

/- A record that names another owner has the body refused. -/
theorem exists_error_of_namesOther
    {record : Record}
    {before after : List Record}
    (hBody : Lists items body)
    (hItems : items = before ++ record :: after)
    (hOwnership : r.ownership = some o)
    (hOwner : request.actorField? o.actorField = some owner)
    (hOther : record.NamesOther o.column owner)
    (c : Catalog)
    (now : Timestamp)
    (baseUrl : String) :
    ∃ e,
      create c baseUrl now r request body = .done (.error e) ∧
        (e = .foreignOwner ∨
          ∃ other ∈ before,
            row r now request.actor other = .error e) := by
  have hStamp :=
    Resource.stampOwner_of_namesOther hOwnership
      (Resource.ownerOf_eq_ok hOwner) hOther
  have hRow :
      row r now request.actor record = .error .foreignOwner := by
    simp [row, hStamp]
  exact exists_error_of_row hBody hItems hRow c baseUrl

/- Without an owner the whole body is refused for that. -/
theorem create_of_nobody
    (hBody : Lists items body)
    (hOwnership : r.ownership = some o)
    (hNobody : request.actorField? o.actorField = none)
    (c : Catalog)
    (now : Timestamp)
    (baseUrl : String) :
    create c baseUrl now r request body =
      .done (.error (.ownerRequired r.name)) := by
  obtain ⟨first, rest, hFirst⟩ :=
    List.exists_cons_of_ne_nil hBody.ne_nil
  have hItems : items = [] ++ first :: rest := hFirst
  have hStamp :=
    Resource.stampOwner_of_error hOwnership
      (Resource.ownerOf_eq_error hNobody) first
  have hRow :
      row r now request.actor first =
        .error (.ownerRequired r.name) := by
    simp [row, hStamp]
  -- no record stands before the first, so its error is the one
  rcases exists_error_of_row hBody hItems hRow c baseUrl with
    ⟨e, hRefused, rfl | ⟨other, hOther, _⟩⟩
  · exact hRefused
  · exact absurd hOther List.not_mem_nil

------------------------------------------------------------
-- Owners kept
------------------------------------------------------------

/-
  What a creation of owned records does about their owner: it
  is refused or sends one insertion, which gives every row the
  owner as the column has it; a record that names another owner
  is a wrong argument, unless an earlier record is refused; no
  actor without the field is authorized; and of the records
  only the owner is changed.
-/
structure KeepsOwner
    (r : Resource)
    (o : Ownership)
    (now : Timestamp)
    (request : Request)
    (items : List Record)
    (talk : Conversation (Except RequestError Created)) :
    Prop where
  inserted :
    (∃ e, talk = .done (.error e)) ∨
      ∃ owner,
        request.actorField? o.actorField = some owner ∧
          ∀ (σ : Type) (store : Store σ) (state : σ),
            ActsFor r o owner (talk.sent store state)
  foreign :
    ∀ owner before record after,
      request.actorField? o.actorField = some owner →
        items = before ++ record :: after →
          record.NamesOther o.column owner →
            ∃ e, talk = .done (.error e) ∧
              (e = .foreignOwner ∧
                  e.errorClass = .invalidArgument ∨
                ∃ other ∈ before,
                  row r now request.actor other = .error e)
  nobody :
    request.actorField? o.actorField = none →
      ∃ e, talk = .done (.error e) ∧
        e = .ownerRequired r.name ∧ e.errorClass = .unauthorized
  others :
    ∀ record stamped : Record,
      r.stampOwner request.actor record = .ok stamped →
        (∀ name, name ≠ o.column →
          Fields.get? stamped name = Fields.get? record name) ∧
        stamped.filter (fun entry => entry.1 ≠ o.column) =
          record.filter fun entry => entry.1 ≠ o.column

/- A stamp leaves the other members of a record as they are. -/
theorem others_of_stampOwner
    {actor : Option Actor}
    {record stamped : Record}
    (hOwnership : r.ownership = some o)
    (h : r.stampOwner actor record = .ok stamped) :
    (∀ name, name ≠ o.column →
      Fields.get? stamped name = Fields.get? record name) ∧
      stamped.filter (fun entry => entry.1 ≠ o.column) =
        record.filter fun entry => entry.1 ≠ o.column := by
  rcases (Resource.stampOwner_eq_ok_iff hOwnership).mp h with
    ⟨owner, _, _, rfl⟩
  let keeps (name : String) : Bool := name ≠ o.column
  have hColumn : keeps o.column = false := by simp [keeps]
  exact
    ⟨fun name hName => Fields.get?_insert_of_ne record owner hName,
      Fields.filter_insert record hColumn owner⟩

end Creation

------------------------------------------------------------
-- Notes
------------------------------------------------------------

/-
  A draft of notes that belong to the actor whose number they
  hold in a column with these properties.
-/
def ResourceDraft.notes (ofOwner : Props) : ResourceDraft where
  name := "notes"
  table := { name := "note" }
  pathSegment := "notes"
  primaryKey := some "id"
  softDelete := none
  ownership := some ⟨"owner_id", "id"⟩
  keepColumn := none
  hidden := []
  fields :=
    [ ("id",
        { type := .value .integer
          props := {}
          initial := none
          relation := none })
    , ("owner_id",
        { type := .value .integer
          props := ofOwner
          initial := none
          relation := none })
    , ("text",
        { type := .value .string
          props := {}
          initial := none
          relation := none }) ]

/- The resource of notes. -/
def Resource.notes (ofOwner : Props) : Resource :=
  (ResourceDraft.notes ofOwner).check.toOption.get rfl

/- The draft of notes is accepted. -/
theorem ResourceDraft.check_notes (ofOwner : Props) :
    (notes ofOwner).check = .ok (Resource.notes ofOwner) :=
  rfl

------------------------------------------------------------
-- Accepted drafts
------------------------------------------------------------

namespace ResourceDraft

/-
  Where a draft with an owner column is accepted, the creation
  of any records keeps their owner, whoever asks for it.
-/
theorem owner_unforged
    {d : ResourceDraft}
    (hFields : d.fields.Distinct)
    (hCheck : d.check = .ok r)
    (hOwnership : r.ownership = some o)
    (c : Catalog)
    (baseUrl : String)
    (now : Timestamp)
    (request : Request)
    (hBody : Creation.Lists items body) :
    Creation.KeepsOwner r o now request items
      (Creation.create c baseUrl now r request body) where
  inserted :=
    Creation.refuses_or_acts (sound_of_check hFields hCheck)
      hOwnership c baseUrl now request body
  foreign := by
    intro owner before record after hOwner hItems hOther
    rcases Creation.exists_error_of_namesOther hBody hItems
        hOwnership hOwner hOther c now baseUrl with
      ⟨e, hRefused, hOwn | hEarlier⟩
    · exact ⟨e, hRefused, .inl ⟨hOwn, by rw [hOwn]; rfl⟩⟩
    · exact ⟨e, hRefused, .inr hEarlier⟩
  nobody := by
    intro hNobody
    exact
      ⟨_, Creation.create_of_nobody hBody hOwnership hNobody c now
        baseUrl, rfl, rfl⟩
  others := by
    intro record stamped hStamped
    exact Creation.others_of_stampOwner hOwnership hStamped

/-
  Two notes of an actor are inserted as the actor's own, though
  the second names the actor, and refused if it names another.
-/
theorem owner_unforged_sample :
    (notes {}).fields.Distinct ∧
      (notes {}).check = .ok (Resource.notes {}) ∧
      (Resource.notes {}).ownership = some ⟨"owner_id", "id"⟩ ∧
      Creation.ActsFor (Resource.notes {}) ⟨"owner_id", "id"⟩
        (.number (.int 7))
        ((Creation.create {} "" ⟨0, 0, 0⟩ (Resource.notes {})
          (Request.of (.number (.int 7)))
          (.array
            [.object [("text", .string "a")],
              .object [("owner_id", .number (.int 7))]])).sent
          Store.obliging ()) ∧
      ∃ e : RequestError,
        Creation.create {} "" ⟨0, 0, 0⟩ (Resource.notes {})
            (Request.of (.number (.int 7)))
            (.array
              [.object [("text", .string "a")],
                .object [("owner_id", .number (.int 9))]]) =
          .done (.error e) := by
  have hFields : (notes {}).fields.Distinct := by decide
  have hBody (given : Json) :
      Creation.Lists
        [[("text", .string "a")], [("owner_id", given)]]
        (.array
          [.object [("text", .string "a")],
            .object [("owner_id", given)]]) :=
    .several (by simp)
  have hKeeps (given : Json) :=
    owner_unforged hFields (check_notes {}) (o := ⟨"owner_id", "id"⟩)
      rfl {} "" ⟨0, 0, 0⟩ (Request.of (.number (.int 7)))
      (hBody given)
  refine ⟨hFields, check_notes {}, rfl, ?_, ?_⟩
  · rcases (hKeeps (.number (.int 7))).inserted with ⟨e, hRefused⟩ | ⟨owner, hOwner, hActs⟩
    · cases hRefused
    · cases hOwner
      exact hActs Unit Store.obliging ()
  · rcases (hKeeps (.number (.int 9))).foreign (.number (.int 7))
        [[("text", .string "a")]] [("owner_id", .number (.int 9))] []
        rfl rfl ⟨.number (.int 9), rfl, rfl⟩ with
      ⟨e, hRefused, _⟩
    exact ⟨e, hRefused⟩

end ResourceDraft

end RelationalRest
