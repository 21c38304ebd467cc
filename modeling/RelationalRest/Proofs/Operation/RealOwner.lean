import RelationalRest.Proofs.Operation.Removal

/-
  Whom an operation on owned records acts for.  Without an
  actor who has the field that records are owned by, nothing
  is sent.  With one, a removal compares the owner column with
  a value that is bound, and a creation stamps records with a
  value that is present, exactly if the field is not the absent
  JSON value.  If it is that, a removal asks for records that
  have no owner, and records are created without one.

  Key definitions include:
    * `Removal.beforeOwner`
    * `Removal.ForOwner`
    * `Removal.ForNobody`
    * `Removal.owned`
    * `Removal.ActsFor`
    * `Creation.ActsFor`

  Main declarations:
    * `Removal.sql_owned`
    * `Removal.forOwner_iff`
    * `Removal.forNobody_iff`
    * `Removal.owner_cases`
    * `Creation.refuses_or_acts`
    * `Creation.owner_cases`
    * `Catalog.Resolved.real_owner_iff`
    * `Catalog.exists_nobody`
-/

namespace RelationalRest

variable {c : Catalog}
variable {r : Resource}
variable {o : Ownership}
variable {owner : Json}
variable {key : String}

------------------------------------------------------------
-- Whom a removal acts for
------------------------------------------------------------

namespace Removal

variable {value v : Sql.Value}
variable {s : Sql.Statement}

/-
  The text of a removal up to its owner column: the opening,
  and the comparison of the key with the value that is bound
  for it.
-/
def beforeOwner
    (r : Resource)
    (key : String)
    (o : Ownership) : String :=
  opening r ++ " WHERE " ++ (r.column key).written ++ " = $" ++
    toString (bound r + 1) ++ " AND " ++ (r.column o.column).written

/-
  A removal acts for an owner: it compares the owner column
  with a value that is present and bound.
-/
def ForOwner
    (r : Resource)
    (key : String)
    (o : Ownership)
    (v : Sql.Value)
    (s : Sql.Statement) : Prop :=
  v.isNull = false ∧ s.params[bound r + 1]? = some v ∧
    ∃ rest, Sql.EndsCondition rest ∧
      s.sql =
        beforeOwner r key o ++
          (" = $" ++ toString (bound r + 2) ++ rest)

/- A removal acts for nobody: it asks for records without owner. -/
def ForNobody
    (r : Resource)
    (key : String)
    (o : Ownership)
    (s : Sql.Statement) : Prop :=
  ∃ rest, Sql.EndsCondition rest ∧
    s.sql = beforeOwner r key o ++ (" IS NULL" ++ rest)

/- No removal acts for an owner and for nobody. -/
theorem ForOwner.not_forNobody
    (h : ForOwner r key o v s) :
    ¬ ForNobody r key o s := by
  rintro ⟨rest', _, hNobody⟩
  rcases h with ⟨_, _, rest, _, hOwner⟩
  have hSame := congrArg String.toList (hOwner.symm.trans hNobody)
  -- after the owner column, one goes on with a sign, one with a word
  simp at hSame

/- The statement that removes a record by its key and its owner. -/
def owned
    (r : Resource)
    (key : String)
    (value : Sql.Value)
    (o : Ownership)
    (v : Sql.Value)
    (later : List Sql.Condition) : Sql.Statement :=
  statement r
    (.equal (r.column key) value ::
      .equal (r.column o.column) v :: later)

/- What follows the owner column shows if the owner is present. -/
theorem sql_owned
    (hKey : value.isNull = false)
    (later : List Sql.Condition) :
    (owned r key value o v later).sql =
      beforeOwner r key o ++
        (if v.isNull then
          " IS NULL" ++
            Sql.textFrom (bound r + 1) (Sql.laterPieces later)
        else
          " = $" ++ toString (bound r + 2) ++
            Sql.textFrom (bound r + 2) (Sql.laterPieces later)) := by
  rw [owned, sql_statement, Sql.wherePieces_cons,
    Sql.laterPieces_cons]
  simp only [List.cons_append, Sql.textFrom, Sql.textFrom_equal,
    hKey, Bool.false_eq_true, if_false, beforeOwner,
    String.append_assoc]

/- The owner is bound next after the key, if it is present. -/
theorem params_owned
    (hKey : value.isNull = false)
    (hOwner : v.isNull = false)
    (later : List Sql.Condition) :
    (owned r key value o v later).params[bound r + 1]? =
      some v :=
  getElem?_params_second hKey hOwner later

/- A removal acts for its owner exactly if that is present. -/
theorem forOwner_iff
    (hKey : value.isNull = false)
    (later : List Sql.Condition) :
    ForOwner r key o v (owned r key value o v later) ↔
      v.isNull = false := by
  constructor
  · exact fun h => h.1
  · intro hOwner
    refine ⟨hOwner, params_owned hKey hOwner later, _,
      Sql.endsCondition_laterPieces (bound r + 2) later, ?_⟩
    simpa [hOwner] using
      sql_owned (o := o) (v := v) hKey later

/- A removal acts for nobody exactly if its owner is absent. -/
theorem forNobody_iff
    (hKey : value.isNull = false)
    (later : List Sql.Condition) :
    ForNobody r key o (owned r key value o v later) ↔
      v.isNull = true := by
  constructor
  · intro hNobody
    by_contra hPresent
    have hOwner : v.isNull = false := by simpa using hPresent
    have hFor :
        ForOwner r key o v (owned r key value o v later) :=
      (forOwner_iff hKey later).mpr hOwner
    exact hFor.not_forNobody hNobody
  · intro hAbsent
    refine ⟨_,
      Sql.endsCondition_laterPieces (bound r + 1) later, ?_⟩
    simpa [hAbsent] using
      sql_owned (o := o) (v := v) hKey later

/- Where records have owners, the actor is one or is refused. -/
theorem exists_owner_of_ownerCondition
    {request : Request}
    {found : List Sql.Condition}
    (hOwnership : r.ownership = some o)
    (h : ownerCondition r request.actor = .ok found) :
    ∃ owner,
      request.actorField? o.actorField = some owner ∧
        found =
          [.equal (r.column o.column) (Sql.Value.ofJson owner)] := by
  rcases ownerCondition_cases h with
    ⟨hNone, _⟩ | ⟨o', owner, hSome, hOwner, hFound⟩
  · rw [hNone] at hOwnership
    cases hOwnership
  · cases hOwnership.symm.trans hSome
    exact ⟨owner, Resource.ownerOf_eq_ok_iff.mp hOwner, hFound⟩

/-
  What a removal sends for a field of its actor: one statement,
  which acts for the owner exactly if the field is not the
  absent JSON value, and for nobody exactly if it is.
-/
def ActsFor
    (r : Resource)
    (o : Ownership)
    (owner : Json)
    (sent : List Call) : Prop :=
  ∃ key s,
    r.primaryKey = some key ∧
      sent = [.change s] ∧
      (ForOwner r key o (Sql.Value.ofJson owner) s ↔
        owner ≠ .null) ∧
      (ForNobody r key o s ↔ owner = .null)

/-
  A removal of an owned record is refused before anything is
  sent, or acts for the field of the actor.
-/
theorem owner_cases
    {σ : Type}
    (hOwnership : r.ownership = some o)
    (text : String)
    (request : Request)
    (store : Store σ)
    (state : σ) :
    (∃ e, remove r text request = .done (.error e)) ∨
      ∃ owner,
        request.actorField? o.actorField = some owner ∧
          ActsFor r o owner
            ((remove r text request).sent store state) := by
  cases hFound : conditions r text request.actor with
  | error e => exact .inl ⟨e, by simp [remove, hFound]⟩
  | ok found =>
      right
      rcases conditions_eq_ok_iff.mp hFound with
        ⟨key, value, condition, hKey, hCondition, rfl⟩
      rcases exists_owner_of_ownerCondition hOwnership hCondition
        with ⟨owner, hOwner, rfl⟩
      rcases Resource.keyKind_of_keyValue hKey with ⟨kind, hKind⟩
      have hPresent := Resource.isNull_of_keyValue hKey
      refine ⟨owner, hOwner, key, _,
        Resource.primaryKey_of_keyKind hKind,
        sent_remove hFound store state, ?_, ?_⟩
      · rw [Ne, ← Sql.Value.isNull_ofJson_iff,
          Bool.not_eq_true]
        exact forOwner_iff hPresent _
      · rw [← Sql.Value.isNull_ofJson_iff]
        exact forNobody_iff hPresent _

end Removal

------------------------------------------------------------
-- Whom a creation stamps records with
------------------------------------------------------------

namespace Creation

/- Rows of owned records have an owner. -/
theorem exists_owner_of_rows
    {now : Timestamp}
    {request : Request}
    {items : List Record}
    {found : List (Fields Sql.Value)}
    (hOwnership : r.ownership = some o)
    (hRows : rows r now request.actor items = .ok found)
    (hSome : items ≠ []) :
    ∃ owner, request.actorField? o.actorField = some owner := by
  rcases List.exists_mem_of_ne_nil items hSome with
    ⟨record, hRecord⟩
  rcases Success.exists_result_of_mem (accepted_of_rows hRows).1
      hRecord with ⟨values, _, hRow⟩
  rcases row_eq_ok_iff.mp hRow with ⟨stamped, hStamped, _⟩
  rcases Resource.exists_owner_of_stampOwner hOwnership hStamped
    with ⟨owner, hOwner⟩
  exact ⟨owner, Resource.ownerOf_eq_ok_iff.mp hOwner⟩

/-
  What a creation sends for a field of its actor: an insertion,
  which stamps all records with what the owner column makes of
  the field, and nothing that inserts after it.  The stamp is
  present exactly if the field is not the absent JSON value.
-/
def ActsFor
    (r : Resource)
    (o : Ownership)
    (owner : Json)
    (sent : List Call) : Prop :=
  ∃ field call later read,
    Fields.get? r.owns o.column = some field ∧
      sent = call :: later ∧
      (∀ other ∈ later, other.statement.inserted? = none) ∧
      call.statement.inserted? = some read ∧
      read.Stamps o.column (field.type.kind.ofJson owner) ∧
      ((field.type.kind.ofJson owner).isNull = false ↔
        owner ≠ .null)

/-
  A creation of owned records is refused before anything is
  sent, or acts for the field of the actor, whatever catalog
  the resource is looked up in.
-/
theorem refuses_or_acts
    (hOwned : r.Sound)
    (hOwnership : r.ownership = some o)
    (c : Catalog)
    (baseUrl : String)
    (now : Timestamp)
    (request : Request)
    (body : Json) :
    (∃ e,
      create c baseUrl now r request body = .done (.error e)) ∨
      ∃ owner,
        request.actorField? o.actorField = some owner ∧
          ∀ (σ : Type) (store : Store σ) (state : σ),
            ActsFor r o owner
              ((create c baseUrl now r request body).sent
                store state) := by
  rcases refuses_or_inserts c baseUrl now r request body with
    hRefused |
      ⟨items, many, found, hRecords, hSome, hRows, hSends⟩
  · exact .inl hRefused
  · right
    rcases exists_owner_of_rows hOwnership hRows hSome with
      ⟨owner, hOwner⟩
    rcases hOwned.exists_ownerField hOwnership with
      ⟨field, hField⟩
    rcases stamps_insertion hOwnership
        (Resource.ownerOf_eq_ok hOwner) hRows hSome hOwned
        hField with
      ⟨hAccepts, hStamps⟩
    refine ⟨owner, hOwner, fun σ store state => ?_⟩
    rcases hSends σ store state with
      ⟨call, later, hSent, hRead, hLater⟩
    refine
      ⟨field, call, later, _, hField, hSent, hLater, hRead,
        hStamps, ?_⟩
    rw [Ne, ← Kind.isNull_ofJson_iff hAccepts, Bool.not_eq_true]

/-
  A creation of owned records is refused before anything is
  sent, or acts for the field of the actor.
-/
theorem owner_cases
    {σ : Type}
    (hSound : c.Sound)
    (hr : r ∈ c.resources)
    (hOwnership : r.ownership = some o)
    (baseUrl : String)
    (now : Timestamp)
    (request : Request)
    (body : Json)
    (store : Store σ)
    (state : σ) :
    (∃ e,
      create c baseUrl now r request body = .done (.error e)) ∨
      ∃ owner,
        request.actorField? o.actorField = some owner ∧
          ActsFor r o owner
            ((create c baseUrl now r request body).sent
              store state) := by
  rcases refuses_or_acts (hSound.resources r hr) hOwnership c
      baseUrl now request body with
    hRefused | ⟨owner, hOwner, hActs⟩
  · exact .inl hRefused
  · exact .inr ⟨owner, hOwner, hActs σ store state⟩

end Creation

------------------------------------------------------------
-- Resolved catalogs
------------------------------------------------------------

namespace Catalog.Resolved

variable {σ : Type}

/-
  Over a resolved catalog, removals and creations of owned
  records are refused before anything is sent, or act for the
  field of the actor that records are owned by: for a present
  and bound owner exactly if that field is not the absent JSON
  value, and for nobody otherwise.
-/
theorem real_owner_iff
    (hResolved : c.Resolved)
    (hr : r ∈ c.resources)
    (hOwnership : r.ownership = some o)
    (baseUrl : String)
    (now : Timestamp)
    (text : String)
    (request : Request)
    (body : Json)
    (store : Store σ)
    (state : σ) :
    ((∃ e, Removal.remove r text request = .done (.error e)) ∨
        ∃ owner,
          request.actorField? o.actorField = some owner ∧
            Removal.ActsFor r o owner
              ((Removal.remove r text request).sent store state)) ∧
      ((∃ e,
          Creation.create c baseUrl now r request body =
            .done (.error e)) ∨
        ∃ owner,
          request.actorField? o.actorField = some owner ∧
            Creation.ActsFor r o owner
              ((Creation.create c baseUrl now r request body).sent
                store state)) :=
  ⟨Removal.owner_cases hOwnership text request store state,
    Creation.owner_cases hResolved.sound hr hOwnership baseUrl now
      request body store state⟩

/- An actor with a number removes and creates notes as such. -/
theorem real_owner_iff_sample :
    Resource.owned.ownership = some ⟨"owner_id", "id"⟩ ∧
      Removal.ActsFor Resource.owned ⟨"owner_id", "id"⟩
        (.number (.int 7))
        ((Removal.remove Resource.owned "1"
          (Request.of (.number (.int 7)))).sent
            Store.obliging ()) ∧
      Creation.ActsFor Resource.owned ⟨"owner_id", "id"⟩
        (.number (.int 7))
        ((Creation.create owned "" ⟨0, 0, 0⟩ Resource.owned
          (Request.of (.number (.int 7)))
          (.object [("text", .string "a")])).sent
            Store.obliging ()) := by
  have hOwnership :
      Resource.owned.ownership = some ⟨"owner_id", "id"⟩ := rfl
  rcases real_owner_iff owned_resolved mem_owned hOwnership ""
      ⟨0, 0, 0⟩ "1" (Request.of (.number (.int 7)))
      (.object [("text", .string "a")]) Store.obliging () with
    ⟨hRemoval, hCreation⟩
  refine ⟨hOwnership, ?_, ?_⟩
  · rcases hRemoval with ⟨e, hRefused⟩ | ⟨owner, hOwner, hActs⟩
    · cases hRefused
    · cases hOwner
      exact hActs
  · rcases hCreation with ⟨e, hRefused⟩ | ⟨owner, hOwner, hActs⟩
    · cases hRefused
    · cases hOwner
      exact hActs

end Catalog.Resolved

/-
  An actor whose number is the absent JSON value removes a note
  that has no owner, and creates one without an owner.
-/
theorem Catalog.exists_nobody :
    ∃ s call later read,
      (Removal.remove Resource.owned "1"
          (Request.of .null)).sent Store.obliging () =
            [.change s] ∧
        s.sql =
          "DELETE FROM \"note\" WHERE \"note\".\"id\" = $1" ++
            " AND \"note\".\"owner_id\" IS NULL" ∧
        (Creation.create owned "" ⟨0, 0, 0⟩ Resource.owned
          (Request.of .null)
          (.object [("text", .string "a")])).sent
            Store.obliging () = call :: later ∧
        call.statement.inserted? = some read ∧
        read.Stamps "owner_id" .null := by
  have hOwnership :
      Resource.owned.ownership = some ⟨"owner_id", "id"⟩ := rfl
  rcases Creation.owner_cases owned_resolved.sound mem_owned
      hOwnership "" ⟨0, 0, 0⟩ (Request.of .null)
      (.object [("text", .string "a")]) Store.obliging () with
    ⟨e, hRefused⟩ | ⟨owner, hOwner, hActs⟩
  · cases hRefused
  · cases hOwner
    rcases hActs with
      ⟨field, call, later, read, _, hSent, _, hRead, hStamps, _⟩
    have hNull : field.type.kind.ofJson .null = .null := by
      simp [Kind.ofJson]
    rw [hNull] at hStamps
    exact ⟨_, call, later, read, rfl, by rfl, hSent, hRead, hStamps⟩

end RelationalRest
