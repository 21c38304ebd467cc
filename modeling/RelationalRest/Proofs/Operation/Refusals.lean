import RelationalRest.Operation.Creation
import RelationalRest.Operation.Removal
import RelationalRest.Proofs.Listing.Scope
import RelationalRest.Proofs.Record.Admission

/-
  What operations refuse before they send anything: a key, a
  record, a body or an actor.  The error is always a refusal,
  and never an error of the declared resources.

  Key definitions include:
    * `Answered`
    * `Refusing`

  Main declarations:
    * `Resource.refusing_keyValue`
    * `Creation.refusing_records`
    * `Creation.refusing_rows`
    * `Removal.conditions_eq_ok_iff`
    * `Removal.refusing_conditions`
-/

namespace RelationalRest

------------------------------------------------------------
-- Results without internal errors
------------------------------------------------------------

/- A result that is no internal error. -/
def Answered
    {α : Type} : Except RequestError α → Prop
| .ok _ => True
| .error e => e.External

/- A result is no internal error. -/
theorem Answered.ne_error
    {α : Type}
    {result : Except RequestError α}
    {e : RequestError}
    (h : Answered result)
    (hInternal : e.Internal) :
    result ≠ .error e := by
  rintro rfl
  exact h hInternal

/- A result whose error, if there is one, is a refusal. -/
def Refusing
    {α : Type} : Except RequestError α → Prop :=
  RequestError.Answers fun _ => True

/- A computation for each item has no error of its own. -/
theorem refusing_mapM
    {α β : Type}
    {f : α → Except RequestError β}
    {items : List α}
    (h : ∀ a ∈ items, Refusing (f a)) :
    Refusing (items.mapM f) := by
  induction items with
  | nil => exact trivial
  | cons a items ih =>
      have hHead := h a List.mem_cons_self
      have hRest :=
        ih fun b hb => h b (List.mem_cons_of_mem a hb)
      rw [List.mapM_cons]
      cases hResult : f a with
      | error e => exact hHead.refusal hResult
      | ok b =>
          cases hResults : items.mapM f with
          | error e => exact hRest.refusal hResults
          | ok results => exact trivial

------------------------------------------------------------
-- Keys, cells and owners
------------------------------------------------------------

namespace Resource

/- A resource without a key is asked for a key in vain. -/
theorem refusing_keyKind (r : Resource) :
    Refusing r.keyKind := by
  unfold keyKind
  cases r.primaryKey with
  | none => exact ⟨trivial, id⟩
  | some key =>
      cases hType : Fields.get? r.types key with
      | none =>
          simp only [hType]
          exact ⟨trivial, id⟩
      | some type =>
          simp only [hType]
          exact trivial

/- A key text is refused for a fault of it. -/
theorem refusing_keyValue
    (r : Resource)
    (text : String) :
    Refusing (r.keyValue text) := by
  have hKind := r.refusing_keyKind
  unfold keyValue
  cases hFound : r.keyKind with
  | error e => exact hKind.refusal hFound
  | ok found =>
      obtain ⟨key, kind⟩ := found
      by_cases hText : text ≠ "" ∧ kind.acceptsText text = true
      · simp only [if_pos hText]
        exact trivial
      · simp only [if_neg hText]
        exact ⟨trivial, id⟩

/- A column offends by a fault of the record. -/
theorem Offends.refusal
    {now : Timestamp}
    {record : Record}
    {column : String × OwnedField}
    {e : RequestError}
    (h : Offends now record column e) :
    e.Refusal := by
  cases h with
  | missing => exact ⟨trivial, id⟩
  | readOnly => exact ⟨trivial, id⟩
  | invalid => exact ⟨trivial, id⟩

/- The values of columns are refused for a fault of one. -/
theorem refusing_insertCells
    (now : Timestamp)
    (record : Record)
    (fields : Fields OwnedField) :
    Refusing (insertCells now record fields) := by
  cases hFound : insertCells now record fields with
  | ok values => exact trivial
  | error e =>
      rcases insertCells_eq_error_iff.mp hFound with
        ⟨_, _, _, _, _, hOffends⟩
      exact hOffends.refusal

/- An actor without the field that owns records is refused. -/
theorem refusing_ownerOf
    (r : Resource)
    (o : Ownership)
    (actor : Option Actor) :
    Refusing (r.ownerOf o actor) := by
  unfold ownerOf
  split
  · exact trivial
  · exact ⟨trivial, id⟩

/- A record is stamped, or refused for its owner. -/
theorem refusing_stampOwner
    (r : Resource)
    (actor : Option Actor)
    (record : Record) :
    Refusing (r.stampOwner actor record) := by
  unfold stampOwner
  cases r.ownership with
  | none => exact trivial
  | some o =>
      have hOwner := refusing_ownerOf r o actor
      cases hFound : r.ownerOf o actor with
      | error e =>
          simp only [hFound]
          exact hOwner.refusal hFound
      | ok owner =>
          simp only [hFound]
          split
          · split
            · exact trivial
            · exact ⟨trivial, id⟩
          · exact trivial

end Resource

------------------------------------------------------------
-- Bodies
------------------------------------------------------------

namespace Creation

/- The records of a body are refused for its form. -/
theorem refusing_records (body : Json) :
    Refusing (records body) := by
  have hRecord : ∀ item, Refusing (recordOf item) := by
    intro item
    unfold recordOf
    split
    · exact trivial
    · exact ⟨trivial, id⟩
  unfold records
  split
  · exact trivial
  · next items =>
      have hItems :=
        refusing_mapM fun item (_ : item ∈ items) =>
          hRecord item
      cases hFound : items.mapM recordOf with
      | error e => exact hItems.refusal hFound
      | ok records =>
          cases records with
          | nil => exact ⟨trivial, id⟩
          | cons record rest => exact trivial
  · exact ⟨trivial, id⟩

/- A record is refused for a fault of it or of the actor. -/
theorem refusing_row
    (r : Resource)
    (now : Timestamp)
    (actor : Option Actor)
    (record : Record) :
    Refusing (row r now actor record) := by
  have hStamp := r.refusing_stampOwner actor record
  unfold row
  cases hFound : r.stampOwner actor record with
  | error e => exact hStamp.refusal hFound
  | ok stamped =>
      exact Resource.refusing_insertCells now stamped r.owns

/- Records are refused for a fault of one or of their number. -/
theorem refusing_rows
    (r : Resource)
    (now : Timestamp)
    (actor : Option Actor)
    (records : List Record) :
    Refusing (rows r now actor records) := by
  have hRows :=
    refusing_mapM fun record (_ : record ∈ records) =>
      refusing_row r now actor record
  unfold rows
  cases hFound : records.mapM (row r now actor) with
  | error e => exact hRows.refusal hFound
  | ok found =>
      dsimp only
      split
      · exact ⟨trivial, id⟩
      · exact trivial

end Creation

------------------------------------------------------------
-- Conditions of a removal
------------------------------------------------------------

namespace Removal

variable {r : Resource}
variable {text : String}
variable {actor : Option Actor}

/- A removal asks for its owner where records have one. -/
theorem ownerCondition_cases
    {owner : List Sql.Condition}
    (h : ownerCondition r actor = .ok owner) :
    (r.ownership = none ∧ owner = []) ∨
      ∃ o json,
        r.ownership = some o ∧
          r.ownerOf o actor = .ok json ∧
          owner =
            [.equal (r.column o.column) (Sql.Value.ofJson json)] := by
  unfold ownerCondition at h
  cases hOwnership : r.ownership with
  | none =>
      simp only [hOwnership, Except.ok.injEq] at h
      exact .inl ⟨rfl, h.symm⟩
  | some o =>
      simp only [hOwnership] at h
      cases hOwner : r.ownerOf o actor with
      | error e => simp [hOwner] at h
      | ok json =>
          simp only [hOwner, Except.ok.injEq] at h
          exact .inr ⟨o, json, rfl, hOwner, h.symm⟩

/- The condition on the owner fails for want of an owner alone. -/
theorem ownerOf_of_ownerCondition
    {e : RequestError}
    (h : ownerCondition r actor = .error e) :
    ∃ o, r.ownerOf o actor = .error e := by
  unfold ownerCondition at h
  cases hOwnership : r.ownership with
  | none => simp [hOwnership] at h
  | some o =>
      simp only [hOwnership] at h
      cases hOwner : r.ownerOf o actor with
      | error found =>
          simp only [hOwner, Except.error.injEq] at h
          exact ⟨o, by rw [hOwner, h]⟩
      | ok json => simp [hOwner] at h

/- The conditions of a removal: the key, the owner, the mark. -/
theorem conditions_eq_ok_iff
    {found : List Sql.Condition} :
    conditions r text actor = .ok found ↔
      ∃ key value owner,
        r.keyValue text = .ok (key, value) ∧
          ownerCondition r actor = .ok owner ∧
          found =
            .equal (r.column key) value :: owner ++
              r.liveCondition?.toList := by
  unfold conditions
  cases hKey : r.keyValue text with
  | error e => simp
  | ok pair =>
      cases hOwner : ownerCondition r actor with
      | error e => simp
      | ok owner =>
          constructor
          · intro h
            cases h
            exact ⟨pair.1, pair.2, owner, rfl, rfl, rfl⟩
          · rintro ⟨key, value, same, hPair, hSame, hFound⟩
            cases hPair
            cases hSame
            simp [hFound]

/- A removal is refused to an actor that owns nothing. -/
theorem refusing_ownerCondition
    (r : Resource)
    (actor : Option Actor) :
    Refusing (ownerCondition r actor) := by
  cases hCondition : ownerCondition r actor with
  | error e =>
      rcases ownerOf_of_ownerCondition hCondition with ⟨o, hOwner⟩
      exact (r.refusing_ownerOf o actor).refusal hOwner
  | ok owner => exact trivial

/- A removal is refused for its key or for its actor. -/
theorem refusing_conditions
    (r : Resource)
    (text : String)
    (actor : Option Actor) :
    Refusing (conditions r text actor) := by
  have hKey := r.refusing_keyValue text
  unfold conditions
  cases hFound : r.keyValue text with
  | error e => exact hKey.refusal hFound
  | ok found =>
      obtain ⟨key, value⟩ := found
      have hOwner := refusing_ownerCondition r actor
      dsimp only
      cases hCondition : ownerCondition r actor with
      | error e => exact hOwner.refusal hCondition
      | ok owner => exact trivial

end Removal

end RelationalRest
