import RelationalRest.Proofs.Record.Admission

/-
  What a row to insert holds: each column has the cell that
  its own check made, and a column that holds the owner has
  what the record was stamped with.  A record is stamped if
  the actor is an owner and the record names no other one.

  Key definitions include:
    * `Record.NamesOther`

  Main declarations:
    * `Resource.insertCell_of_insertCells`
    * `Resource.insertCell_of_accepted`
    * `Resource.insertCell_of_sent`
    * `Resource.stampOwner_eq_ok_iff`
    * `Resource.get?_stampOwner`
-/

namespace RelationalRest

/- What equals a string is that string. -/
theorem Json.eq_of_same_string
    {s : String}
    {v : Json}
    (h : Json.same (.string s) v = true) :
    v = .string s := by
  cases v with
  | string t => rw [eq_of_beq h]
  | _ => cases h

variable {r : Resource}
variable {now : Timestamp}
variable {actor : Option Actor}
variable {o : Ownership}
variable {owner : Json}
variable {record : Record}
variable {values : Fields Sql.Value}

------------------------------------------------------------
-- Cells
------------------------------------------------------------

namespace Resource

/- A row has a cell for a column only if it is one of those. -/
theorem get?_eq_none_of_insertCells
    {owns : Fields OwnedField}
    (h : insertCells now record owns = .ok values)
    {name : String}
    (hName : name ∉ owns.keys) :
    Fields.get? values name = none := by
  rw [Fields.get?_eq_none_iff, (insertCells_eq_ok_iff.mp h).2,
    keys_filterMap_cell?]
  intro hMem
  exact hName ((List.filter_sublist.map Prod.fst).subset hMem)

/- A row gives each column what the cell of the column is. -/
theorem insertCell_of_insertCells
    {owns : Fields OwnedField}
    (hDistinct : owns.Distinct)
    (h : insertCells now record owns = .ok values)
    {name : String}
    {f : OwnedField}
    (hField : Fields.get? owns name = some f) :
    insertCell now record name f =
      .ok (Fields.get? values name) := by
  have hColumn : (name, f) ∈ owns :=
    Fields.mem_of_get?_eq_some hField
  rcases insertCells_eq_ok_iff.mp h with ⟨hAll, rfl⟩
  rw [insertCell_of_admits (hAll (name, f) hColumn),
    get?_filterMap_cell? hDistinct hColumn]

/- A column that may be set has a cell for what it accepts. -/
theorem insertCell_of_accepted
    {name : String}
    {f : OwnedField}
    {v : Json}
    (hSettable : f.props.readOnly = false)
    (hSent : Fields.get? record name = some v)
    (hAccepts : f.type.kind.acceptsJson v = true) :
    insertCell now record name f =
      .ok (some (f.type.kind.ofJson v)) := by
  have hSupplied : supplied? now record (name, f) = some v :=
    supplied?_of_sent hSent
  have hAdmits : Admits now record (name, f) :=
    { sent := fun _ => Fields.mem_keys_of_get?_eq_some hSent
      unsent := by simp [hSettable]
      accepted := by simp [hSupplied, hAccepts] }
  rw [insertCell_of_admits hAdmits, hSupplied, Option.map_some]

/- A value that is sent and accepted is what the kind makes of it. -/
theorem insertCell_of_sent
    {name : String}
    {f : OwnedField}
    {cell : Option Sql.Value}
    {v : Json}
    (h : insertCell now record name f = .ok cell)
    (hSent : Fields.get? record name = some v) :
    f.type.kind.acceptsJson v = true ∧
      cell = some (f.type.kind.ofJson v) := by
  have hSupplied : supplied? now record (name, f) = some v :=
    supplied?_of_sent hSent
  rcases admits_or_offends now record (name, f) with
    hAdmits | ⟨e, hOffends⟩
  · have hCell := insertCell_of_admits hAdmits
    rw [hSupplied] at hCell
    cases h.symm.trans hCell
    exact ⟨hAdmits.accepted v hSupplied, rfl⟩
  · cases h.symm.trans (insertCell_of_offends hOffends)

/- A row has what its columns make of the values sent for them. -/
theorem get?_insertCells
    {owns : Fields OwnedField}
    (hDistinct : owns.Distinct)
    (h : insertCells now record owns = .ok values)
    {name : String}
    {f : OwnedField}
    {v : Json}
    (hField : Fields.get? owns name = some f)
    (hSent : Fields.get? record name = some v) :
    f.type.kind.acceptsJson v = true ∧
      Fields.get? values name = some (f.type.kind.ofJson v) :=
  insertCell_of_sent
    (insertCell_of_insertCells hDistinct h hField) hSent

end Resource

------------------------------------------------------------
-- Owners
------------------------------------------------------------

/- What a record has in a column is not the owner. -/
def Record.NamesOther
    (record : Record)
    (column : String)
    (owner : Json) : Prop :=
  ∃ given,
    Fields.get? record column = some given ∧
      given.same owner = false

namespace Resource

/- The owner is the field of the actor that is named for it. -/
theorem ownerOf_eq_ok_iff :
    r.ownerOf o actor = .ok owner ↔
      (actor.bind fun a => a.field? o.actorField) = some owner := by
  unfold ownerOf
  cases actor.bind fun a => a.field? o.actorField with
  | none => simp
  | some found => simp

/- An actor with the field owns records by it. -/
theorem ownerOf_eq_ok
    {request : Request}
    (h : request.actorField? o.actorField = some owner) :
    r.ownerOf o request.actor = .ok owner :=
  ownerOf_eq_ok_iff.mpr h

/- An actor without the field is no owner. -/
theorem ownerOf_eq_error
    {request : Request}
    (h : request.actorField? o.actorField = none) :
    r.ownerOf o request.actor = .error (.ownerRequired r.name) := by
  have hNone :
      (request.actor.bind fun a => a.field? o.actorField) = none := h
  simp [ownerOf, hNone]

/- No owner is missing for any other reason. -/
theorem ownerOf_error
    {e : RequestError}
    (h : r.ownerOf o actor = .error e) :
    e = .ownerRequired r.name := by
  unfold ownerOf at h
  split at h
  · cases h
  · cases h
    rfl

/- Where records have no owners they stay as they are. -/
theorem stampOwner_of_none
    (hOwnership : r.ownership = none)
    (actor : Option Actor)
    (record : Record) :
    r.stampOwner actor record = .ok record := by
  simp [stampOwner, hOwnership]

/- Without an owner no record is stamped. -/
theorem stampOwner_of_error
    {e : RequestError}
    (hOwnership : r.ownership = some o)
    (hOwner : r.ownerOf o actor = .error e)
    (record : Record) :
    r.stampOwner actor record = .error e := by
  simp [stampOwner, hOwnership, hOwner]

/- A record that names another owner is refused. -/
theorem stampOwner_of_namesOther
    (hOwnership : r.ownership = some o)
    (hOwner : r.ownerOf o actor = .ok owner)
    (hOther : record.NamesOther o.column owner) :
    r.stampOwner actor record = .error .foreignOwner := by
  obtain ⟨given, hGiven, hSame⟩ := hOther
  simp [stampOwner, hOwnership, hOwner, hGiven, hSame]

/- Any other record is stamped with the owner. -/
theorem stampOwner_of_not_namesOther
    (hOwnership : r.ownership = some o)
    (hOwner : r.ownerOf o actor = .ok owner)
    (hOwn : ¬ record.NamesOther o.column owner) :
    r.stampOwner actor record =
      .ok (Fields.insert record o.column owner) := by
  cases hGiven : Fields.get? record o.column with
  | none => simp [stampOwner, hOwnership, hOwner, hGiven]
  | some given =>
      have hSame : given.same owner = true := by
        by_contra hDiffers
        exact hOwn ⟨given, hGiven, Bool.not_eq_true _ ▸ hDiffers⟩
      simp [stampOwner, hOwnership, hOwner, hGiven, hSame]

/-
  A record of an owned resource is stamped exactly if the actor
  is an owner and the record names no other one.
-/
theorem stampOwner_eq_ok_iff
    (hOwnership : r.ownership = some o)
    {stamped : Record} :
    r.stampOwner actor record = .ok stamped ↔
      ∃ owner,
        r.ownerOf o actor = .ok owner ∧
          ¬ record.NamesOther o.column owner ∧
          stamped = Fields.insert record o.column owner := by
  cases hOwner : r.ownerOf o actor with
  | error e =>
      rw [stampOwner_of_error hOwnership hOwner]
      simp
  | ok owner =>
      by_cases hOther : record.NamesOther o.column owner
      · rw [stampOwner_of_namesOther hOwnership hOwner hOther]
        simp [hOther]
      · rw [stampOwner_of_not_namesOther hOwnership hOwner hOther]
        simp [hOther, eq_comm]

/- A stamp fails for the owner alone. -/
theorem stampOwner_eq_error
    {e : RequestError}
    (h : r.stampOwner actor record = .error e) :
    e = .ownerRequired r.name ∨ e = .foreignOwner := by
  cases hOwnership : r.ownership with
  | none =>
      rw [stampOwner_of_none hOwnership] at h
      cases h
  | some o =>
      cases hOwner : r.ownerOf o actor with
      | error found =>
          rw [stampOwner_of_error hOwnership hOwner] at h
          cases h
          exact .inl (ownerOf_error hOwner)
      | ok owner =>
          by_cases hOther : record.NamesOther o.column owner
          · rw [stampOwner_of_namesOther hOwnership hOwner hOther] at h
            cases h
            exact .inr rfl
          · rw [stampOwner_of_not_namesOther hOwnership hOwner
              hOther] at h
            cases h

/- A stamped record has its owner in the owner column. -/
theorem get?_stampOwner
    (hOwnership : r.ownership = some o)
    {stamped : Record}
    (h : r.stampOwner actor record = .ok stamped)
    (hOwner : r.ownerOf o actor = .ok owner) :
    Fields.get? stamped o.column = some owner := by
  rcases (stampOwner_eq_ok_iff hOwnership).mp h with
    ⟨found, hFound, _, rfl⟩
  cases hOwner.symm.trans hFound
  exact Fields.get?_insert_self _ _ _

/- A string that is sent is not changed by a stamp. -/
theorem get?_stampOwner_of_string
    {stamped : Record}
    {name s : String}
    (h : r.stampOwner actor record = .ok stamped)
    (hSent : Fields.get? record name = some (.string s)) :
    Fields.get? stamped name = some (.string s) := by
  cases hOwnership : r.ownership with
  | none =>
      rw [stampOwner_of_none hOwnership] at h
      cases h
      exact hSent
  | some o =>
      rcases (stampOwner_eq_ok_iff hOwnership).mp h with
        ⟨owner, _, hOwn, rfl⟩
      by_cases hName : name = o.column
      · subst hName
        have hSame : Json.same (.string s) owner = true := by
          by_contra hDiffers
          exact hOwn ⟨_, hSent, Bool.not_eq_true _ ▸ hDiffers⟩
        rw [Fields.get?_insert_self, Json.eq_of_same_string hSame]
      · rw [Fields.get?_insert_of_ne record owner hName, hSent]

/- Only records of an owner are stamped, where they have owners. -/
theorem exists_owner_of_stampOwner
    (hOwnership : r.ownership = some o)
    {stamped : Record}
    (h : r.stampOwner actor record = .ok stamped) :
    ∃ owner, r.ownerOf o actor = .ok owner := by
  rcases (stampOwner_eq_ok_iff hOwnership).mp h with
    ⟨owner, hOwner, _⟩
  exact ⟨owner, hOwner⟩

end Resource

end RelationalRest
