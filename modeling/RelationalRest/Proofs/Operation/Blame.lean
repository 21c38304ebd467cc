import RelationalRest.Proofs.Operation.Stamping

/-
  Whom a creation blames for a field that may not be set.

  A row is assembled from the record as it was stamped, which
  has the owner that its caller may have left out.  A caller is
  blamed for a field that was not sent exactly if that is the
  owner column and may not be set, and the columns before it
  admit the record.  No record of such a resource comes to a
  row; all others blame their callers for what was sent.

  Key definitions include:
    * `Creation.BlamesUnsent`
    * `Creation.StampsReadOnly`

  Main declarations:
    * `Creation.admit_before_iff`
    * `Creation.blamesUnsent_iff`
    * `Creation.row_ne_ok_of_readOnly`
    * `ResourceDraft.blamesUnsent_iff_stampsReadOnly`
    * `Creation.exists_blamed_unsent`
-/

namespace RelationalRest

variable {r : Resource}
variable {o : Ownership}
variable {now : Timestamp}
variable {actor : Option Actor}
variable {record : Record}
variable {name : String}

namespace Creation

------------------------------------------------------------
-- Blame
------------------------------------------------------------

/-
  A record is refused for a field that may not be set, though
  its caller has not sent the field.
-/
def BlamesUnsent
    (r : Resource)
    (now : Timestamp)
    (actor : Option Actor)
    (record : Record)
    (name : String) : Prop :=
  row r now actor record = .error (.readOnlyField name) ∧
    name ∉ Fields.keys record

/-
  A record without owner is stamped in an owner column that may
  not be set, and nothing before that column refuses it.
-/
def StampsReadOnly
    (r : Resource)
    (now : Timestamp)
    (actor : Option Actor)
    (record : Record)
    (name : String) : Prop :=
  ∃ o owner earlier field later,
    r.ownership = some o ∧
      o.column = name ∧
      r.ownerOf o actor = .ok owner ∧
      name ∉ Fields.keys record ∧
      r.owns = earlier ++ (name, field) :: later ∧
      (∀ other ∈ earlier, Resource.Admits now record other) ∧
      field.props.readOnly

------------------------------------------------------------
-- Stamped records
------------------------------------------------------------

/- A stamp does not count for the columns before the owner's. -/
theorem admit_before_iff
    {earlier later : Fields OwnedField}
    {field : OwnedField}
    {owner : Json}
    (hDistinct :
      Fields.Distinct (earlier ++ (o.column, field) :: later)) :
    (∀ other ∈ earlier,
      Resource.Admits now (Fields.insert record o.column owner)
        other) ↔
      ∀ other ∈ earlier, Resource.Admits now record other := by
  refine forall₂_congr fun other hOther => ?_
  have hSame :=
    Fields.get?_insert_of_ne record owner
      (hDistinct.ne_of_mem_before hOther)
  exact
    ⟨fun hStamped => hStamped.congr hSame.symm,
      fun hRecord => hRecord.congr hSame⟩

/- A record without owner is stamped with any owner. -/
theorem stampOwner_of_unsent
    {owner : Json}
    (hOwnership : r.ownership = some o)
    (hOwner : r.ownerOf o actor = .ok owner)
    (hUnsent : o.column ∉ Fields.keys record) :
    r.stampOwner actor record =
      .ok (Fields.insert record o.column owner) := by
  refine
    Resource.stampOwner_of_not_namesOther hOwnership hOwner ?_
  rintro ⟨given, hGiven, _⟩
  exact hUnsent (Fields.mem_keys_of_get?_eq_some hGiven)

/- A record that is refused for a field has been stamped. -/
theorem exists_stamped_of_readOnly
    (h : row r now actor record = .error (.readOnlyField name)) :
    ∃ stamped,
      r.stampOwner actor record = .ok stamped ∧
        r.insertRow now stamped = .error (.readOnlyField name) := by
  unfold row at h
  cases hStamp : r.stampOwner actor record with
  | ok stamped =>
      simp only [hStamp] at h
      exact ⟨stamped, rfl, h⟩
  | error e =>
      simp only [hStamp, Except.error.injEq] at h
      rcases Resource.stampOwner_eq_error hStamp with hOwn | hOwn
      · cases h.symm.trans hOwn
      · cases h.symm.trans hOwn

------------------------------------------------------------
-- Who is blamed for what
------------------------------------------------------------

/- Who is blamed for a field not sent was stamped with it. -/
theorem BlamesUnsent.stampsReadOnly
    (h : BlamesUnsent r now actor record name)
    (hDistinct : r.owns.Distinct) :
    StampsReadOnly r now actor record name := by
  obtain ⟨hRefused, hUnsent⟩ := h
  rcases exists_stamped_of_readOnly hRefused with
    ⟨stamped, hStamped, hInserted⟩
  rcases Resource.insertCells_eq_readOnly_iff.mp hInserted with
    ⟨earlier, field, later, hOwns, hEarlier, hReadOnly, hSent⟩
  cases hOwnership : r.ownership with
  | none =>
      rw [Resource.stampOwner_of_none hOwnership] at hStamped
      cases hStamped
      exact absurd hSent hUnsent
  | some o =>
      rcases (Resource.stampOwner_eq_ok_iff hOwnership).mp hStamped
        with ⟨owner, hOwner, _, rfl⟩
      cases (Fields.mem_keys_insert_iff.mp hSent).resolve_left hUnsent
      exact
        ⟨o, owner, earlier, field, later, hOwnership, rfl, hOwner,
          hUnsent, hOwns,
          (admit_before_iff (hOwns ▸ hDistinct)).mp hEarlier,
          hReadOnly⟩

/- Who is stamped with what may not be set is blamed for it. -/
theorem StampsReadOnly.blamesUnsent
    (h : StampsReadOnly r now actor record name)
    (hDistinct : r.owns.Distinct) :
    BlamesUnsent r now actor record name := by
  rcases h with
    ⟨o, owner, earlier, field, later, hOwnership, rfl, hOwner,
      hUnsent, hOwns, hEarlier, hReadOnly⟩
  refine ⟨?_, hUnsent⟩
  have hStamp := stampOwner_of_unsent hOwnership hOwner hUnsent
  simp only [row, hStamp]
  exact Resource.insertCells_eq_readOnly_iff.mpr
    ⟨earlier, field, later, hOwns,
      (admit_before_iff (hOwns ▸ hDistinct)).mpr hEarlier, hReadOnly,
      Fields.mem_keys_insert_iff.mpr (.inr rfl)⟩

/-
  A caller is blamed for a field not sent exactly if the stamp
  has set it.
-/
theorem blamesUnsent_iff
    (hDistinct : r.owns.Distinct) :
    BlamesUnsent r now actor record name ↔
      StampsReadOnly r now actor record name :=
  ⟨fun h => h.stampsReadOnly hDistinct,
    fun h => h.blamesUnsent hDistinct⟩

/- No record has a row where its owner may not be set. -/
theorem row_ne_ok_of_readOnly
    {field : OwnedField}
    (hOwnership : r.ownership = some o)
    (hField : (o.column, field) ∈ r.owns)
    (hReadOnly : field.props.readOnly)
    (values : Fields Sql.Value) :
    row r now actor record ≠ .ok values := by
  intro hRow
  rcases row_eq_ok_iff.mp hRow with ⟨stamped, hStamped, hInserted⟩
  rcases (Resource.stampOwner_eq_ok_iff hOwnership).mp hStamped
    with ⟨owner, _, _, rfl⟩
  have hAdmits :=
    (Resource.insertCells_eq_ok_iff.mp hInserted).1 _ hField
  exact
    hAdmits.unsent hReadOnly
      (Fields.mem_keys_insert_iff.mpr (.inr rfl))

/- Nothing is created where the owner may not be set. -/
theorem refused_of_readOnly
    {field : OwnedField}
    (hOwnership : r.ownership = some o)
    (hField : (o.column, field) ∈ r.owns)
    (hReadOnly : field.props.readOnly)
    (c : Catalog)
    (baseUrl : String)
    (now : Timestamp)
    (request : Request)
    (body : Json) :
    ∃ e, create c baseUrl now r request body = .done (.error e) := by
  rcases refuses_or_inserts c baseUrl now r request body with
    hRefused | ⟨items, _, found, _, hSome, hRows, _⟩
  · exact hRefused
  · rcases List.exists_mem_of_ne_nil items hSome with
      ⟨record, hRecord⟩
    rcases Success.exists_result_of_mem
        (accepted_of_rows hRows).1 hRecord with
      ⟨values, _, hRow⟩
    exact absurd hRow
      (row_ne_ok_of_readOnly hOwnership hField hReadOnly values)

end Creation

------------------------------------------------------------
-- Accepted drafts
------------------------------------------------------------

namespace ResourceDraft

/-
  Where a draft is accepted, a caller is blamed for a field that
  was not sent exactly if the field is the owner column, which
  may not be set, and the columns before it admit the record.
  Nothing at all is created where the owner may not be set.
-/
theorem blamesUnsent_iff_stampsReadOnly
    {d : ResourceDraft}
    (hFields : d.fields.Distinct)
    (hCheck : d.check = .ok r) :
    (∀ now actor record name,
      Creation.BlamesUnsent r now actor record name ↔
        Creation.StampsReadOnly r now actor record name) ∧
      ∀ o field,
        r.ownership = some o →
          (o.column, field) ∈ r.owns →
            field.props.readOnly →
              (∀ now actor record values,
                Creation.row r now actor record ≠ .ok values) ∧
                ∀ c baseUrl now request body, ∃ e,
                  Creation.create c baseUrl now r request body =
                    .done (.error e) := by
  have hDistinct := (sound_of_check hFields hCheck).distinct_owns
  constructor
  · intro now actor record name
    exact Creation.blamesUnsent_iff hDistinct
  · intro o field hOwnership hField hReadOnly
    constructor
    · intro now actor record values
      exact Creation.row_ne_ok_of_readOnly hOwnership hField
        hReadOnly values
    · intro c baseUrl now request body
      exact Creation.refused_of_readOnly hOwnership hField hReadOnly
        c baseUrl now request body

/-
  No note is created where the owner of notes may not be set,
  and an actor who sends the text alone is blamed for an owner.
-/
theorem blamesUnsent_iff_stampsReadOnly_sample :
    (notes { readOnly := true }).fields.Distinct ∧
      (notes { readOnly := true }).check =
        .ok (Resource.notes { readOnly := true }) ∧
      Creation.BlamesUnsent (Resource.notes { readOnly := true })
        ⟨0, 0, 0⟩ (Request.of (.number (.int 7))).actor
        [("text", .string "a")] "owner_id" ∧
      ∃ e : RequestError,
        Creation.create {} "" ⟨0, 0, 0⟩
            (Resource.notes { readOnly := true })
            (Request.of (.number (.int 7)))
            (.object [("text", .string "a")]) =
          .done (.error e) := by
  have hFields :
      (notes { readOnly := true }).fields.Distinct := by
    decide
  have hBlame :=
    blamesUnsent_iff_stampsReadOnly hFields (check_notes _)
  refine ⟨hFields, check_notes _, ?_, ?_⟩
  · refine (hBlame.1 _ _ _ _).mpr
      ⟨⟨"owner_id", "id"⟩, .number (.int 7),
        [("id", ⟨.value .integer, {}, none⟩)], _, _, rfl, rfl, rfl,
        by decide, rfl, ?_, rfl⟩
    intro other hOther
    cases List.mem_singleton.mp hOther
    exact ⟨nofun, nofun, nofun⟩
  · exact
      (hBlame.2 ⟨"owner_id", "id"⟩ _ rfl
        (.tail _ (.head _)) rfl).2 _ _ _ _ _

end ResourceDraft

/-
  An actor who sends the text of a note alone is blamed for the
  owner, if that may not be set; if it may, the note has a row.
-/
theorem Creation.exists_blamed_unsent :
    Creation.row (Resource.notes { readOnly := true }) ⟨0, 0, 0⟩
        (Request.of (.number (.int 7))).actor
        [("text", .string "a")] =
        .error (.readOnlyField "owner_id") ∧
      "owner_id" ∉ Fields.keys [("text", Json.string "a")] ∧
      Creation.row (Resource.notes {}) ⟨0, 0, 0⟩
        (Request.of (.number (.int 7))).actor
        [("text", .string "a")] =
        .ok [("owner_id", .int 7), ("text", .string "a")] := by
  refine ⟨rfl, by decide, rfl⟩

end RelationalRest
