import RelationalRest.Proofs.Kind.Coercion
import RelationalRest.Proofs.Listing.ColumnFilter
import RelationalRest.Proofs.Operation.RealOwner
import RelationalRest.Proofs.Text.Split

/-
  A text has one reading.  Where a text is neither a list nor
  begins with an operator, filters accept it exactly if it may
  be inserted, and then a filter compares with the very value
  that a creation inserts for it, and that a lookup and a
  removal compare the key with.  So a record that was made from
  a text is found by the text.

  Key definitions include:
    * `Kind.Bare`
    * `Creation.Binds`
    * `Lookup.Binds`
    * `Removal.Binds`
    * `Kind.ReadsAs`

  Main declarations:
    * `Filter.exists_adds_of_bare`
    * `Creation.binds`
    * `Lookup.binds`
    * `Removal.binds`
    * `Kind.read_alike`
-/

namespace RelationalRest

variable {c : Catalog}
variable {r : Resource}
variable {k : Kind}
variable {s key : String}
variable {v : Sql.Value}

------------------------------------------------------------
-- Bare texts
------------------------------------------------------------

namespace Kind

/-
  A text is bare for a kind: it is no list, and no operator of
  the kind begins it.
-/
structure Bare (k : Kind) (s : String) : Prop where
  comma : ',' ∉ s.toList
  token : ∀ entry ∈ k.operators, ¬ entry.1.toList <+: s.toList

/- A bare text is the operand of the operator that none names. -/
theorem Bare.of_resolves
    {op : FilterOperator}
    {rest : String}
    (hBare : k.Bare s)
    (h : k.Resolves s op rest) :
    op = k.defaultOperator ∧ rest = s := by
  cases h with
  | token hToken hText hLongest =>
      refine absurd ⟨rest.toList, ?_⟩ (hBare.token _ hToken)
      rw [hText, String.toList_append]
  | default hNone => exact ⟨rfl, rfl⟩

/- Filters accept a bare text exactly if it may be inserted. -/
theorem Bare.accepts_iff (hBare : k.Bare s) :
    k.accepts s = true ↔ k.acceptsJson (.string s) = true := by
  rw [(acceptsJson_string k s).1, accepts,
    Text.split_eq_singleton hBare.comma]
  simp

/- What a bare text stands for is what is made of the string. -/
theorem StandsFor.eq_ofJson
    (h : k.StandsFor k.defaultOperator s v) :
    v = k.ofJson (.string s) :=
  (makes_iff.mp (.read h)).2.symm

end Kind

------------------------------------------------------------
-- Filters
------------------------------------------------------------

/- A comparison with one value is no choice. -/
theorem Sql.Condition.Compares.eq_compare
    {column : Column}
    {op : Comparison}
    {condition : Condition}
    (h : Compares column op [v] condition) :
    condition = .compare column op v := by
  cases h with
  | one v => rfl
  | several hSeveral => exact absurd rfl hSeveral

/- The filter of a bare text compares with its one value. -/
theorem Filter.exists_adds_of_bare
    {field : OwnedField}
    (hBare : field.type.kind.Bare s)
    (hAccepts : field.type.kind.acceptsJson (.string s) = true)
    (column : Sql.Column)
    (q : Sql.Query) :
    ∃ q',
      applyColumn field column s q = .ok q' ∧
        Adds field.type.kind column
          field.type.kind.defaultOperator [s] q q'
          [field.type.kind.ofJson (.string s)]
          (.compare column
            field.type.kind.defaultOperator.comparison
            (field.type.kind.ofJson (.string s))) := by
  have hParts :
      ∀ part ∈ Text.split ',' s,
        field.type.kind.acceptsText part = true := by
    intro part hPart
    rw [Text.split_eq_singleton hBare.comma] at hPart
    rw [List.mem_singleton.mp hPart,
      ← (Kind.acceptsJson_string _ s).1, hAccepts]
  rcases applyColumn_cases field column s q with
    ⟨op, rest, hResolves, _, hAccepted⟩
  obtain ⟨rfl, rfl⟩ := hBare.of_resolves hResolves
  rcases hAccepted hParts with
    ⟨q', values, condition, hApplied, hAdds⟩
  rw [Text.split_eq_singleton hBare.comma] at hAdds
  obtain ⟨w, _, hOperand, hNone, rfl⟩ :=
    List.forall₂_cons_left_iff.mp hAdds.operands
  cases hNone
  cases hOperand.eq_ofJson
  rw [hAdds.compares.eq_compare] at hAdds
  exact ⟨q', hApplied, hAdds⟩

------------------------------------------------------------
-- Creations
------------------------------------------------------------

namespace Creation

/-
  A creation binds a value for a text: it is refused before
  anything is sent, or sends one insertion, the rows of which
  give the value to each column of the kind that the record has
  the text in.
-/
def Binds
    (c : Catalog)
    (r : Resource)
    (k : Kind)
    (s : String)
    (v : Sql.Value) : Prop :=
  ∀ baseUrl now request body,
    (∃ e, create c baseUrl now r request body = .done (.error e)) ∨
      ∃ items many,
        records body = .ok (items, many) ∧
          ∀ (σ : Type) (store : Store σ) (state : σ),
            ∃ call later read,
              (create c baseUrl now r request body).sent
                    store state =
                  call :: later ∧
                call.statement.inserted? = some read ∧
                (∀ other ∈ later,
                  other.statement.inserted? = none) ∧
                List.Forall₂
                  (fun record cells =>
                    ∀ name field,
                      Fields.get? r.owns name = some field →
                        field.type.kind = k →
                          Fields.get? record name =
                              some (.string s) →
                            read.gives cells name = some v)
                  items read.rows

/- What is inserted for a text is what the column makes of it. -/
theorem binds
    (hSound : r.Sound)
    (c : Catalog)
    (k : Kind)
    (s : String) :
    Binds c r k s (k.ofJson (.string s)) := by
  intro baseUrl now request body
  rcases refuses_or_inserts c baseUrl now r request body with
    hRefused | ⟨items, many, found, hRecords, _, hRows, hSends⟩
  · exact .inl hRefused
  · refine .inr ⟨items, many, hRecords, fun σ store state => ?_⟩
    rcases hSends σ store state with
      ⟨call, later, hSent, hRead, hLater⟩
    refine ⟨call, later, _, hSent, hRead, hLater, ?_⟩
    refine
      (keeps_insertion (accepted_of_rows hRows).1).rows.imp ?_
    rintro record cells
      ⟨stamped, values, hStamped, hInserted, hGives⟩
      name field hField rfl hText
    have hKept := Resource.get?_stampOwner_of_string hStamped hText
    rw [hGives name]
    exact
      (Resource.get?_insertCells hSound.distinct_owns hInserted
        hField hKept).2

/- A number that is sent as a text is inserted as a number. -/
example :
    row Resource.owned ⟨0, 0, 0⟩ (Request.of (.number (.int 7))).actor
        [("id", .string " 7")] =
      .ok [("id", .int 7), ("owner_id", .int 7)] :=
  rfl

end Creation

------------------------------------------------------------
-- Keys
------------------------------------------------------------

/- The value of a key text is what the key's column makes of it. -/
theorem Resource.keyValue_eq_ofJson
    (hKind : r.keyKind = .ok (key, k))
    (hSome : s ≠ "")
    (hAccepts : k.acceptsJson (.string s) = true) :
    r.keyValue s = .ok (key, k.ofJson (.string s)) := by
  obtain ⟨hText, hValue⟩ := Kind.acceptsJson_string k s
  rw [keyValue_eq_ok_iff hKind, hValue, ← hText]
  exact ⟨⟨hSome, hAccepts⟩, rfl⟩

/-
  A lookup binds a value for its key: it sends one query, which
  compares the key with the value, and binds the value last.
-/
def Lookup.Binds
    (c : Catalog)
    (r : Resource)
    (key : String)
    (s : String)
    (v : Sql.Value) : Prop :=
  ∀ (request : Request) (σ : Type) (store : Store σ) (state : σ),
    ∃ q : Sql.Query,
      (find c r s request).sent store state = [.rows q.select] ∧
        q.conditions =
          r.liveCondition?.toList ++ [.equal (r.column key) v] ∧
        q.select.params.getLast? = some v

/- A lookup binds what the key's column makes of the key. -/
theorem Lookup.binds
    (hSound : c.Sound)
    (hr : r ∈ c.resources)
    (hKey : r.keyValue s = .ok (key, v)) :
    Binds c r key s v := by
  intro request σ store state
  rcases exists_query hSound hr hKey request.params with
    ⟨q, hQuery, _, hConditions⟩
  exact
    ⟨q, sent_find hQuery store state, hConditions,
      Sql.Query.getLast?_params hConditions
        (Resource.isNull_of_keyValue hKey)⟩

/-
  A removal binds a value for its key: it is refused for want
  of an owner, or sends one statement, which compares the key
  with the value, and binds the value right after its opening.
-/
def Removal.Binds
    (r : Resource)
    (key : String)
    (s : String)
    (v : Sql.Value) : Prop :=
  ∀ request : Request,
    remove r s request = .done (.error (.ownerRequired r.name)) ∨
      ∃ later,
        let sent := statement r (.equal (r.column key) v :: later)
        (∀ (σ : Type) (store : Store σ) (state : σ),
          (remove r s request).sent store state = [.change sent]) ∧
          sent.params[bound r]? = some v

/- A removal binds what the key's column makes of the key. -/
theorem Removal.binds
    (hKey : r.keyValue s = .ok (key, v)) :
    Binds r key s v := by
  intro request
  cases hOwner : ownerCondition r request.actor with
  | error e =>
      left
      rcases ownerOf_of_ownerCondition hOwner with ⟨o, hNobody⟩
      have hRequired := Resource.ownerOf_error hNobody
      simp [remove, conditions, hKey, hOwner, hRequired]
  | ok owner =>
      right
      have hFound :
          conditions r s request.actor =
            .ok
              (.equal (r.column key) v ::
                (owner ++ r.liveCondition?.toList)) := by
        simp [conditions, hKey, hOwner]
      exact
        ⟨_, fun σ store state => sent_remove hFound store state,
          getElem?_params_statement (Resource.isNull_of_keyValue hKey)
            _⟩

------------------------------------------------------------
-- Texts read alike
------------------------------------------------------------

/-
  A text is read as one value by all that columns of a kind do
  with it: the filter of such a column compares with it; such a
  column has it as the cell of a record, if it may be set, and
  no other value is inserted for the text; and where such a
  column is the key, a lookup and a removal of the text as a
  key bind it.
-/
structure Kind.ReadsAs
    (k : Kind)
    (s : String)
    (v : Sql.Value) : Prop where
  filtered :
    ∀ field column q,
      field.type.kind = k →
        ∃ q',
          Filter.applyColumn field column s q = .ok q' ∧
            Filter.Adds k column k.defaultOperator [s] q q' [v]
              (.compare column k.defaultOperator.comparison v)
  cell :
    ∀ now record name field,
      field.type.kind = k →
        field.props.readOnly = false →
          Fields.get? record name = some (.string s) →
            Resource.insertCell now record name field = .ok (some v)
  inserted :
    ∀ c r, c.Resolved → r ∈ c.resources → Creation.Binds c r k s v
  found :
    s ≠ "" →
      ∀ c r key,
        c.Resolved → r ∈ c.resources →
          r.keyKind = .ok (key, k) → Lookup.Binds c r key s v
  removed :
    s ≠ "" →
      ∀ r key, r.keyKind = .ok (key, k) → Removal.Binds r key s v

/-
  Filters accept a bare text exactly if it may be inserted, and
  it is then read by all as the value that is inserted for it.
-/
theorem Kind.read_alike
    (hBare : k.Bare s) :
    (k.accepts s = true ↔ k.acceptsJson (.string s) = true) ∧
      (k.acceptsJson (.string s) = true →
        k.ReadsAs s (k.ofJson (.string s))) := by
  refine ⟨hBare.accepts_iff, fun hAccepts => ?_⟩
  refine
    { filtered := ?_
      cell := ?_
      inserted := ?_
      found := ?_
      removed := ?_ }
  · rintro field column q rfl
    exact Filter.exists_adds_of_bare hBare hAccepts column q
  · rintro now record name field rfl hSettable hText
    exact Resource.insertCell_of_accepted hSettable hText hAccepts
  · intro c r hResolved hr
    exact Creation.binds (hResolved.sound.resources r hr) c k s
  · intro hSome c r key hResolved hr hKind
    exact
      Lookup.binds hResolved.sound hr
        (Resource.keyValue_eq_ofJson hKind hSome hAccepts)
  · intro hSome r key hKind
    exact
      Removal.binds
        (Resource.keyValue_eq_ofJson hKind hSome hAccepts)

/- A number with a blank before it is read alike as a number. -/
theorem Kind.read_alike_sample :
    Kind.integer.Bare " 7" ∧
      Kind.integer.accepts " 7" = true ∧
      Kind.integer.ReadsAs " 7" (.int 7) ∧
      Lookup.Binds Catalog.owned Resource.owned "id" " 7" (.int 7) ∧
      Removal.Binds Resource.owned "id" " 7" (.int 7) := by
  have hBare : Kind.integer.Bare " 7" := ⟨by decide, by decide⟩
  have hAccepts : Kind.integer.accepts " 7" = true := by rfl
  have hAlike := read_alike hBare
  have hReads : Kind.integer.ReadsAs " 7" (.int 7) :=
    hAlike.2 (hAlike.1.mp hAccepts)
  exact
    ⟨hBare, hAccepts, hReads,
      hReads.found (by decide) _ _ _ Catalog.owned_resolved
        Catalog.mem_owned rfl,
      hReads.removed (by decide) _ _ rfl⟩

end RelationalRest
