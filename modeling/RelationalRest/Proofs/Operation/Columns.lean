import RelationalRest.Proofs.Listing.Kept
import RelationalRest.Proofs.Operation.Creation
import RelationalRest.Proofs.Operation.Survey
import RelationalRest.Proofs.Record.Row

/-
  Which columns operations name.  A query selects exactly the
  columns that its projection chooses, and the whole table if
  that chooses none; all its other columns are declared, but
  for the one that marks deleted records.  Insertions,
  assignments and deletions name declared columns and the mark.

  Key definitions include:
    * `Sql.Query.Known`
    * `Sql.Query.Chooses`
    * `Sql.Insert.Known`
    * `Sql.Update.Known`
    * `Sql.Delete.Known`

  Main declarations:
    * `Survey.chooses_rowQuery`
    * `Lookup.chooses_query`
    * `Creation.known_insertion`
    * `Removal.knows_conditions`
    * `Catalog.Resolved.columns_declared`
-/

namespace RelationalRest

variable {c : Catalog}
variable {r : Resource}

------------------------------------------------------------
-- Known columns
------------------------------------------------------------

/- A column is declared, or marks the deleted records. -/
def Catalog.Knows
    (c : Catalog)
    (r : Resource)
    (col : Sql.Column) : Prop :=
  c.Declares r col ∨ r.Marks col

namespace Sql

/- A query mentions known columns only. -/
def Query.Known
    (c : Catalog)
    (r : Resource)
    (q : Query) : Prop :=
  ∀ col ∈ q.mentions, c.Knows r col

/-
  A query selects what a projection chooses: exactly the
  chosen columns, or the whole table if there are none.
-/
structure Query.Chooses
    (c : Catalog)
    (r : Resource)
    (p : Projection)
    (q : Query) : Prop where
  known : q.Known c r
  distinct : q.columns.Nodup
  selected : ∀ col, col ∈ q.columns ↔ p.Selects c r col
  declared : ∀ col ∈ q.columns, c.Declares r col
  whole :
    q.selectionPieces = [.name r.table.name, .text ".*"] ↔
      ∀ col, ¬ p.Selects c r col

/- An insertion names columns of a resource only. -/
structure Insert.Known
    (r : Resource)
    (i : Insert) : Prop where
  table : i.table = r.table
  columns : ∀ name ∈ i.columns, name ∈ r.owns.keys
  keep : ∀ name, i.keep = some name → name ∈ r.owns.keys
  returning : ∀ name, i.returning = some name → name ∈ r.owns.keys

/- An assignment sets the mark, under known columns. -/
structure Update.Known
    (c : Catalog)
    (r : Resource)
    (u : Update) : Prop where
  table : u.table = r.table
  sets : ∀ entry ∈ u.sets, r.Marks (r.column entry.1)
  conditions :
    ∀ condition ∈ u.conditions, ∀ col ∈ condition.columns,
      c.Knows r col

/- A deletion has conditions on declared columns. -/
structure Delete.Known
    (c : Catalog)
    (r : Resource)
    (d : Delete) : Prop where
  table : d.table = r.table
  conditions :
    ∀ condition ∈ d.conditions, ∀ col ∈ condition.columns,
      c.Declares r col

/- The whole table is selected if no column is. -/
theorem Query.selectionPieces_eq_iff {q : Query} :
    q.selectionPieces = [.name q.root.name, .text ".*"] ↔
      q.columns = [] := by
  unfold selectionPieces
  cases hColumns : q.columns with
  | nil => simp
  | cons col columns =>
      cases columns with
      | nil => simp [joined, columnPieces, Column.pieces]
      | cons next columns =>
          simp [joined, columnPieces, Column.pieces]

end Sql

------------------------------------------------------------
-- Queries
------------------------------------------------------------

namespace Sql.Query.Known

variable {q : Sql.Query}

/- Selecting a declared column. -/
theorem addColumn
    {col : Sql.Column}
    (hCol : c.Declares r col)
    (h : q.Known c r) :
    (q.addColumn col).Known c r := by
  intro other hOther
  rcases mem_mentions_addColumn hOther with hOld | rfl
  · exact h other hOld
  · exact .inl hCol

/- Demanding a condition on known columns. -/
theorem addCondition
    {condition : Sql.Condition}
    (hCols : ∀ col ∈ condition.columns, c.Knows r col)
    (h : q.Known c r) :
    (q.addCondition condition).Known c r := by
  intro col hCol
  rcases mem_mentions_addCondition hCol with hOld | hNew
  · exact h col hOld
  · exact hCols col hNew

/- Ordering by a declared column. -/
theorem orderBy
    {col : Sql.Column}
    (d : Sql.Direction)
    (hCol : c.Declares r col)
    (h : q.Known c r) :
    (q.orderBy col d).Known c r := by
  intro other hOther
  rcases mem_mentions_orderBy hOther with hOld | rfl
  · exact h other hOld
  · exact .inl hCol

/- Joining a table on declared columns. -/
theorem leftJoin
    {j : Sql.Join}
    (hLeft : c.Declares r j.left)
    (hRight : c.Declares r j.right)
    (h : q.Known c r) :
    (q.leftJoin j).Known c r := by
  intro col hCol
  rcases mem_mentions_leftJoin hCol with hOld | rfl | rfl
  · exact h col hOld
  · exact .inl hLeft
  · exact .inl hRight

end Sql.Query.Known

/- The columns that a relation is joined on are declared. -/
theorem Follows.declares
    {j : Sql.Join}
    (hResolved : c.Resolved)
    (hr : r ∈ c.resources)
    (h : Follows c r j) :
    c.Declares r j.left ∧ c.Declares r j.right := by
  rcases h with
    ⟨relation, related, key, hRelation, hFind, hKey, hJoin⟩
  have hRelated := Catalog.mem_resources_of_find? hFind
  constructor
  · rw [hJoin]
    exact Catalog.declares_column
      ((hResolved.grounded hr).mappings (j.label, relation)
        (Fields.mem_of_get?_eq_some hRelation))
  · rw [hJoin]
    exact Catalog.declares_related hRelation hFind
      ((hResolved.grounded hRelated).key key hKey)

/- A comparison of a known column mentions that alone. -/
theorem Catalog.knows_equal
    {name : String}
    (h : c.Knows r (r.column name))
    (v : Sql.Value) :
    ∀ col ∈ (Sql.Condition.equal (r.column name) v).columns,
      c.Knows r col := by
  intro col hCol
  rw [Sql.Condition.columns_equal] at hCol
  rw [List.mem_singleton.mp hCol]
  exact h

/- That a record is live is a condition on the mark. -/
theorem Resource.knows_liveCondition
    {condition : Sql.Condition}
    (h : condition ∈ r.liveCondition?.toList) :
    ∀ col ∈ condition.columns, c.Knows r col := by
  unfold liveCondition? at h
  cases hMark : r.softDelete with
  | none => simp [hMark] at h
  | some mark =>
      simp only [hMark, Option.map_some, Option.toList_some,
        List.mem_singleton] at h
      subst h
      exact Catalog.knows_equal (.inr ⟨mark, hMark, rfl⟩) _

/- The query for live records mentions the mark alone. -/
theorem Resource.known_liveQuery :
    r.liveQuery.Known c r := by
  intro col hCol
  have hLive :
      ∃ condition ∈ r.liveCondition?.toList,
        col ∈ condition.columns := by
    simpa [liveQuery, Sql.Query.mentions] using hCol
  rcases hLive with ⟨condition, hMem, hCol⟩
  exact knows_liveCondition hMem col hCol

/- The key that a text stands for is the primary key. -/
theorem Resource.primaryKey_of_keyKind
    {key : String}
    {kind : Kind}
    (h : r.keyKind = .ok (key, kind)) :
    r.primaryKey = some key := by
  unfold keyKind at h
  split at h
  · cases h
  · next hKey =>
      split at h
      · cases h
      · cases h
        exact hKey

/- The value of a key text is a value of the primary key. -/
theorem Resource.keyKind_of_keyValue
    {text key : String}
    {value : Sql.Value}
    (h : r.keyValue text = .ok (key, value)) :
    ∃ kind, r.keyKind = .ok (key, kind) := by
  unfold keyValue at h
  split at h
  · cases h
  · next kind hKind =>
      split at h
      · cases h
        exact ⟨kind, hKind⟩
      · cases h

/- The value that a text has as a key. -/
theorem Resource.keyValue_eq_ok_iff
    {text key : String}
    {kind : Kind}
    {value : Sql.Value}
    (hKind : r.keyKind = .ok (key, kind)) :
    r.keyValue text = .ok (key, value) ↔
      (text ≠ "" ∧ kind.acceptsText text = true) ∧
        kind.ofText text = value := by
  unfold keyValue
  rw [hKind]
  by_cases hText : text ≠ "" ∧ kind.acceptsText text = true
  · simp [hText]
  · simp [hText]

section Queries

variable {q : Sql.Query}
variable (hResolved : c.Resolved)
variable (hr : r ∈ c.resources)

include hResolved hr

/- Joining a relation keeps the columns of a query known. -/
theorem Sql.Query.Known.follow
    (q : Sql.Query)
    (j : Sql.Join)
    (hFollows : Follows c r j)
    (h : q.Known c r) :
    (q.leftJoin j).Known c r :=
  have hDeclared := hFollows.declares hResolved hr
  h.leftJoin hDeclared.1 hDeclared.2

/- A projection keeps the columns of a query known. -/
theorem Projection.known_apply
    (p : Projection)
    (h : q.Known c r) :
    (p.apply c r q).query.Known c r :=
  p.query_apply (hResolved.sound.resources r hr)
    (fun _ _ hCol hq => hq.addColumn hCol)
    (Sql.Query.Known.follow hResolved hr) h

/- The key of a record is a known column. -/
theorem Resource.knows_key
    {key : String}
    (hKey : r.primaryKey = some key) :
    c.Knows r (r.column key) :=
  .inl (Catalog.declares_column ((hResolved.grounded hr).key key hKey))

/- A query with the columns that a projection selects. -/
theorem Sql.Query.Chooses.of_columns
    {p : Projection}
    (start : Sql.Query)
    (hRoot : q.root = r.table)
    (hKnown : q.Known c r)
    (hStart : start.columns = [])
    (hColumns : (p.apply c r start).query.columns = q.columns) :
    q.Chooses c r p := by
  have hSelected :
      ∀ col, col ∈ q.columns ↔ p.Selects c r col := by
    intro col
    rw [← hColumns, p.mem_columns_apply_iff hResolved.sound hr,
      hStart]
    simp
  refine ⟨hKnown, ?_, hSelected, ?_, ?_⟩
  · rw [← hColumns]
    exact (p.selection_apply (r := r) c hStart).distinct
  · exact fun col hCol => ((hSelected col).mp hCol).declares
  · rw [← hRoot, selectionPieces_eq_iff]
    simp only [List.eq_nil_iff_forall_not_mem, hSelected]

/- The query of a lookup selects what the request asks for. -/
theorem Lookup.chooses_query
    {text : String}
    {params : Params}
    (h : query c r text params = .ok q) :
    q.Chooses c r (Projection.ofParams params) := by
  have hSelf :=
    (answers_query text params hResolved.sound hr).of_ok h
  unfold query at h
  cases hFound : r.keyValue text with
  | error e => simp [hFound] at h
  | ok found =>
      obtain ⟨key, value⟩ := found
      simp only [hFound, Except.ok.injEq,
        Projection.result_apply _ hResolved.sound hr] at h
      rcases Resource.keyKind_of_keyValue hFound with ⟨kind, hKind⟩
      have hKey := Resource.primaryKey_of_keyKind hKind
      have hStart :
          (r.liveQuery.addCondition
            (.equal (r.column key) value)).Known c r :=
        Resource.known_liveQuery.addCondition
          (Catalog.knows_equal
            (Resource.knows_key hResolved hr hKey) value)
      have hKnown :=
        (Projection.ofParams params).known_apply hResolved hr hStart
      rw [h] at hKnown
      exact Sql.Query.Chooses.of_columns hResolved hr _ hSelf.root
        hKnown rfl (congrArg Sql.Query.columns h)

/- Joining a table selects nothing. -/
omit hResolved hr in
theorem Sql.Query.columns_leftJoin
    (q : Sql.Query)
    (j : Sql.Join) :
    (q.leftJoin j).columns = q.columns := by
  unfold leftJoin
  split
  · rfl
  · rfl

/- The query for a page selects what the request asks for. -/
theorem Survey.chooses_rowQuery
    {params : Params}
    (h : rowQuery c r params = .ok q) :
    q.Chooses c r (Projection.ofParams params) := by
  have hScoped :=
    (scoped_rowQuery params hResolved.sound hr).of_ok h
  -- what the projection selects stays selected to the end
  let P : Sql.Query → Prop := fun next =>
    next.Known c r ∧
      ((Projection.ofParams params).apply c r
        r.liveQuery).query.columns = next.columns
  have hJoin :
      ∀ next j, Follows c r j → P next → P (next.leftJoin j) := by
    rintro next j hFollows ⟨hKnown, hColumns⟩
    refine ⟨hKnown.follow hResolved hr next j hFollows, ?_⟩
    rw [Sql.Query.columns_leftJoin]
    exact hColumns
  have hProjected :
      P ((Projection.ofParams params).apply c r
        r.liveQuery).query :=
    ⟨(Projection.ofParams params).known_apply hResolved hr
      Resource.known_liveQuery, rfl⟩
  have hFinal : P q :=
    query_rowQuery
      (fun _ _ hCols hq =>
        ⟨hq.1.addCondition fun col hCol => .inl (hCols col hCol),
          hq.2⟩)
      (fun _ _ d hCol hq => ⟨hq.1.orderBy d hCol, hq.2⟩) hJoin
      (fun _ _ hq => hq) (fun _ _ hq => hq) hProjected h
  exact Sql.Query.Chooses.of_columns hResolved hr r.liveQuery
    hScoped.table hFinal.1 rfl hFinal.2

/- The query for the count mentions known columns only. -/
theorem Survey.known_countQuery
    {params : Params}
    (h : countQuery c r params = .ok q) :
    q.Known c r :=
  query_countQuery
    (fun _ _ hCols hq =>
      hq.addCondition fun col hCol => .inl (hCols col hCol))
    (Sql.Query.Known.follow hResolved hr)
    Resource.known_liveQuery h

/- What is read back of created records is what is the default. -/
theorem Creation.chooses_expansion
    {ids : List Json}
    (h : expansion c r ids = .ok q) :
    q.Chooses c r .byDefault := by
  have hSelf :=
    (answers_expansion ids hResolved.sound hr).of_ok h
  unfold expansion at h
  cases hFound : r.keyKind with
  | error e => simp [hFound] at h
  | ok found =>
      obtain ⟨key, kind⟩ := found
      have hKey := Resource.primaryKey_of_keyKind hFound
      simp only [hFound, Except.map, Except.ok.injEq,
        Projection.result_apply _ hResolved.sound hr] at h
      have hStart :
          ({ root := r.table } : Sql.Query).Known c r := by
        intro col hCol
        cases hCol
      have hProjected :=
        Projection.byDefault.known_apply hResolved hr hStart
      have hKnown : q.Known c r := by
        rw [← h]
        refine hProjected.addCondition ?_
        intro col hCol
        rw [Sql.Condition.columns,
          Sql.Condition.mem_choiceColumns_iff] at hCol
        rcases hCol with ⟨part, hPart, hCol⟩
        rcases List.mem_map.mp hPart with ⟨id, _, rfl⟩
        exact Catalog.knows_equal
          (Resource.knows_key hResolved hr hKey) _ col hCol
      refine Sql.Query.Chooses.of_columns hResolved hr
        { root := r.table } hSelf.root hKnown rfl ?_
      rw [← h]
      rfl

end Queries

------------------------------------------------------------
-- Insertions and removals
------------------------------------------------------------

/- The cells of a row are those of columns of the resource. -/
theorem Resource.mem_owns_of_insertRow
    {now : Timestamp}
    {record : Record}
    {values : Fields Sql.Value}
    (h : r.insertRow now record = .ok values)
    {name : String}
    (hName : name ∈ Fields.keys values) :
    name ∈ r.owns.keys := by
  by_contra hMissing
  have hNone := Resource.get?_eq_none_of_insertCells h hMissing
  exact Fields.get?_eq_none_iff.mp hNone hName

/- The insertion of rows names columns of the resource only. -/
theorem Creation.known_insertion
    {now : Timestamp}
    {actor : Option Actor}
    {items : List Record}
    {found : List (Fields Sql.Value)}
    (hGrounded : r.Grounded)
    (h : rows r now actor items = .ok found) :
    (insertion r found).Known r where
  table := rfl
  columns := by
    intro name hName
    rw [Sql.Insert.columns_eq_union, Sql.Insert.union,
      List.mem_eraseDups] at hName
    rcases List.mem_flatMap.mp hName with ⟨values, hValues, hKey⟩
    rcases Success.exists_of_mem_results (accepted_of_rows h).1
        hValues with ⟨record, _, hRow⟩
    rcases row_eq_ok_iff.mp hRow with ⟨stamped, _, hInserted⟩
    exact Resource.mem_owns_of_insertRow hInserted hKey
  keep := hGrounded.keep
  returning := hGrounded.key

/- The condition on the owner is on a declared column. -/
theorem Removal.knows_ownerCondition
    {actor : Option Actor}
    {owner : List Sql.Condition}
    (hSound : r.Sound)
    (h : ownerCondition r actor = .ok owner) :
    ∀ condition ∈ owner, ∀ col ∈ condition.columns,
      c.Knows r col := by
  rcases ownerCondition_cases h with
    ⟨_, rfl⟩ | ⟨o, json, hOwnership, _, rfl⟩
  · simp
  · intro condition hCondition
    rw [List.mem_singleton.mp hCondition]
    have hOwns : o.column ∈ r.owns.keys :=
      Fields.contains_iff_mem_keys.mp
        (hSound.owner o hOwnership)
    exact Catalog.knows_equal
      (.inl (Catalog.declares_column hOwns)) _

/- The conditions of a removal are on known columns. -/
theorem Removal.knows_conditions
    {text : String}
    {actor : Option Actor}
    {found : List Sql.Condition}
    (hResolved : c.Resolved)
    (hr : r ∈ c.resources)
    (h : conditions r text actor = .ok found) :
    ∀ condition ∈ found, ∀ col ∈ condition.columns,
      c.Knows r col := by
  rcases conditions_eq_ok_iff.mp h with
    ⟨key, value, owner, hFound, hOwner, rfl⟩
  rcases Resource.keyKind_of_keyValue hFound with ⟨kind, hKind⟩
  have hKey := Resource.primaryKey_of_keyKind hKind
  intro condition hMem
  rcases List.mem_append.mp hMem with hMem | hLive
  · rcases List.mem_cons.mp hMem with rfl | hMem
    · exact Catalog.knows_equal
        (Resource.knows_key hResolved hr hKey) value
    · exact knows_ownerCondition
        (hResolved.sound.resources r hr) hOwner condition hMem
  · exact Resource.knows_liveCondition hLive

------------------------------------------------------------
-- Resolved catalogs
------------------------------------------------------------

namespace Lookup

/- A lookup whose query can be built sends it. -/
theorem sent_find
    {σ : Type}
    {text : String}
    {request : Request}
    {q : Sql.Query}
    (h : query c r text request.params = .ok q)
    (store : Store σ)
    (state : σ) :
    (find c r text request).sent store state = [.rows q.select] := by
  unfold find
  simp only [h, Conversation.sent]
  cases (store.fetchRows q.select state).1 with
  | error e => rfl
  | ok rows => cases rows <;> rfl

/- A lookup that sends anything has built its query. -/
theorem exists_query_of_sent
    {σ : Type}
    {text : String}
    {request : Request}
    {store : Store σ}
    {state : σ}
    (h : (find c r text request).sent store state ≠ []) :
    ∃ q, query c r text request.params = .ok q := by
  unfold find at h
  cases hQuery : query c r text request.params with
  | error e => simp [hQuery, Conversation.sent] at h
  | ok q => exact ⟨q, rfl⟩

end Lookup

namespace Removal

/- A removal whose conditions can be met sends its statement. -/
theorem sent_remove
    {σ : Type}
    {text : String}
    {request : Request}
    {found : List Sql.Condition}
    (h : conditions r text request.actor = .ok found)
    (store : Store σ)
    (state : σ) :
    (remove r text request).sent store state =
      [.change (statement r found)] := by
  unfold remove
  simp only [h, Conversation.sent]
  cases (store.execute (statement r found) state).1 with
  | error e => rfl
  | ok count => cases count <;> rfl

/- A removal that sends anything has conditions. -/
theorem exists_conditions_of_sent
    {σ : Type}
    {text : String}
    {request : Request}
    {store : Store σ}
    {state : σ}
    (h : (remove r text request).sent store state ≠ []) :
    ∃ found, conditions r text request.actor = .ok found := by
  unfold remove at h
  cases hFound : conditions r text request.actor with
  | error e => simp [hFound, Conversation.sent] at h
  | ok found => exact ⟨found, rfl⟩

/- The statement of a removal names known columns. -/
theorem known_statement
    {found : List Sql.Condition}
    (h : ∀ condition ∈ found, ∀ col ∈ condition.columns,
      c.Knows r col) :
    (∃ u : Sql.Update, u.Known c r ∧
        statement r found = u.statement) ∨
      ∃ d : Sql.Delete, d.Known c r ∧
        statement r found = d.statement := by
  unfold statement
  cases hMark : r.softDelete with
  | some mark =>
      refine .inl ⟨_, ⟨rfl, ?_, h⟩, rfl⟩
      intro entry hEntry
      rw [List.mem_singleton.mp hEntry]
      exact ⟨mark, hMark, rfl⟩
  | none =>
      refine .inr ⟨_, ⟨rfl, ?_⟩, rfl⟩
      intro condition hCondition col hCol
      rcases h condition hCondition col hCol with
        hDeclared | ⟨mark, hSome, _⟩
      · exact hDeclared
      · rw [hMark] at hSome
        cases hSome

end Removal

/- A creation inserts its rows and reads the default columns. -/
theorem Creation.meets_columns
    (baseUrl : String)
    (now : Timestamp)
    (request : Request)
    (body : Json)
    (hResolved : c.Resolved)
    (hr : r ∈ c.resources) :
    (create c baseUrl now r request body).Meets
      (fun call =>
        (∃ i : Sql.Insert, i.Known r ∧
            call.statement = i.statement) ∨
          ∃ q : Sql.Query, q.Chooses c r .byDefault ∧
            call = .rows q.select)
      (fun _ => True) := by
  unfold create
  split
  · exact trivial
  · next items many _ =>
      split
      · exact trivial
      · next found hRows =>
          have hKnown :=
            known_insertion (hResolved.grounded hr) hRows
          exact meets_insertAll baseUrl request many
            (fun _ hCall => .inl ⟨_, hKnown, hCall⟩)
            (fun _ => trivial) (fun _ => trivial)
            (fun _ q hFound =>
              .inr ⟨q, chooses_expansion hResolved hr hFound, rfl⟩)
            fun _ _ _ _ _ => trivial

namespace Catalog.Resolved

variable {σ : Type}

/-
  Whatever is asked and whatever the store answers, operations
  name declared columns only, and the mark of deleted records:
  queries for rows select what the request chooses, insertions
  name columns of the resource, and removals set the mark alone.
-/
theorem columns_declared
    (hResolved : c.Resolved)
    (hr : r ∈ c.resources)
    (baseUrl : String)
    (now : Timestamp)
    (request : Request)
    (text : String)
    (body : Json)
    (store : Store σ)
    (state : σ) :
    (∀ call ∈ (Survey.list c baseUrl r request).sent store state,
      (∃ q : Sql.Query,
          q.Chooses c r (.ofParams request.params) ∧
            call = .rows q.select) ∨
        ∃ q : Sql.Query, q.Known c r ∧ call = .count q.count) ∧
    (∀ call ∈ (Lookup.find c r text request).sent store state,
      ∃ q : Sql.Query,
        q.Chooses c r (.ofParams request.params) ∧
          call = .rows q.select) ∧
    (∀ call ∈
        (Creation.create c baseUrl now r request body).sent
          store state,
      (∃ i : Sql.Insert, i.Known r ∧
          call.statement = i.statement) ∨
        ∃ q : Sql.Query, q.Chooses c r .byDefault ∧
          call = .rows q.select) ∧
    (∀ call ∈ (Removal.remove r text request).sent store state,
      (∃ u : Sql.Update, u.Known c r ∧
          call = .change u.statement) ∨
        ∃ d : Sql.Delete, d.Known c r ∧
          call = .change d.statement) := by
  refine ⟨?_, ?_, ?_, ?_⟩
  · intro call hCall
    rcases Survey.exists_queries_of_sent
        (List.ne_nil_of_mem hCall) with
      ⟨rows, total, hRows, hTotal⟩
    rw [Survey.sent_list hRows hTotal] at hCall
    rcases List.mem_cons.mp hCall with rfl | hCount
    · exact .inl
        ⟨rows, Survey.chooses_rowQuery hResolved hr hRows, rfl⟩
    · split at hCount
      · rw [List.mem_singleton.mp hCount]
        exact .inr
          ⟨total, Survey.known_countQuery hResolved hr hTotal, rfl⟩
      · cases hCount
  · intro call hCall
    rcases Lookup.exists_query_of_sent
        (List.ne_nil_of_mem hCall) with ⟨q, hQuery⟩
    rw [Lookup.sent_find hQuery] at hCall
    exact ⟨q, Lookup.chooses_query hResolved hr hQuery,
      List.mem_singleton.mp hCall⟩
  · exact
      (Creation.meets_columns baseUrl now request body hResolved
        hr).of_mem_sent store state
  · intro call hCall
    rcases Removal.exists_conditions_of_sent
        (List.ne_nil_of_mem hCall) with ⟨found, hFound⟩
    rw [Removal.sent_remove hFound] at hCall
    rw [List.mem_singleton.mp hCall]
    rcases Removal.known_statement
        (Removal.knows_conditions hResolved hr hFound) with
      ⟨u, hKnown, hSame⟩ | ⟨d, hKnown, hSame⟩
    · exact .inl ⟨u, hKnown, by rw [hSame]⟩
    · exact .inr ⟨d, hKnown, by rw [hSame]⟩

/- A survey of ideas with their members, and what it names. -/
theorem columns_declared_sample :
    ((Survey.list sample "" Resource.sample Request.sample).sent
        Store.empty ()).length = 2 ∧
      ∀ call ∈
          (Survey.list sample "" Resource.sample
            Request.sample).sent Store.empty (),
        (∃ q : Sql.Query,
            q.Chooses sample Resource.sample
                (.requested ["title"]) ∧
              call = .rows q.select) ∨
          ∃ q : Sql.Query, q.Known sample Resource.sample ∧
            call = .count q.count := by
  refine ⟨rfl, ?_⟩
  have hSample :=
    columns_declared sample_resolved mem_sample "" ⟨0, 0, 0⟩
      Request.sample "1" .null Store.empty ()
  exact hSample.1

end Catalog.Resolved

/-
  Notes with an identifier and a text, whose deleted records
  are marked in a column that is not declared.
-/
def Declaration.marked : List Declaration :=
  [ { name := "notes"
      table := "note"
      primaryKey := some "id"
      softDelete := some (.column "deleted")
      fields :=
        [ ("id", { type := .named "int", props := ["default"] })
        , ("text", { type := .named "string" }) ] } ]

/- A request for unknown fields selects the whole table. -/
theorem Catalog.exists_undeclared_column :
    ∃ c r,
      Declaration.resolve Declaration.marked = .ok c ∧
        c.find? "notes" = some r ∧
        (Survey.list c "" r
            { path := "/notes"
              params := .parse "fields=bogus"
              actor := none }).sent Store.empty () =
          [ .rows
              { sql :=
                  "SELECT \"note\".* FROM \"note\" " ++
                    "WHERE \"note\".\"deleted\" = $1"
                params := [.bool false] }
          , .count
              { sql :=
                  "SELECT COUNT(*) AS \"count\" FROM \"note\" " ++
                    "WHERE \"note\".\"deleted\" = $1"
                params := [.bool false] } ] ∧
        ¬ c.Declares r ⟨"note", "deleted"⟩ := by
  refine ⟨_, _, rfl, rfl, rfl, ?_⟩
  rintro (⟨_, hOwns⟩ | ⟨relation, related, hRelation, _⟩)
  · exact absurd hOwns (by decide)
  · cases hRelation

end RelationalRest
