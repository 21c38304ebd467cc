import RelationalRest.Proofs.Listing.Covering
import RelationalRest.Proofs.Operation.RemovalStatement

/-
  What becomes of records that a removal marks as deleted.

  The removal assigns one value to the mark, and every query
  for records demands another of it.  A record that was
  changed is found by its key exactly if the first value
  passes for the second, and no survey finds it otherwise.

  Key definitions include:
    * `SoftDelete.Confuses`

  Main declarations:
    * `Lookup.exists_query`
    * `Lookup.finds_iff_holds`
    * `Lookup.finds_marked_iff`
    * `Survey.confuses_of_finds`
    * `Catalog.Resolved.marked_found_iff`
-/

namespace RelationalRest

variable {c : Catalog}
variable {r : Resource}
variable {mark : SoftDelete}
variable {k : Sql.Comparing}
variable {q : Sql.Query}
variable {t : Sql.Tuple}

------------------------------------------------------------
-- Marks
------------------------------------------------------------

/-
  A mark confuses its values, if that of deleted records passes
  for that of live ones.
-/
def SoftDelete.Confuses
    (mark : SoftDelete)
    (k : Sql.Comparing) : Prop :=
  k.test .eq (Sql.Value.ofJson mark.deleted)
    (Sql.Value.ofJson mark.live)

/- The condition that a record is live tests the mark. -/
theorem Resource.liveCondition?_eq
    (hMark : r.softDelete = some mark) :
    r.liveCondition? =
      some
        (.equal (r.column mark.column)
          (Sql.Value.ofJson mark.live)) := by
  simp [liveCondition?, hMark]

namespace Removal

/- What marking makes of a record. -/
theorem assign_marking
    (r : Resource)
    (mark : SoftDelete)
    (conditions : List Sql.Condition)
    (t : Sql.Tuple)
    (name : String) :
    (marking r mark conditions).assign t name =
      if name = mark.column then Sql.Value.ofJson mark.deleted
      else t name := by
  by_cases hName : name = mark.column
  · subst hName
    simp [Sql.Update.assign, marking, Fields.get?]
  · simp [Sql.Update.assign, marking, Fields.get?, hName,
      Ne.symm hName]

/-
  A record that marking changes has the key of the removal, and
  was live.
-/
theorem tests_of_changes
    {text key : String}
    {value : Sql.Value}
    {actor : Option Actor}
    {found : List Sql.Condition}
    (hMark : r.softDelete = some mark)
    (hKey : r.keyValue text = .ok (key, value))
    (hFound : conditions r text actor = .ok found)
    (h : (marking r mark found).Changes k t) :
    k.test .eq (t key) value ∧
      k.test .eq (t mark.column) (Sql.Value.ofJson mark.live) := by
  rcases conditions_eq_ok_iff.mp hFound with
    ⟨key', value', owner, hKey', _, hSame⟩
  cases hKey.symm.trans hKey'
  have hHolds :
      ∀ col v, Sql.Condition.equal col v ∈ found →
        k.test .eq (t col.name) v :=
    fun col v hMem => Sql.Condition.holds_equal.mp (h _ hMem)
  rw [r.liveCondition?_eq hMark] at hSame
  subst hSame
  exact ⟨hHolds (r.column key) value (by simp),
    hHolds (r.column mark.column) _ (by simp)⟩

end Removal

------------------------------------------------------------
-- Lookups
------------------------------------------------------------

namespace Lookup

/- A lookup by a valid key demands the mark and the key. -/
theorem exists_query
    {text key : String}
    {value : Sql.Value}
    (hSound : c.Sound)
    (hr : r ∈ c.resources)
    (hKey : r.keyValue text = .ok (key, value))
    (params : Params) :
    ∃ q, query c r text params = .ok q ∧ q.root = r.table ∧
      q.conditions =
        r.liveCondition?.toList ++
          [.equal (r.column key) value] := by
  have hAnswers := answers_query text params hSound hr
  have hConditions :=
    ((Projection.ofParams params).covers_apply c r
      (r.liveQuery.addCondition
        (.equal (r.column key) value))).conditions
  have hQuery :
      query c r text params =
        .ok
          ((Projection.ofParams params).apply c r
            (r.liveQuery.addCondition
              (.equal (r.column key) value))).query := by
    simp [query, hKey, Projection.result_apply _ hSound hr]
  exact ⟨_, hQuery, (hAnswers.of_ok hQuery).root, hConditions⟩

/-
  A lookup of a key finds the records that have the key and
  are not marked.
-/
theorem finds_iff_holds
    {key : String}
    {value : Sql.Value}
    (hRoot : q.root = r.table)
    (hConditions :
      q.conditions =
        r.liveCondition?.toList ++
          [.equal (r.column key) value]) :
    q.Finds k t ↔
      ∀ condition ∈ q.conditions,
        condition.Holds k fun col => t col.name := by
  have hHolding :
      q.conditions =
        Sql.holding q.root.name
          (Removal.live r ++ [(key, value)]) := by
    rw [hConditions, hRoot, ← Removal.holding_live, Sql.holding,
      Sql.holding, List.map_append]
    rfl
  exact Sql.Query.finds_iff_of_holding hHolding

/- What a lookup finds passes for live and has the key. -/
theorem finds_iff
    {key : String}
    {value : Sql.Value}
    (hMark : r.softDelete = some mark)
    (hRoot : q.root = r.table)
    (hConditions :
      q.conditions =
        r.liveCondition?.toList ++
          [.equal (r.column key) value]) :
    q.Finds k t ↔
      k.test .eq (t mark.column) (Sql.Value.ofJson mark.live) ∧
        k.test .eq (t key) value := by
  rw [finds_iff_holds hRoot hConditions, hConditions,
    r.liveCondition?_eq hMark]
  simp [Sql.Condition.holds_equal, Resource.column]

/-
  A record that marking changed is found by its key exactly if
  the mark confuses its values.
-/
theorem finds_marked_iff
    {text key : String}
    {value : Sql.Value}
    {actor : Option Actor}
    {found : List Sql.Condition}
    (hMark : r.softDelete = some mark)
    (hKey : r.keyValue text = .ok (key, value))
    (hFound : Removal.conditions r text actor = .ok found)
    (hChanges : (Removal.marking r mark found).Changes k t)
    (hRoot : q.root = r.table)
    (hConditions :
      q.conditions =
        r.liveCondition?.toList ++
          [.equal (r.column key) value]) :
    q.Finds k ((Removal.marking r mark found).assign t) ↔
      mark.Confuses k := by
  have hTests := Removal.tests_of_changes hMark hKey hFound hChanges
  rw [finds_iff hMark hRoot hConditions, Removal.assign_marking,
    Removal.assign_marking, if_pos rfl]
  constructor
  · exact And.left
  · intro hConfuses
    refine ⟨hConfuses, ?_⟩
    by_cases hSame : key = mark.column
    · -- the mark is the key, whose value is lost
      rw [if_pos hSame]
      rw [hSame] at hTests
      exact Sql.Comparing.test_eq_of_shared hTests.1 hTests.2
        hConfuses
    · rw [if_neg hSame]
      exact hTests.1

end Lookup

------------------------------------------------------------
-- Surveys
------------------------------------------------------------

namespace Survey

/- What a query with the live condition finds passes for live. -/
theorem live_of_finds
    (hMark : r.softDelete = some mark)
    (hRoot : q.root = r.table)
    (hLive :
      ∀ condition ∈ r.liveCondition?.toList,
        condition ∈ q.conditions)
    (h : q.Finds k t) :
    k.test .eq (t mark.column) (Sql.Value.ofJson mark.live) := by
  rcases h with ⟨env, hEnv, hAll⟩
  rw [r.liveCondition?_eq hMark] at hLive
  have hTest :=
    Sql.Condition.holds_equal.mp
      (hAll _ (hLive _ List.mem_cons_self))
  have hColumn : env (r.column mark.column) = t mark.column := by
    rw [← hEnv, hRoot]
    rfl
  rwa [hColumn] at hTest

/-
  A marked record is found by a query with the live condition
  only if the mark confuses its values.
-/
theorem confuses_of_finds
    {found : List Sql.Condition}
    (hMark : r.softDelete = some mark)
    (hRoot : q.root = r.table)
    (hLive :
      ∀ condition ∈ r.liveCondition?.toList,
        condition ∈ q.conditions)
    (h : q.Finds k ((Removal.marking r mark found).assign t)) :
    mark.Confuses k := by
  have hTest := live_of_finds hMark hRoot hLive h
  rwa [Removal.assign_marking, if_pos rfl] at hTest

/- The queries of a survey demand that records are live. -/
theorem live_of_queries
    {params : Params}
    {rows total : Sql.Query}
    (hRows : rowQuery c r params = .ok rows)
    (hTotal : countQuery c r params = .ok total) :
    (∀ condition ∈ r.liveCondition?.toList,
        condition ∈ rows.conditions) ∧
      ∀ condition ∈ r.liveCondition?.toList,
        condition ∈ total.conditions := by
  let P : Sql.Query → Prop := fun q =>
    ∀ condition ∈ r.liveCondition?.toList,
      condition ∈ q.conditions
  have hCount : P total := by
    refine query_countQuery ?_ ?_
      (show P r.liveQuery from fun _ h => h) hTotal
    · intro q condition _ hq live hLive
      exact List.mem_append_left _ (hq live hLive)
    · intro q j _ hq live hLive
      rw [(Sql.Query.Covers.leftJoin q j).conditions]
      exact hq live hLive
  refine ⟨?_, hCount⟩
  rw [(covers_total hRows hTotal).conditions]
  exact hCount

end Survey

------------------------------------------------------------
-- Resolved catalogs
------------------------------------------------------------

/- A removal that succeeds had conditions, and a key. -/
theorem Removal.exists_conditions_of_removed
    {σ : Type}
    {text : String}
    {request : Request}
    {store : Store σ}
    {state : σ}
    (h : ((remove r text request).run store state).1 = .ok ()) :
    ∃ found key value,
      conditions r text request.actor = .ok found ∧
        r.keyValue text = .ok (key, value) := by
  unfold remove at h
  cases hFound : conditions r text request.actor with
  | error e => simp [hFound, Conversation.run] at h
  | ok found =>
      rcases conditions_eq_ok_iff.mp hFound with
        ⟨key, value, _, hKey, _, _⟩
      exact ⟨found, key, value, rfl, hKey⟩

/- A store that changes one record, whatever it is told. -/
def Store.obliging : Store Unit where
  fetchRows := fun _ state => (.ok [], state)
  fetchCount := fun _ state => (.ok 0, state)
  execute := fun _ state => (.ok 1, state)

namespace Catalog.Resolved

variable {σ τ : Type}

/-
  Where deleted records are marked, a removal that succeeds
  has marked some, and afterwards a record that it changed is
  found by the same key, whatever else is asked, exactly if the
  mark confuses its values; if it does not, no survey finds the
  record or counts it.
-/
theorem marked_found_iff
    (hResolved : c.Resolved)
    (hr : r ∈ c.resources)
    (hMark : r.softDelete = some mark)
    (k : Sql.Comparing)
    {text : String}
    {request : Request}
    {store : Store σ}
    {state : σ}
    (hRemoved :
      ((Removal.remove r text request).run store state).1 =
        .ok ())
    (baseUrl : String)
    (later : Request)
    (store' : Store τ)
    (state' : τ) :
    ∃ found,
      Removal.conditions r text request.actor = .ok found ∧
        (Removal.remove r text request).sent store state =
          [.change (Removal.marking r mark found).statement] ∧
        ∀ t : Sql.Tuple,
          (Removal.marking r mark found).Changes k t →
            (∃ q : Sql.Query,
              (Lookup.find c r text later).sent store' state' =
                  [.rows q.select] ∧
                q.root = r.table ∧
                (q.Finds k
                    ((Removal.marking r mark found).assign t) ↔
                  mark.Confuses k)) ∧
            ∀ call ∈
                (Survey.list c baseUrl r later).sent store' state',
              ∃ q : Sql.Query,
                (call = .rows q.select ∨ call = .count q.count) ∧
                  q.root = r.table ∧
                  (q.Finds k
                      ((Removal.marking r mark found).assign t) →
                    mark.Confuses k) := by
  have hSound := hResolved.sound
  rcases Removal.exists_conditions_of_removed hRemoved with
    ⟨found, key, value, hFound, hKey⟩
  refine ⟨found, hFound, ?_, ?_⟩
  · rw [Removal.sent_remove hFound,
      Removal.statement_eq_marking hMark]
  intro t hChanges
  constructor
  · rcases Lookup.exists_query hSound hr hKey later.params with
      ⟨q, hQuery, hRoot, hConditions⟩
    exact ⟨q, Lookup.sent_find hQuery store' state', hRoot,
      Lookup.finds_marked_iff hMark hKey hFound hChanges hRoot
        hConditions⟩
  · intro call hCall
    rcases Survey.exists_queries_of_sent
        (List.ne_nil_of_mem hCall) with
      ⟨rows, total, hRows, hTotal⟩
    have hLive := Survey.live_of_queries hRows hTotal
    have hRowsRoot :=
      ((Survey.scoped_rowQuery later.params hSound hr).of_ok
        hRows).table
    have hTotalRoot :=
      ((Survey.scoped_countQuery later.params hSound hr).of_ok
        hTotal).table
    rw [Survey.sent_list hRows hTotal] at hCall
    rcases List.mem_cons.mp hCall with rfl | hCount
    · exact ⟨rows, .inl rfl, hRowsRoot,
        Survey.confuses_of_finds hMark hRowsRoot hLive.1⟩
    · refine ⟨total, .inr ?_, hTotalRoot,
        Survey.confuses_of_finds hMark hTotalRoot hLive.2⟩
      split at hCount
      · exact List.mem_singleton.mp hCount
      · cases hCount

/- An idea that was removed is not found again. -/
theorem marked_found_iff_sample :
    ∃ (u : Sql.Update) (t : Sql.Tuple) (q : Sql.Query),
      (Removal.remove Resource.sample "1" Request.sample).sent
          Store.obliging () = [.change u.statement] ∧
        u.Changes .strict t ∧
        (Lookup.find sample Resource.sample "1"
            Request.sample).sent Store.empty () =
          [.rows q.select] ∧
        ¬ q.Finds .strict (u.assign t) := by
  let mark : SoftDelete :=
    { column := "deleted", live := .bool false, deleted := .bool true }
  have hConditions :
      Removal.conditions Resource.sample "1" none =
        .ok
          [ .equal ⟨"idea", "id"⟩ (.int 1)
          , .equal ⟨"idea", "deleted"⟩ (.bool false) ] := rfl
  rcases marked_found_iff sample_resolved mem_sample
      (show Resource.sample.softDelete = some mark from rfl)
      .strict
      (show ((Removal.remove Resource.sample "1"
        Request.sample).run Store.obliging ()).1 = .ok () from rfl)
      "" Request.sample Store.empty () with
    ⟨found, hFound, hSent, hAll⟩
  have hSame := hConditions.symm.trans hFound
  cases hSame
  let t : Sql.Tuple := fun name =>
    if name = "id" then .int 1 else .bool false
  have hChanges :
      (Removal.marking Resource.sample mark
        [ .equal ⟨"idea", "id"⟩ (.int 1)
        , .equal ⟨"idea", "deleted"⟩ (.bool false) ]).Changes
          .strict t := by
    simp [Sql.Update.Changes, Removal.marking, t,
      Sql.Condition.holds_equal, Sql.Comparing.test,
      Sql.Comparing.strict, Sql.Value.isNull]
  rcases (hAll t hChanges).1 with ⟨q, hFind, _, hFinds⟩
  refine ⟨_, t, q, hSent, hChanges, hFind, ?_⟩
  rw [hFinds]
  simp [SoftDelete.Confuses, mark, Sql.Comparing.test,
    Sql.Comparing.strict, Sql.Value.ofJson, Sql.Value.isNull]

end Catalog.Resolved

/-
  Notes whose mark is true for live records, where the value
  for deleted ones is the default.
-/
def Declaration.active : List Declaration :=
  [ { name := "notes"
      table := "note"
      primaryKey := some "id"
      softDelete :=
        some
          (.values "active" (.bool true)
            SoftDeleteDeclaration.defaultDeleted)
      fields :=
        [ ("id", { type := .named "int", props := ["default"] })
        , ("active", { type := .named "bool" }) ] } ]

/- The catalog of such notes. -/
def Catalog.active : Catalog :=
  (Declaration.resolve Declaration.active).toOption.getD {}

/- The resource of such notes. -/
def Resource.active : Resource :=
  (Catalog.active.find? "notes").get rfl

/-
  The removal of such a note succeeds and leaves the note as it
  was, to be found by its key.
-/
theorem Catalog.exists_found_after_removal :
    ∃ (mark : SoftDelete) (found : List Sql.Condition)
        (t : Sql.Tuple) (q : Sql.Query),
      Declaration.resolve Declaration.active = .ok active ∧
        active.find? "notes" = some Resource.active ∧
        Resource.active.softDelete = some mark ∧
        Removal.conditions Resource.active "1" none = .ok found ∧
        ((Removal.remove Resource.active "1" Request.sample).run
            Store.obliging ()).1 = .ok () ∧
        (Removal.remove Resource.active "1" Request.sample).sent
            Store.obliging () =
          [ .change
              { sql :=
                  "UPDATE \"note\" SET \"active\" = $1 " ++
                    "WHERE \"note\".\"id\" = $2 " ++
                    "AND \"note\".\"active\" = $3"
                params := [.bool true, .int 1, .bool true] } ] ∧
        (Removal.marking Resource.active mark found).Changes
            .strict t ∧
        Lookup.query active Resource.active "1" {} = .ok q ∧
        q.Finds .strict
          ((Removal.marking Resource.active mark found).assign t) := by
  let mark : SoftDelete :=
    { column := "active", live := .bool true, deleted := .bool true }
  let t : Sql.Tuple := fun name =>
    if name = "id" then .int 1 else .bool true
  have hSound : active.Sound :=
    sound_of_resolve
      (show Declaration.resolve Declaration.active = .ok active
        from rfl)
  have hMem : Resource.active ∈ active.resources :=
    mem_resources_of_find? (Option.some_get _).symm
  rcases Lookup.exists_query hSound hMem
      (show Resource.active.keyValue "1" = .ok ("id", .int 1)
        from rfl) {} with
    ⟨q, hQuery, hRoot, hConditions⟩
  refine ⟨mark,
    [ .equal ⟨"note", "id"⟩ (.int 1)
    , .equal ⟨"note", "active"⟩ (.bool true) ],
    t, q, rfl, rfl, rfl, rfl, rfl, rfl, ?_, hQuery, ?_⟩
  · simp [Sql.Update.Changes, Removal.marking, t,
      Sql.Condition.holds_equal, Sql.Comparing.test,
      Sql.Comparing.strict, Sql.Value.isNull]
  · rw [Lookup.finds_iff
      (show Resource.active.softDelete = some mark from rfl)
      hRoot hConditions]
    simp [Removal.assign_marking, mark, t, Sql.Comparing.test,
      Sql.Comparing.strict, Sql.Value.ofJson, Sql.Value.isNull]

end RelationalRest
