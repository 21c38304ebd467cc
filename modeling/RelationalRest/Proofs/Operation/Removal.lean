import RelationalRest.Proofs.Listing.ColumnFilter
import RelationalRest.Proofs.Operation.Ownership
import RelationalRest.Proofs.Operation.SoftDeletion

/-
  What a removal does to a table.  It sends one statement at
  most, an assignment to the mark or a deletion whose text and
  parameters ask for the key, the owner and the mark.  Read
  back, the statement touches exactly the records that a lookup
  of the same key finds and that are the actor's own.  A record
  is said not to exist only after the statement has touched
  none.

  Key definitions include:
    * `Removal.Owns`
    * `Removal.Sends`

  Main declarations:
    * `Removal.exists_holding`
    * `Removal.exists_sends`
    * `Removal.touches_iff`
    * `Removal.notFound_iff`
    * `Catalog.Resolved.removal_within_lookup`
-/

namespace RelationalRest

variable {c : Catalog}
variable {r : Resource}
variable {k : Sql.Comparing}
variable {t : Sql.Tuple}
variable {text : String}
variable {actor : Option Actor}
variable {found : List Sql.Condition}

------------------------------------------------------------
-- Records that a removal touches
------------------------------------------------------------

namespace Removal

/-
  Where records have owners, the actor is one, and the record
  is the actor's own.
-/
def Owns
    (k : Sql.Comparing)
    (r : Resource)
    (actor : Option Actor)
    (t : Sql.Tuple) : Prop :=
  ∀ o ∈ r.ownership, ∃ owner,
    (actor.bind fun a => a.field? o.actorField) = some owner ∧
      k.test .eq (t o.column) (Sql.Value.ofJson owner)

/- The condition on the owner holds of the actor's own records. -/
theorem holds_ownerCondition_iff
    {owner : List Sql.Condition}
    (h : ownerCondition r actor = .ok owner) :
    (∀ condition ∈ owner,
        condition.Holds k fun col => t col.name) ↔
      Owns k r actor t := by
  unfold Owns
  rcases ownerCondition_cases h with
    ⟨hNone, rfl⟩ | ⟨o, json, hOwnership, hOwner, rfl⟩
  · simp [hNone]
  · have hField := Resource.ownerOf_eq_ok_iff.mp hOwner
    simp [hOwnership, Sql.Condition.holds_equal, Resource.column,
      hField]

/- The condition on the owner demands what columns hold. -/
theorem exists_holding_ownerCondition
    {owner : List Sql.Condition}
    (h : ownerCondition r actor = .ok owner) :
    ∃ held, owner = Sql.holding r.table.name held := by
  rcases ownerCondition_cases h with
    ⟨_, rfl⟩ | ⟨o, json, _, _, rfl⟩
  · exact ⟨[], rfl⟩
  · exact ⟨[(o.column, Sql.Value.ofJson json)], rfl⟩

/- The conditions of a removal demand the key, and what else. -/
theorem exists_holding
    {key : String}
    {value : Sql.Value}
    (hKey : r.keyValue text = .ok (key, value))
    (hFound : conditions r text actor = .ok found) :
    ∃ later,
      found = Sql.holding r.table.name ((key, value) :: later) := by
  rcases conditions_eq_ok_iff.mp hFound with
    ⟨key', value', owner, hKey', hOwner, rfl⟩
  cases hKey.symm.trans hKey'
  rcases exists_holding_ownerCondition hOwner with ⟨held, rfl⟩
  refine ⟨held ++ live r, ?_⟩
  rw [← holding_live]
  simp [Sql.holding, Resource.column]

/-
  A statement is the removal of the records which meet these
  conditions, and has this effect: it is an assignment to the
  mark, or a deletion where there is none, whose text and
  parameters are those of its opening and of the conditions,
  and what it is read back as demands what these demand.
-/
structure Sends
    (r : Resource)
    (found : List Sql.Condition)
    (s : Sql.Statement)
    (e : Sql.Effect) : Prop where
  marks :
    ∀ mark ∈ r.softDelete,
      s = (marking r mark found).statement ∧
        ∀ k t, e.Touches k t ↔ (marking r mark found).Changes k t
  deletes :
    r.softDelete = none →
      s = (deletion r found).statement ∧
        ∀ k t, e.Touches k t ↔ (deletion r found).Removes k t
  sql :
    s.sql =
      opening r ++
        Sql.textFrom (bound r) (Sql.wherePieces found)
  params :
    s.params =
      Sql.params (openingPieces r) ++
        Sql.params (Sql.wherePieces found)
  effect : s.effect? = some e
  table : e.table = r.table.name
  assigned :
    e.assigned =
      r.softDelete.map fun mark =>
        (mark.column, Sql.Value.ofJson mark.deleted)
  held : found = Sql.holding r.table.name e.held

/- The statement of a removal is one, and binds the key. -/
theorem exists_sends
    {key : String}
    {value : Sql.Value}
    (hKey : r.keyValue text = .ok (key, value))
    (hFound : conditions r text actor = .ok found) :
    ∃ e,
      Sends r found (statement r found) e ∧
        (statement r found).params[bound r]? = some value := by
  rcases exists_holding hKey hFound with ⟨later, rfl⟩
  refine ⟨effect r ((key, value) :: later), ?_, ?_⟩
  · exact
      { marks := fun mark hMark =>
          ⟨statement_eq_marking hMark _,
            fun _ _ => Sql.Effect.touches_iff r.table.name⟩
        deletes := fun hMark =>
          ⟨statement_eq_deletion hMark _,
            fun _ _ => Sql.Effect.touches_iff r.table.name⟩
        sql := sql_statement r _
        params := params_statement r _
        effect := effect?_statement r _ _
        table := rfl
        assigned := rfl
        held := rfl }
  · exact
      getElem?_params_statement (Resource.isNull_of_keyValue hKey) _

/-
  A removal touches the records that a lookup of its key finds
  and that are the actor's own.
-/
theorem touches_iff
    {q : Sql.Query}
    {s : Sql.Statement}
    {e : Sql.Effect}
    {key : String}
    {value : Sql.Value}
    (hKey : r.keyValue text = .ok (key, value))
    (hFound : conditions r text actor = .ok found)
    (hSends : Sends r found s e)
    (hRoot : q.root = r.table)
    (hConditions :
      q.conditions =
        r.liveCondition?.toList ++
          [.equal (r.column key) value]) :
    e.Touches k t ↔ q.Finds k t ∧ Owns k r actor t := by
  rcases conditions_eq_ok_iff.mp hFound with
    ⟨key', value', owner, hKey', hOwner, hSame⟩
  cases hKey.symm.trans hKey'
  rw [Sql.Effect.touches_iff r.table.name, ← hSends.held, hSame,
    Lookup.finds_iff_holds hRoot hConditions,
    ← holds_ownerCondition_iff hOwner, hConditions]
  simp only [List.cons_append, List.mem_cons, List.mem_append,
    List.not_mem_nil, or_false, or_imp, forall_and, forall_eq]
  constructor
  · rintro ⟨hEqual, hOwns, hLive⟩
    exact ⟨⟨hLive, hEqual⟩, hOwns⟩
  · rintro ⟨⟨hLive, hEqual⟩, hOwns⟩
    exact ⟨hEqual, hOwns, hLive⟩

end Removal

------------------------------------------------------------
-- Answers
------------------------------------------------------------

namespace Removal

/- A refusal never says that there is no such record. -/
theorem class_of_conditions
    {e : RequestError}
    (h : conditions r text actor = .error e) :
    e.errorClass ≠ .notFound := by
  intro hClass
  have hRefuses := ((refusing_conditions r text actor).refusal h).refuses
  rw [hClass] at hRefuses
  exact hRefuses

/-
  A record is said not to exist exactly if the statement was
  sent and touched no record.
-/
theorem notFound_iff
    {σ : Type}
    {request : Request}
    {store : Store σ}
    {state : σ} :
    (∃ e, ((remove r text request).run store state).1 = .error e ∧
        e.errorClass = .notFound) ↔
      ∃ found,
        conditions r text request.actor = .ok found ∧
          (store.execute (statement r found) state).1 = .ok 0 := by
  unfold remove
  cases hFound : conditions r text request.actor with
  | error e =>
      simp only [Conversation.run, Except.error.injEq,
        exists_eq_left', reduceCtorEq, false_and, exists_false,
        iff_false]
      exact class_of_conditions hFound
  | ok found =>
      simp only [Conversation.run, Except.ok.injEq,
        exists_eq_left']
      cases (store.execute (statement r found) state).1 with
      | error e => simp [Conversation.run, RequestError.errorClass]
      | ok count =>
          cases count with
          | zero => simp [Conversation.run, RequestError.errorClass]
          | succ count => simp [Conversation.run]

end Removal

------------------------------------------------------------
-- Resolved catalogs
------------------------------------------------------------

namespace Catalog.Resolved

variable {σ τ : Type}

/-
  A removal sends at most one statement, which assigns to the
  mark alone or deletes where there is no mark, and asks for the
  key that every lookup of the same text asks for.  It touches
  exactly the records that the lookup finds and that are the
  actor's own, and the answer is that there is no such record
  exactly if the statement touched none.
-/
theorem removal_within_lookup
    (hResolved : c.Resolved)
    (hr : r ∈ c.resources)
    (k : Sql.Comparing)
    (text : String)
    (request : Request)
    (store : Store σ)
    (state : σ) :
    ((Removal.remove r text request).sent store state).length ≤ 1 ∧
    (∀ call ∈ (Removal.remove r text request).sent store state,
      ∃ found key value s e,
        Removal.conditions r text request.actor = .ok found ∧
          r.keyValue text = .ok (key, value) ∧
          value.isNull = false ∧
          call = .change s ∧
          Removal.Sends r found s e ∧
          s.params[Removal.bound r]? = some value ∧
          ∀ (later : Request) (store' : Store τ) (state' : τ),
            ∃ q : Sql.Query,
              (Lookup.find c r text later).sent store' state' =
                  [.rows q.select] ∧
                q.root = r.table ∧
                q.conditions =
                  r.liveCondition?.toList ++
                    [.equal (r.column key) value] ∧
                q.select.params.getLast? = some value ∧
                ∀ t : Sql.Tuple,
                  e.Touches k t ↔
                    q.Finds k t ∧
                      Removal.Owns k r request.actor t) ∧
    ((∃ e,
        ((Removal.remove r text request).run store state).1 =
            .error e ∧
          e.errorClass = .notFound) ↔
      ∃ s,
        (Removal.remove r text request).sent store state =
            [.change s] ∧
          (store.execute s state).1 = .ok 0) := by
  cases hFound : Removal.conditions r text request.actor with
  | error e =>
      have hSent :
          (Removal.remove r text request).sent store state = [] := by
        simp [Removal.remove, hFound, Conversation.sent]
      rw [Removal.notFound_iff, hSent]
      simp [hFound]
  | ok found =>
      rw [Removal.notFound_iff, Removal.sent_remove hFound]
      refine ⟨Nat.le_refl 1, ?_, ?_⟩
      · intro call hCall
        rw [List.mem_singleton.mp hCall]
        rcases Removal.conditions_eq_ok_iff.mp hFound with
          ⟨key, value, _, hKey, _, _⟩
        have hPresent := Resource.isNull_of_keyValue hKey
        rcases Removal.exists_sends hKey hFound with
          ⟨e, hSends, hBinds⟩
        refine ⟨found, key, value, _, e, rfl, hKey, hPresent, rfl,
          hSends, hBinds, ?_⟩
        intro later store' state'
        rcases Lookup.exists_query hResolved.sound hr hKey
            later.params with ⟨q, hQuery, hRoot, hConditions⟩
        exact
          ⟨q, Lookup.sent_find hQuery store' state', hRoot,
            hConditions,
            Sql.Query.getLast?_params hConditions hPresent,
            fun _ =>
              Removal.touches_iff hKey hFound hSends hRoot
                hConditions⟩
      · simp [hFound]

/- The removal of a note that is the actor's own. -/
theorem removal_within_lookup_sample :
    ∃ (s : Sql.Statement) (e : Sql.Effect) (q : Sql.Query),
      s =
          { sql :=
              "DELETE FROM \"note\" " ++
                "WHERE \"note\".\"id\" = $1 " ++
                "AND \"note\".\"owner_id\" = $2"
            params := [.int 1, .int 7] } ∧
        (Removal.remove Resource.owned "1"
            (Request.of (.number (.int 7)))).sent
            Store.obliging () = [.change s] ∧
        Removal.Sends Resource.owned
          [ .equal ⟨"note", "id"⟩ (.int 1)
          , .equal ⟨"note", "owner_id"⟩ (.int 7) ] s e ∧
        (Lookup.find owned Resource.owned "1"
            Request.sample).sent Store.empty () =
          [.rows q.select] ∧
        q.conditions = [.equal ⟨"note", "id"⟩ (.int 1)] ∧
        (∀ t : Sql.Tuple,
          e.Touches .strict t ↔
            q.Finds .strict t ∧
              Removal.Owns .strict Resource.owned
                (Request.of (.number (.int 7))).actor t) ∧
        ¬ ∃ refused,
          ((Removal.remove Resource.owned "1"
              (Request.of (.number (.int 7)))).run
              Store.obliging ()).1 = .error refused ∧
            refused.errorClass = .notFound := by
  rcases removal_within_lookup (τ := Unit) owned_resolved mem_owned
      .strict "1" (Request.of (.number (.int 7))) Store.obliging () with
    ⟨_, hSent, hAnswer⟩
  have hConditions :
      Removal.conditions Resource.owned "1"
          (Request.of (.number (.int 7))).actor =
        .ok
          [ .equal ⟨"note", "id"⟩ (.int 1)
          , .equal ⟨"note", "owner_id"⟩ (.int 7) ] := rfl
  have hOne :
      (Removal.remove Resource.owned "1"
          (Request.of (.number (.int 7)))).sent Store.obliging () =
        [ .change
            { sql :=
                "DELETE FROM \"note\" " ++
                  "WHERE \"note\".\"id\" = $1 " ++
                  "AND \"note\".\"owner_id\" = $2"
              params := [.int 1, .int 7] } ] := rfl
  rcases hSent _ (hOne ▸ List.mem_cons_self) with
    ⟨found, key, value, s, e, hFound, hKey, _, hCall, hSends, _,
      hFinds⟩
  cases hConditions.symm.trans hFound
  cases hCall
  have hOneKey : Resource.owned.keyValue "1" = .ok ("id", .int 1) :=
    rfl
  cases hOneKey.symm.trans hKey
  rcases hFinds Request.sample Store.empty () with
    ⟨q, hFind, _, hAsked, _, hTouches⟩
  refine ⟨_, e, q, rfl, hOne, hSends, hFind, hAsked, hTouches, ?_⟩
  rw [hAnswer]
  rintro ⟨s, _, hNone⟩
  cases hNone

end Catalog.Resolved

end RelationalRest
