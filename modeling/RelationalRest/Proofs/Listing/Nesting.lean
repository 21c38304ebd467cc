import RelationalRest.Proofs.Catalog.Declared
import RelationalRest.Proofs.Listing.Steps
import RelationalRest.Proofs.Text.FormEncoding
import RelationalRest.Proofs.Text.Split

/-
  Filters of a relation mean what they mean on the related
  resource itself.  What is written under the label is read
  back as the pairs it was written from; the two runs over the
  filterable fields are then taken step by step, and whenever
  one goes on the other does, with the same conditions up to
  the name of the table.

  Key definitions include:
    * `Filter.written`
    * `Filter.Writable`
    * `Filter.Separable`
    * `Sql.Condition.renamed`
    * `Building.Tandem`
    * `Filter.Mirrored`

  Main declarations:
    * `Filter.Separable.read_written`
    * `Filter.Writable.subrequests_written`
    * `Kind.condition_cases`
    * `Building.tandem_each`
    * `Filter.tandem_apply`
    * `Catalog.Resolved.nested_as_plain`
-/

namespace RelationalRest

------------------------------------------------------------
-- Written filters
------------------------------------------------------------

namespace Filter

/- A pair as it is written in the value of a relation. -/
def pairText (pair : String × String) : String :=
  pair.1 ++ "=" ++ pair.2

/- Pairs as they are written in the value of a relation. -/
def written (pairs : List (String × String)) : String :=
  ",".intercalate (pairs.map pairText)

/-
  Pairs that can be written: there is one at least, a name
  holds no separator and a value none between pairs, and
  nothing in them delimits a quoted run.
-/
structure Writable (pairs : List (String × String)) : Prop where
  nonempty : pairs ≠ []
  names :
    ∀ pair ∈ pairs,
      ',' ∉ pair.1.toList ∧ '=' ∉ pair.1.toList
  values : ∀ pair ∈ pairs, ',' ∉ pair.2.toList
  unquoted :
    ∀ pair ∈ pairs, ∀ ch ∈ pair.1.toList ++ pair.2.toList,
      isDelimiter ch = false

/- The characters of a written pair. -/
theorem toList_pairText (pair : String × String) :
    (pairText pair).toList =
      pair.1.toList ++ '=' :: pair.2.toList := by
  simp [pairText]

/- The characters of written pairs. -/
theorem toList_written (pairs : List (String × String)) :
    (written pairs).toList =
      [','].intercalate
        (pairs.map fun pair => (pairText pair).toList) := by
  simp [written, String.toList_intercalate, Function.comp_def]

/- What holds of separators and of all pairs holds of their text. -/
theorem forall_mem_written
    {P : Char → Prop}
    {pairs : List (String × String)}
    (hComma : P ',')
    (hSign : P '=')
    (h :
      ∀ pair ∈ pairs, ∀ ch ∈ pair.1.toList ++ pair.2.toList, P ch) :
    ∀ ch ∈ (written pairs).toList, P ch := by
  intro ch hCh
  rw [toList_written] at hCh
  rcases FormEncoding.mem_intercalate hCh with
    rfl | ⟨piece, hPiece, hCh⟩
  · exact hComma
  · rcases List.mem_map.mp hPiece with ⟨pair, hPair, rfl⟩
    rw [toList_pairText, List.mem_append, List.mem_cons] at hCh
    rcases hCh with hName | rfl | hValue
    · exact h pair hPair ch (List.mem_append_left _ hName)
    · exact hSign
    · exact h pair hPair ch (List.mem_append_right _ hValue)

/- What opens no run stays as it is. -/
theorem unquote_append
    {opening : List Char}
    (h : ∀ ch ∈ opening, isDelimiter ch = false)
    (rest : List Char) :
    unquote (opening ++ rest) = opening ++ unquote rest := by
  induction opening with
  | nil => rfl
  | cons ch opening ih =>
      have hHead := h ch List.mem_cons_self
      have hRest := ih fun other hOther =>
        h other (List.mem_cons_of_mem ch hOther)
      simp [unquote, hHead, hRest]

/- A text without delimiters has no run to unquote. -/
theorem unquote_eq_self
    {cs : List Char}
    (h : ∀ ch ∈ cs, isDelimiter ch = false) :
    unquote cs = cs := by
  simpa [unquote] using unquote_append h []

/- A written pair is read back, if its name holds no `=`. -/
theorem pairOf_pairText
    {pair : String × String}
    (h : '=' ∉ pair.1.toList) :
    pairOf (pairText pair) = pair := by
  have hCut :
      Text.cut '=' (pairText pair).toList =
        some (pair.1.toList, pair.2.toList) :=
    Text.cut_eq_some_iff.mpr ⟨toList_pairText pair, h⟩
  simp [pairOf, hCut]

/- What is checked of all characters of pairs holds of each. -/
theorem forall_chars_of_all
    {pairs : List (String × String)}
    {p : Char → Bool}
    (h :
      (pairs.all fun pair =>
        (pair.1.toList ++ pair.2.toList).all fun ch => !p ch) =
          true) :
    ∀ pair ∈ pairs, ∀ ch ∈ pair.1.toList ++ pair.2.toList,
      p ch = false := by
  intro pair hPair ch hCh
  have hChars := List.all_eq_true.mp h pair hPair
  simpa using List.all_eq_true.mp hChars ch hCh

/-
  Pairs that can be told apart when they are written: there is
  one at least, a name holds no separator and a value none
  between pairs.
-/
structure Separable (pairs : List (String × String)) : Prop where
  nonempty : pairs ≠ []
  names :
    ∀ pair ∈ pairs,
      ',' ∉ pair.1.toList ∧ '=' ∉ pair.1.toList
  values : ∀ pair ∈ pairs, ',' ∉ pair.2.toList

namespace Separable

variable {pairs : List (String × String)}

/- Written pairs are split into the pairs as they were written. -/
theorem split_written
    (h : Separable pairs) :
    Text.split ',' (written pairs) = pairs.map pairText := by
  have hApart :
      ∀ piece ∈ pairs.map pairText, ',' ∉ piece.toList := by
    intro piece hPiece hComma
    rcases List.mem_map.mp hPiece with ⟨pair, hPair, rfl⟩
    rw [toList_pairText, List.mem_append, List.mem_cons] at hComma
    rcases hComma with hName | hSign | hValue
    · exact (h.names pair hPair).1 hName
    · cases hSign
    · exact h.values pair hPair hValue
  exact Text.split_intercalate hApart (by simpa using h.nonempty)

/- Each written pair is read back. -/
theorem read_written
    (h : Separable pairs) :
    (Text.split ',' (written pairs)).map pairOf = pairs := by
  rw [h.split_written, List.map_map]
  conv => rhs; rw [← List.map_id pairs]
  refine List.map_congr_left fun pair hPair => ?_
  exact pairOf_pairText (h.names pair hPair).2

end Separable

namespace Writable

variable {pairs : List (String × String)}

/- Pairs that can be written can be told apart. -/
theorem separable
    (h : Writable pairs) :
    Separable pairs :=
  ⟨h.nonempty, h.names, h.values⟩

/- Nothing in written pairs delimits a quoted run. -/
theorem unquote_written
    (h : Writable pairs) :
    unquote (written pairs).toList = (written pairs).toList :=
  unquote_eq_self (forall_mem_written rfl rfl h.unquoted)

/- Written pairs are read back as the filters they name. -/
theorem subrequests_written
    (h : Writable pairs) :
    subrequests (written pairs) = Fields.ofList pairs := by
  unfold subrequests
  dsimp only
  rw [h.unquote_written, String.ofList_toList,
    h.separable.read_written]

end Writable

end Filter

------------------------------------------------------------
-- Conditions under another name
------------------------------------------------------------

namespace Sql

/- A column under another name of its table. -/
def Column.renamed
    (old new : String)
    (col : Column) : Column :=
  if col.qualifier = old then
    { col with qualifier := new }
  else
    col

mutual

/- A condition under another name of a table. -/
def Condition.renamed (old new : String) : Condition → Condition
| .compare column op value =>
    .compare (column.renamed old new) op value
| .anyOf parts => .anyOf (Condition.choiceRenamed old new parts)
termination_by structural c => c

/- The parts of a choice under another name of a table. -/
def Condition.choiceRenamed
    (old new : String) : List Condition → List Condition
| [] => []
| c :: rest =>
    Condition.renamed old new c ::
      Condition.choiceRenamed old new rest
termination_by structural cs => cs

end

/- The parts of a choice are renamed one by one. -/
theorem Condition.choiceRenamed_eq_map
    (old new : String)
    (parts : List Condition) :
    choiceRenamed old new parts = parts.map (renamed old new) := by
  induction parts with
  | nil => rfl
  | cons c parts ih => simp [choiceRenamed, ih]

/- Demand conditions, one after the other. -/
def Query.addConditions
    (q : Query)
    (found : List Condition) : Query :=
  { q with conditions := q.conditions ++ found }

/- One more condition is demanded last. -/
theorem Query.addCondition_addConditions
    (q : Query)
    (found : List Condition)
    (c : Condition) :
    (q.addConditions found).addCondition c =
      q.addConditions (found ++ [c]) := by
  simp [addConditions, addCondition]

end Sql

namespace Kind

/- A choice is renamed by renaming its parts. -/
theorem renamed_choice
    (old new : String)
    (parts : List Sql.Condition) :
    (choice parts).renamed old new =
      choice (parts.map (Sql.Condition.renamed old new)) := by
  rcases parts with _ | ⟨c, _ | ⟨d, rest⟩⟩
  · rfl
  · rfl
  · simp [choice, Sql.Condition.renamed,
      Sql.Condition.choiceRenamed_eq_map]

/-
  A filter text is refused under every name of the table, or
  puts on the column the same condition under each.
-/
theorem condition_cases
    (k : Kind)
    (old new name s : String) :
    (∃ e e',
      k.condition { qualifier := old, name } s = .error e ∧
        k.condition { qualifier := new, name } s = .error e') ∨
    ∃ found,
      k.condition { qualifier := old, name } s = .ok found ∧
        k.condition { qualifier := new, name } s =
          .ok (found.renamed old new) := by
  unfold condition
  by_cases hAccepts : k.accepts (k.resolve s).2 = true
  · right
    simp only [hAccepts, if_true, Except.ok.injEq, exists_eq_left',
      renamed_choice, List.map_map]
    congr 1
    refine List.map_congr_left fun part _ => ?_
    simp [Sql.Condition.renamed, Sql.Column.renamed]
  · left
    simp [hAccepts]

end Kind

------------------------------------------------------------
-- Two runs in step
------------------------------------------------------------

namespace Building

variable {R S : Sql.Query → Sql.Query → Prop}
variable {α : Type}

/-
  Two steps go on with queries that are related, or an error
  stops both of them.
-/
inductive Tandem
    (R : Sql.Query → Sql.Query → Prop) :
    Building → Building → Prop
| ok {q q' : Sql.Query} (h : R q q') : Tandem R (ok q) (ok q')
| stop
    (q q' : Sql.Query)
    (e e' : RequestError) : Tandem R (stop q e) (stop q' e')

/- Two steps after two steps in tandem. -/
theorem Tandem.andThen
    {b b' : Building}
    {step step' : Sql.Query → Building}
    (h : Tandem R b b')
    (hStep : ∀ q q', R q q' → Tandem S (step q) (step' q')) :
    Tandem S (b.andThen step) (b'.andThen step') := by
  cases h with
  | ok h => exact hStep _ _ h
  | stop q q' e e' => exact .stop q q' e e'

/- Two runs over the same items, whose steps go in tandem. -/
theorem tandem_each
    {step step' : α → Sql.Query → Building}
    {items : List α}
    (hStep :
      ∀ a ∈ items, ∀ q q', R q q' →
        Tandem R (step a q) (step' a q'))
    {q q' : Sql.Query}
    (h : R q q') :
    Tandem R (each step items q) (each step' items q') := by
  induction items generalizing q q' with
  | nil => exact .ok h
  | cons a items ih =>
      have hHead := hStep a List.mem_cons_self q q' h
      have hRest :
          ∀ b ∈ items, ∀ q q', R q q' →
            Tandem R (step b q) (step' b q') :=
        fun b hb => hStep b (List.mem_cons_of_mem a hb)
      exact hHead.andThen fun _ _ hNext => ih hRest hNext

/- A run whose steps do nothing. -/
theorem each_of_idle
    {step : α → Sql.Query → Building}
    {items : List α}
    (hIdle : ∀ a ∈ items, ∀ q, step a q = ok q)
    (q : Sql.Query) :
    each step items q = ok q := by
  induction items with
  | nil => rfl
  | cons a items ih =>
      rw [each, hIdle a List.mem_cons_self q, ok_andThen]
      exact ih fun b hb => hIdle b (List.mem_cons_of_mem a hb)

/- A run of which one item alone does anything. -/
theorem each_of_only
    {step : α → Sql.Query → Building}
    {items : List α}
    {a : α}
    (hNodup : items.Nodup)
    (ha : a ∈ items)
    (hIdle : ∀ b ∈ items, b ≠ a → ∀ q, step b q = ok q)
    (q : Sql.Query) :
    each step items q = step a q := by
  induction items with
  | nil => cases ha
  | cons b items ih =>
      rw [List.nodup_cons] at hNodup
      have hLater :
          ∀ d ∈ items, d ≠ a → ∀ q, step d q = ok q :=
        fun d hd => hIdle d (List.mem_cons_of_mem b hd)
      rw [each]
      rcases List.mem_cons.mp ha with rfl | ha
      · -- the items after it are others
        obtain ⟨next, error?⟩ := step a q
        cases error? with
        | some e => rfl
        | none =>
            refine each_of_idle (fun d hd => hLater d hd ?_) next
            rintro rfl
            exact hNodup.1 hd
      · have hOther : b ≠ a := by
          rintro rfl
          exact hNodup.1 ha
        rw [hIdle b List.mem_cons_self hOther q, ok_andThen]
        exact ih hNodup.2 ha hLater

end Building

------------------------------------------------------------
-- Filters under a label
------------------------------------------------------------

namespace Filter

variable {c : Catalog}
variable {r related : Resource}
variable {table label : String}
variable {relation : Relation}
variable {requests : Fields String}
variable {start start' q q' : Sql.Query}

/-
  A query on a resource and one that knows the resource by a
  label have gained the same conditions since they started,
  with the label in the place of the table.
-/
def Mirrored
    (table label : String)
    (start start' q q' : Sql.Query) : Prop :=
  ∃ found : List Sql.Condition,
    q = start.addConditions found ∧
      q' =
        start'.addConditions
          (found.map (Sql.Condition.renamed table label))

/- Queries that have gained nothing. -/
theorem mirrored_start
    (table label : String)
    (start start' : Sql.Query) :
    Mirrored table label start start' start start' :=
  ⟨[], by simp [Sql.Query.addConditions],
    by simp [Sql.Query.addConditions]⟩

/- One more condition under both names of the table. -/
theorem Mirrored.addCondition
    (h : Mirrored table label start start' q q')
    (condition : Sql.Condition) :
    Mirrored table label start start' (q.addCondition condition)
      (q'.addCondition (condition.renamed table label)) := by
  rcases h with ⟨found, rfl, rfl⟩
  refine ⟨found ++ [condition], ?_, ?_⟩
  · exact Sql.Query.addCondition_addConditions start found condition
  · rw [Sql.Query.addCondition_addConditions]
    simp

/-
  A filter by a field of a resource and the same filter under
  a label, if no relation to one record is asked for.
-/
theorem tandem_applyField
    {name : String}
    (hColumn :
      ∀ value, Fields.get? requests name = some value →
        name ∉ related.belongsTo.keys)
    (h : Mirrored related.table.name label start start' q q') :
    Building.Tandem
      (Mirrored related.table.name label start start')
      (applyField c related requests name q)
      (applyLabelledField related label requests name q') := by
  unfold applyField applyLabelledField
  cases hValue : Fields.get? requests name with
  | none => exact .ok h
  | some value =>
      cases hField : Fields.get? related.owns name with
      | none =>
          have hNone : Fields.get? related.belongsTo name = none :=
            Fields.get?_eq_none_iff.mpr (hColumn value hValue)
          simp only [applyRelation, hNone]
          exact .stop q q' _ _
      | some field =>
          unfold applyColumn Resource.column
          rcases field.type.kind.condition_cases
              related.table.name label name value with
            ⟨e, e', hPlain, hNested⟩ | ⟨found, hPlain, hNested⟩
          · simp only [hPlain, hNested]
            exact .stop q q' e e'
          · simp only [hPlain, hNested]
            exact .ok (h.addCondition found)

/- The filters of a resource and the same filters under a label. -/
theorem tandem_apply
    (c : Catalog)
    (label : String)
    (hColumns :
      ∀ name ∈ related.filterable,
        name ∈ requests.keys → name ∉ related.belongsTo.keys)
    (start start' : Sql.Query) :
    Building.Tandem
      (Mirrored related.table.name label start start')
      (apply c related requests start)
      (applyLabelled related label requests start') := by
  refine Building.tandem_each ?_ (mirrored_start _ _ start start')
  intro name hName q q' h
  refine tandem_applyField (fun value hValue => ?_) h
  exact hColumns name hName
    (Fields.mem_keys_of_get?_eq_some hValue)

/- A request that names one relation alone is that filter alone. -/
theorem apply_of_only
    {value : String}
    (hSound : r.Sound)
    (hNodup : r.filterable.Nodup)
    (hLabel : label ∈ r.filterable)
    (hRelation : Fields.get? r.belongsTo label = some relation)
    (hValue : Fields.get? requests label = some value)
    (hOnly :
      ∀ name ∈ r.filterable, name ≠ label →
        Fields.get? requests name = none)
    (q : Sql.Query) :
    apply c r requests q = applyRelation c r label value q := by
  have hOwns : Fields.get? r.owns label = none :=
    hSound.get?_owns_of_label
      (Resource.mem_relations_of_belongsTo
        (Fields.mem_keys_of_get?_eq_some hRelation))
  unfold apply
  rw [Building.each_of_only hNodup hLabel ?_ q]
  · simp only [applyField, hValue, hOwns]
  · intro name hName hNe q
    simp only [applyField, hOnly name hName hNe]

------------------------------------------------------------
-- Nested filters
------------------------------------------------------------

/-
  A filter under a label does on one query what a filter does
  on another: it succeeds exactly when that one does, demands
  the same conditions in the same order with the label in the
  place of the table, and otherwise takes a join only.
-/
structure Repeats
    (table : String)
    (join : Sql.Join)
    (start start' : Sql.Query)
    (plain nested : Except RequestError Sql.Query) : Prop where
  succeeds :
    (∃ q', nested = .ok q') ↔ ∃ q, plain = .ok q
  demands :
    ∀ q, plain = .ok q →
      ∃ found : List Sql.Condition,
        q = start.addConditions found ∧
          nested =
            .ok
              ((start'.addConditions
                (found.map
                  (Sql.Condition.renamed table join.label))).leftJoin
                join)

/- Steps in tandem, of which the second takes a join at the end. -/
theorem repeats_of_tandem
    {join : Sql.Join}
    {step : Sql.Query → Building}
    {b b' : Building}
    (h :
      Building.Tandem (Mirrored table join.label start start')
        b b')
    (hStep : ∀ q, step q = .ok (q.leftJoin join)) :
    Repeats table join start start' b.result
      (b'.andThen step).result := by
  cases h with
  | stop q q' e e' =>
      rw [Building.stop_andThen]
      refine ⟨by simp [Building.result, Building.stop], ?_⟩
      intro done hDone
      cases hDone
  | ok h =>
      rcases h with ⟨found, rfl, rfl⟩
      rw [Building.ok_andThen, hStep]
      refine ⟨by simp [Building.result, Building.ok], ?_⟩
      intro done hDone
      cases hDone
      exact ⟨found, rfl, rfl⟩

end Filter

/-
  Over a resolved catalog, filters written under the label of
  a relation repeat the same filters of the related resource,
  if they ask for no filterable relation of that to one record.
  Relations to many records are refused in either place.
-/
theorem Catalog.Resolved.nested_as_plain
    {c : Catalog}
    {r : Resource}
    {label : String}
    {relation : Relation}
    (hResolved : c.Resolved)
    (hr : r ∈ c.resources)
    (hRelation : Fields.get? r.belongsTo label = some relation)
    (hLabel : label ∈ r.filterable) :
    ∃ related key,
      c.find? relation.resource = some related ∧
        related.primaryKey = some key ∧
        ∀ (pairs : List (String × String))
          (requests : Fields String),
          Filter.Writable pairs →
          (∀ pair ∈ pairs, pair.1 ∈ related.filterable →
            pair.1 ∉ related.belongsTo.keys) →
          Fields.get? requests label =
            some (Filter.written pairs) →
          (∀ name ∈ r.filterable, name ≠ label →
            Fields.get? requests name = none) →
          ∀ q q' : Sql.Query,
            Filter.Repeats related.table.name
              (r.joinOf label relation related key) q q'
              (Filter.apply c related (Fields.ofList pairs)
                q).result
              (Filter.apply c r requests q').result := by
  have hSound := hResolved.sound
  rcases hSound.exists_related hr hRelation with
    ⟨related, hRelated, hFind⟩
  rcases hSound.exists_primaryKey hr hRelation hFind with
    ⟨key, hKey⟩
  refine ⟨related, key, hFind, hKey, ?_⟩
  intro pairs requests hWritable hColumns hValue hOnly q q'
  have hNested :
      Filter.apply c r requests q' =
        (Filter.applyLabelled related label (Fields.ofList pairs)
          q').andThen (Listing.join r label related) := by
    rw [Filter.apply_of_only (hSound.resources r hr)
      (hResolved.nodup_filterable hr) hLabel hRelation hValue
      hOnly]
    simp only [Filter.applyRelation, hRelation, hRelated,
      hWritable.subrequests_written]
  have hColumns' :
      ∀ name ∈ related.filterable,
        name ∈ (Fields.ofList pairs).keys →
          name ∉ related.belongsTo.keys := by
    intro name hName hKeys
    rcases Fields.mem_keys_of_ofList hKeys with ⟨pair, hPair, rfl⟩
    exact hColumns pair hPair hName
  rw [hNested]
  exact Filter.repeats_of_tandem
    (Filter.tandem_apply c label hColumns' q q')
    (Listing.join_eq hRelation hKey)

------------------------------------------------------------
-- Ideas by their creators
------------------------------------------------------------

namespace Filter

/- Members by their names and keys; the second name counts. -/
def pairsOfMembers : List (String × String) :=
  [("name", "x"), ("id", ">2"), ("name", "~y=z")]

/- Ideas of such members. -/
def ideasOfMembers : Fields String :=
  [("creator", written pairsOfMembers)]

/- These filters of members can be written. -/
theorem writable_pairsOfMembers : Writable pairsOfMembers where
  nonempty := by decide
  names := by decide
  values := by decide
  unquoted := forall_chars_of_all (by decide)

end Filter

/- Ideas are found by filters of the members who wrote them. -/
theorem Catalog.Resolved.nested_as_plain_sample :
    ∃ relation related key,
      Fields.get? Resource.sample.belongsTo "creator" =
          some relation ∧
        sample.find? relation.resource = some related ∧
        related.primaryKey = some key ∧
        ∀ q q' : Sql.Query,
          (∃ plain,
              (Filter.apply sample related
                (Fields.ofList Filter.pairsOfMembers) q).result =
                  .ok plain) ∧
            Filter.Repeats related.table.name
              (Resource.sample.joinOf "creator" relation related
                key) q q'
              (Filter.apply sample related
                (Fields.ofList Filter.pairsOfMembers) q).result
              (Filter.apply sample .sample Filter.ideasOfMembers
                q').result := by
  rcases Option.isSome_iff_exists.mp
      (show (Fields.get? Resource.sample.belongsTo
        "creator").isSome = true from rfl) with
    ⟨relation, hRelation⟩
  rcases nested_as_plain sample_resolved mem_sample hRelation
      (show "creator" ∈ Resource.sample.filterable by decide) with
    ⟨related, key, hFind, hKey, hAll⟩
  refine ⟨relation, related, key, hRelation, hFind, hKey, ?_⟩
  -- the relation leads to the resource of members
  cases hRelation
  cases hFind
  refine fun q q' => ⟨⟨_, rfl⟩, ?_⟩
  refine hAll Filter.pairsOfMembers Filter.ideasOfMembers
    Filter.writable_pairsOfMembers ?_ rfl ?_ q q'
  · -- which has no relation to one record
    intro pair _ _ hLabel
    cases hLabel
  · intro name _ hOther
    simp [Filter.ideasOfMembers, Fields.get?, Ne.symm hOther]

end RelationalRest
