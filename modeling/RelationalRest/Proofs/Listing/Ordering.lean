import RelationalRest.Proofs.Listing.Kept
import RelationalRest.Proofs.Text.Split

/-
  What the texts to sort by mean.  A piece of the text is
  recognized if it names a column of the root, or a label and
  a column of the related resource with one point between
  them; a dash before it makes it ascend.

  A recognized piece adds one ordering to a query, and a join
  if it is the first to need one.  Strict sorting stops at the
  first piece that is not recognized; quiet sorting does what
  strict sorting does with the pieces that are.

  Key definitions include:
    * `Sorting.Names`
    * `Sorting.Orders`
    * `Sorting.Recognizes`
    * `Sorting.Joins`

  Main declarations:
    * `Sorting.column?_eq_some_iff`
    * `Sorting.exists_applyTerm`
    * `Sorting.exists_each`
    * `Sorting.each_eq_each_filter`
    * `Catalog.Resolved.sorts_recognized`
-/

namespace RelationalRest

variable {c : Catalog}
variable {root related : Resource}
variable {field piece label name : String}
variable {relation : Relation}
variable {col : Sql.Column}
variable {q : Sql.Query}

------------------------------------------------------------
-- Recognized pieces
------------------------------------------------------------

namespace Sorting

/-
  A field names a column: one of the root by its name, or one
  of a related resource by the label, a point and its name,
  which hold no further point.  Columns of the root go first.
-/
def Names
    (c : Catalog)
    (root : Resource)
    (field : String)
    (col : Sql.Column) : Prop :=
  (field ∈ root.owns.keys ∧ col = root.column field) ∨
    field ∉ root.owns.keys ∧
      field = col.qualifier ++ "." ++ col.name ∧
      '.' ∉ col.qualifier.toList ∧ '.' ∉ col.name.toList ∧
      ∃ relation related,
        Fields.get? root.belongsTo col.qualifier = some relation ∧
          c.find? relation.resource = some related ∧
          col.name ∈ related.owns.keys

/-
  A piece stands for an ordering: by the column that it names,
  descending, or ascending after a dash.
-/
def Orders
    (c : Catalog)
    (root : Resource)
    (piece : String)
    (order : Sql.Column × Sql.Direction) : Prop :=
  (∃ field, piece = "-" ++ field ∧ Names c root field order.1 ∧
      order.2 = .ascending) ∨
    (∀ field, piece ≠ "-" ++ field) ∧ Names c root piece order.1 ∧
      order.2 = .descending

/- A piece is recognized: it stands for an ordering. -/
def Recognizes
    (c : Catalog)
    (root : Resource)
    (piece : String) : Prop :=
  ∃ order, Orders c root piece order

/- The column that a field names, if it names one. -/
def column?
    (c : Catalog)
    (root : Resource)
    (field : String) : Option Sql.Column :=
  match target c root field with
  | .ok .own => some (root.column field)
  | .ok (.related label name _) => some ⟨label, name⟩
  | _ => none

/- A field has two parts if it holds one point. -/
theorem split_eq_pair_iff :
    Text.split '.' field = [label, name] ↔
      field = label ++ "." ++ name ∧
        '.' ∉ label.toList ∧ '.' ∉ name.toList := by
  constructor
  · intro h
    refine ⟨Text.eq_append_of_split h, ?_, ?_⟩
    · exact Text.not_mem_of_mem_split (h ▸ List.mem_cons_self)
    · exact Text.not_mem_of_mem_split
        (h ▸ List.mem_cons_of_mem _ List.mem_cons_self)
  · rintro ⟨rfl, hLabel, hName⟩
    exact (Text.split_append hLabel name).trans
      (by rw [Text.split_eq_singleton hName])

/- A field is looked up as a column of the root if it is one. -/
theorem target_eq_own_iff :
    target c root field = .ok .own ↔ field ∈ root.owns.keys := by
  rw [← Fields.contains_iff_mem_keys]
  unfold target
  by_cases hOwn : root.ownsColumn field = true
  · rw [if_pos hOwn]
    exact iff_of_true rfl hOwn
  · have hForeign : relatedTarget c root field ≠ .ok .own := by
      unfold relatedTarget
      repeat' split
      all_goals nofun
    rw [if_neg hOwn]
    exact iff_of_false hForeign hOwn

/- A field is looked up as a column of a related resource. -/
theorem target_eq_related_iff :
    target c root field = .ok (.related label name related) ↔
      field ∉ root.owns.keys ∧
        Text.split '.' field = [label, name] ∧
        ∃ relation,
          Fields.get? root.belongsTo label = some relation ∧
            c.find? relation.resource = some related ∧
            name ∈ related.owns.keys := by
  constructor
  · intro h
    have hFound := (declares_of_target h).2 label name related rfl
    have hForeign : field ∉ root.owns.keys := by
      rw [← target_eq_own_iff, h]
      nofun
    refine ⟨hForeign, ?_, hFound⟩
    unfold target at h
    split at h
    · cases h
    · unfold relatedTarget at h
      split at h
      · next hParts =>
          repeat' split at h
          all_goals cases h
          exact hParts
      · cases h
  · rintro ⟨hForeign, hParts, relation, hRelation, hFind, hName⟩
    have hOwn : root.ownsColumn field = false := by
      rw [Bool.eq_false_iff]
      exact fun h => hForeign (Fields.contains_iff_mem_keys.mp h)
    have hRelated : c.related relation = .ok related :=
      Catalog.related_of_find? hFind
    have hOwns : related.ownsColumn name = true :=
      Fields.contains_iff_mem_keys.mpr hName
    simp [target, relatedTarget, hOwn, hParts, hRelation, hRelated,
      hOwns]

/- Looking a field up finds the column that it names. -/
theorem column?_eq_some_iff :
    column? c root field = some col ↔ Names c root field col := by
  constructor
  · intro h
    unfold column? at h
    split at h
    · next hTarget =>
        cases h
        exact .inl ⟨target_eq_own_iff.mp hTarget, rfl⟩
    · next label name related hTarget =>
        cases h
        rcases target_eq_related_iff.mp hTarget with
          ⟨hForeign, hParts, relation, hRelation, hFind, hName⟩
        rcases split_eq_pair_iff.mp hParts with
          ⟨hField, hLabelPoint, hNamePoint⟩
        exact .inr ⟨hForeign, hField, hLabelPoint, hNamePoint,
          relation, related, hRelation, hFind, hName⟩
    · cases h
  · rintro (⟨hOwn, rfl⟩ | ⟨hForeign, hField, hLabelPoint,
      hNamePoint, relation, related, hRelation, hFind, hName⟩)
    · simp [column?, target_eq_own_iff.mpr hOwn]
    · have hParts :=
        split_eq_pair_iff.mpr ⟨hField, hLabelPoint, hNamePoint⟩
      have hTarget :=
        target_eq_related_iff.mpr
          ⟨hForeign, hParts, relation, hRelation, hFind, hName⟩
      simp [column?, hTarget]

/- A piece with a dash is the field after it, to ascend by. -/
theorem term_dash (field : String) :
    term ("-" ++ field) =
      { field, direction := .ascending } := by
  simp [term]

/- A piece without a dash is a field to descend by. -/
theorem term_plain
    (h : ∀ field, piece ≠ "-" ++ field) :
    term piece = { field := piece, direction := .descending } := by
  unfold term
  split
  · next rest hRest =>
      refine absurd ?_ (h (String.ofList rest))
      apply String.toList_inj.mp
      simp [hRest]
  · rfl

/- A piece stands for what its term looks up. -/
theorem orders_iff
    {order : Sql.Column × Sql.Direction} :
    Orders c root piece order ↔
      column? c root (term piece).field = some order.1 ∧
        order.2 = (term piece).direction := by
  rw [column?_eq_some_iff]
  unfold Orders
  by_cases hDash : ∃ field, piece = "-" ++ field
  · rcases hDash with ⟨field, rfl⟩
    rw [term_dash]
    constructor
    · rintro (⟨other, hSame, hNames, hDirection⟩ | ⟨hPlain, _⟩)
      · rw [String.append_right_inj] at hSame
        rw [hSame]
        exact ⟨hNames, hDirection⟩
      · exact absurd rfl (hPlain field)
    · exact fun h => .inl ⟨field, rfl, h⟩
  · have hPlain : ∀ field, piece ≠ "-" ++ field :=
      fun field h => hDash ⟨field, h⟩
    rw [term_plain hPlain]
    constructor
    · rintro (⟨field, hSame, _⟩ | ⟨_, h⟩)
      · exact absurd hSame (hPlain field)
      · exact h
    · exact fun h => .inr ⟨hPlain, h⟩

/- A piece is recognized if the field of its term is. -/
theorem recognizes_iff :
    Recognizes c root piece ↔
      (column? c root (term piece).field).isSome = true := by
  rw [Option.isSome_iff_exists]
  constructor
  · rintro ⟨order, hOrders⟩
    exact ⟨order.1, (orders_iff.mp hOrders).1⟩
  · rintro ⟨col, hCol⟩
    exact ⟨(col, (term piece).direction), orders_iff.mpr ⟨hCol, rfl⟩⟩

instance (c : Catalog) (root : Resource) :
    DecidablePred (Recognizes c root) :=
  fun _ => decidable_of_iff _ recognizes_iff.symm

end Sorting

------------------------------------------------------------
-- Sorted queries
------------------------------------------------------------

/- A query with further orderings and further joins. -/
def Sql.Query.sorted
    (q : Query)
    (orders : List (Column × Direction))
    (joins : List Join) : Query :=
  { q with
    ordering := q.ordering ++ orders
    joins := q.joins ++ joins }

/- Sorting by nothing changes nothing. -/
@[simp]
theorem Sql.Query.sorted_nil (q : Query) :
    q.sorted [] [] = q := by
  simp [sorted]

/- Sorting twice is sorting by both in order. -/
theorem Sql.Query.sorted_sorted
    (q : Query)
    (orders orders' : List (Column × Direction))
    (joins joins' : List Join) :
    (q.sorted orders joins).sorted orders' joins' =
      q.sorted (orders ++ orders') (joins ++ joins') := by
  simp [sorted]

namespace Sorting

variable {orders orders' : List (Sql.Column × Sql.Direction)}
variable {joins joins' : List Sql.Join}

/- Orderings need a label: one of them is qualified by it. -/
def Needs
    (root : Resource)
    (orders : List (Sql.Column × Sql.Direction))
    (label : String) : Prop :=
  label ≠ root.table.name ∧
    ∃ order ∈ orders, order.1.qualifier = label

/- The labels that orderings of two lists need. -/
theorem needs_append :
    Needs root (orders ++ orders') label ↔
      Needs root orders label ∨ Needs root orders' label := by
  simp [Needs, or_and_right, exists_or, and_or_left]

/- The label that one ordering needs. -/
theorem needs_singleton
    {order : Sql.Column × Sql.Direction} :
    Needs root [order] label ↔
      label ≠ root.table.name ∧ order.1.qualifier = label := by
  simp [Needs]

/-
  Joins that orderings of a query call for: each follows a
  relation of the root, and they join once each label that is
  needed and was not joined before.
-/
structure Joins
    (c : Catalog)
    (root : Resource)
    (q : Sql.Query)
    (orders : List (Sql.Column × Sql.Direction))
    (joins : List Sql.Join) : Prop where
  follows : ∀ j ∈ joins, Follows c root j
  distinct : (joins.map Sql.Join.label).Nodup
  labels :
    ∀ label, label ∈ joins.map Sql.Join.label ↔
      label ∉ q.labels ∧ Needs root orders label

namespace Joins

/- No ordering calls for no join. -/
theorem nil
    (c : Catalog)
    (root : Resource)
    (q : Sql.Query) :
    Joins c root q [] [] where
  follows := nofun
  distinct := List.nodup_nil
  labels := by simp [Needs]

/- The joins of orderings and then of further orderings. -/
theorem append
    (h : Joins c root q orders joins)
    (h' : Joins c root (q.sorted orders joins) orders' joins') :
    Joins c root q (orders ++ orders') (joins ++ joins') := by
  have hLabels :
      ∀ label, label ∈ (q.sorted orders joins).labels ↔
        label ∈ q.labels ∨ label ∈ joins.map Sql.Join.label := by
    simp [Sql.Query.sorted, Sql.Query.labels]
  refine ⟨?_, ?_, ?_⟩
  · intro j hj
    rcases List.mem_append.mp hj with hj | hj
    · exact h.follows j hj
    · exact h'.follows j hj
  · rw [List.map_append, List.nodup_append]
    refine ⟨h.distinct, h'.distinct, ?_⟩
    rintro label hOld _ hNew rfl
    exact ((h'.labels label).mp hNew).1
      ((hLabels label).mpr (.inr hOld))
  · intro label
    rw [List.map_append, List.mem_append, h'.labels, hLabels,
      h.labels, needs_append]
    tauto

/- An ordering by the table itself calls for no join. -/
theorem own
    (c : Catalog)
    (root : Resource)
    (q : Sql.Query)
    (name : String)
    (d : Sql.Direction) :
    Joins c root q [(root.column name, d)] [] where
  follows := nofun
  distinct := List.nodup_nil
  labels := by
    intro label
    simp only [List.map_nil, List.not_mem_nil, needs_singleton,
      false_iff, not_and]
    exact fun _ hTable hLabel => hTable hLabel.symm

/- An ordering by a relation calls for its join, unless joined. -/
theorem single
    {j : Sql.Join}
    {d : Sql.Direction}
    (hFollows : Follows c root j)
    (hLabel : j.label = col.qualifier)
    (hTable : col.qualifier ≠ root.table.name) :
    Joins c root q [(col, d)]
      (if q.isJoined j.label then [] else [j]) := by
  by_cases hJoined : q.isJoined j.label = true
  · rw [if_pos hJoined]
    refine ⟨nofun, List.nodup_nil, ?_⟩
    intro label
    simp only [List.map_nil, List.not_mem_nil, needs_singleton,
      false_iff, not_and]
    rintro hNew _ rfl
    exact hNew (hLabel ▸ Scoped.isJoined_iff.mp hJoined)
  · rw [if_neg hJoined]
    refine ⟨by simpa using hFollows, List.nodup_singleton _, ?_⟩
    intro label
    rw [needs_singleton, ← hLabel, List.map_singleton,
      List.mem_singleton]
    constructor
    · rintro rfl
      exact ⟨fun hMem => hJoined (Scoped.isJoined_iff.mpr hMem),
        hLabel ▸ hTable, rfl⟩
    · exact fun h => h.2.2.symm

end Joins

/- Ordering a query and joining a table. -/
theorem leftJoin_orderBy
    (q : Sql.Query)
    (col : Sql.Column)
    (d : Sql.Direction)
    (j : Sql.Join) :
    (q.orderBy col d).leftJoin j =
      q.sorted [(col, d)]
        (if q.isJoined j.label then [] else [j]) := by
  have hSame :
      (q.orderBy col d).isJoined j.label = q.isJoined j.label :=
    rfl
  unfold Sql.Query.leftJoin
  rw [hSame]
  split
  · simp [Sql.Query.sorted, Sql.Query.orderBy]
  · simp [Sql.Query.sorted, Sql.Query.orderBy]

------------------------------------------------------------
-- Terms and lists of terms
------------------------------------------------------------

/-
  Over a sound catalog, a term that names a column adds its
  ordering and the join that this calls for, quiet or not.
-/
theorem exists_applyTerm
    {t : Term}
    (hSound : c.Sound)
    (hRoot : root ∈ c.resources)
    (hCol : column? c root t.field = some col)
    (q : Sql.Query) :
    ∃ joins, Joins c root q [(col, t.direction)] joins ∧
      ∀ quiet, applyTerm c root quiet t q =
        .ok (q.sorted [(col, t.direction)] joins) := by
  unfold applyTerm
  rcases column?_eq_some_iff.mp hCol with
    ⟨hOwn, rfl⟩ | ⟨hForeign, hField, hLabelPoint, hNamePoint,
      relation, related, hRelation, hFind, hName⟩
  · refine ⟨[], .own c root q t.field t.direction, fun quiet => ?_⟩
    simp [target_eq_own_iff.mpr hOwn, Sql.Query.sorted,
      Sql.Query.orderBy]
  · have hParts :=
      split_eq_pair_iff.mpr ⟨hField, hLabelPoint, hNamePoint⟩
    have hTarget :=
      target_eq_related_iff.mpr
        ⟨hForeign, hParts, relation, hRelation, hFind, hName⟩
    have hTable :=
      (hSound.resources root hRoot).ne_table
        (Resource.mem_relations_of_belongsTo
          (Fields.mem_keys_of_get?_eq_some hRelation))
    rcases hSound.exists_primaryKey hRoot hRelation hFind with
      ⟨key, hKey⟩
    have hFollows :
        Follows c root
          (root.joinOf col.qualifier relation related key) :=
      ⟨relation, related, key, hRelation, hFind, hKey, rfl⟩
    refine ⟨_, .single hFollows rfl hTable, fun quiet => ?_⟩
    simp only [hTarget, Listing.join_eq hRelation hKey]
    rw [leftJoin_orderBy]

/- Over a sound catalog, a term that names nothing is unknown. -/
theorem applyTerm_of_column?_eq_none
    {t : Term}
    (hSound : c.Sound)
    (hRoot : root ∈ c.resources)
    (hNone : column? c root t.field = none)
    (quiet : Bool)
    (q : Sql.Query) :
    applyTerm c root quiet t q =
      if quiet then .ok q
      else .stop q (.unknownSortField t.field) := by
  rcases exists_target t.field hSound hRoot with ⟨found, hFound, _⟩
  unfold column? at hNone
  unfold applyTerm
  rw [hFound] at hNone ⊢
  cases found with
  | own => cases hNone
  | related label name related => cases hNone
  | unknown => rfl

/- Recognized pieces add their orderings and the joins of these. -/
theorem exists_each
    {pieces : List String}
    (hSound : c.Sound)
    (hRoot : root ∈ c.resources)
    (h : ∀ piece ∈ pieces, Recognizes c root piece)
    (quiet : Bool)
    (q : Sql.Query) :
    ∃ orders joins,
      List.Forall₂ (Orders c root) pieces orders ∧
        Joins c root q orders joins ∧
        Building.each (applyTerm c root quiet) (pieces.map term) q =
          .ok (q.sorted orders joins) := by
  induction pieces generalizing q with
  | nil => exact ⟨[], [], .nil, .nil c root q, by simp [Building.each]⟩
  | cons piece pieces ih =>
      rcases h piece List.mem_cons_self with ⟨⟨col, d⟩, hOrders⟩
      rcases orders_iff.mp hOrders with ⟨hCol, rfl⟩
      rcases exists_applyTerm hSound hRoot hCol q with
        ⟨first, hFirst, hStep⟩
      rcases ih (fun p hp => h p (List.mem_cons_of_mem _ hp))
          (q.sorted [(col, (term piece).direction)] first) with
        ⟨orders, joins, hRest, hJoins, hEach⟩
      refine ⟨(col, (term piece).direction) :: orders,
        first ++ joins, .cons hOrders hRest, hFirst.append hJoins, ?_⟩
      rw [List.map_cons, Building.each, hStep, Building.ok_andThen,
        hEach, Sql.Query.sorted_sorted]
      rfl

/- Strict sorting that nothing stops recognizes every piece. -/
theorem recognizes_of_each
    {pieces : List String}
    (hSound : c.Sound)
    (hRoot : root ∈ c.resources)
    {q' : Sql.Query}
    (h : Building.each (applyTerm c root false)
      (pieces.map term) q = .ok q') :
    ∀ piece ∈ pieces, Recognizes c root piece := by
  induction pieces generalizing q with
  | nil => nofun
  | cons piece pieces ih =>
      rw [List.map_cons, Building.each] at h
      cases hCol : column? c root (term piece).field with
      | none =>
          rw [applyTerm_of_column?_eq_none hSound hRoot hCol] at h
          cases congrArg Building.error? h
      | some col =>
          rcases exists_applyTerm hSound hRoot hCol q with
            ⟨joins, _, hStep⟩
          rw [hStep, Building.ok_andThen] at h
          intro other hOther
          rcases List.mem_cons.mp hOther with rfl | hOther
          · exact recognizes_iff.mpr (by simp [hCol])
          · exact ih h other hOther

/- Quiet sorting passes over what is not recognized. -/
theorem each_eq_each_filter
    (hSound : c.Sound)
    (hRoot : root ∈ c.resources)
    (pieces : List String)
    (q : Sql.Query) :
    Building.each (applyTerm c root true) (pieces.map term) q =
      Building.each (applyTerm c root false)
        ((pieces.filter (Recognizes c root ·)).map term) q := by
  induction pieces generalizing q with
  | nil => rfl
  | cons piece pieces ih =>
      rw [List.map_cons, Building.each]
      cases hCol : column? c root (term piece).field with
      | none =>
          have hUnknown : ¬ Recognizes c root piece := by
            simp [recognizes_iff, hCol]
          rw [applyTerm_of_column?_eq_none hSound hRoot hCol]
          simpa [hUnknown] using ih q
      | some col =>
          have hKnown : Recognizes c root piece :=
            recognizes_iff.mpr (by simp [hCol])
          rcases exists_applyTerm hSound hRoot hCol q with
            ⟨joins, _, hStep⟩
          rw [hStep, Building.ok_andThen,
            List.filter_cons_of_pos (by simpa using hKnown),
            List.map_cons, Building.each, hStep,
            Building.ok_andThen]
          exact ih _

/- Sorting by a text takes the terms of its pieces. -/
theorem apply_of_text
    {params : Params}
    {text : String}
    (h : params.get? "sort_by" = some text)
    (quiet : Bool)
    (q : Sql.Query) :
    apply c root params quiet q =
      Building.each (applyTerm c root quiet)
        ((Text.split ',' text).map term) q := by
  unfold apply
  rw [h]
  rfl

/- Sorting by the text of pieces takes their terms. -/
theorem apply_set_pieces
    {pieces : List String}
    (params : Params)
    (hApart : ∀ piece ∈ pieces, ',' ∉ piece.toList)
    (hSome : pieces ≠ [])
    (quiet : Bool)
    (q : Sql.Query) :
    apply c root (params.set "sort_by" (",".intercalate pieces))
        quiet q =
      Building.each (applyTerm c root quiet) (pieces.map term) q := by
  have hGiven :
      (params.set "sort_by" (",".intercalate pieces)).get?
          "sort_by" =
        some (",".intercalate pieces) :=
    Fields.get?_insert_self params.pairs _ _
  have hPieces :
      Text.split ',' (",".intercalate pieces) = pieces :=
    Text.split_intercalate hApart hSome
  rw [apply_of_text hGiven, hPieces]

end Sorting

------------------------------------------------------------
-- Sorting by a text
------------------------------------------------------------

/-
  Over a resolved catalog, strict sorting succeeds exactly when
  every piece of the text is recognized; it adds an ordering
  for each piece and joins the labels that these need.  Quiet
  sorting always succeeds: without a recognized piece it does
  nothing, and otherwise it does what strict sorting does with
  the text of the recognized pieces.
-/
theorem Catalog.Resolved.sorts_recognized
    (hResolved : c.Resolved)
    (hRoot : root ∈ c.resources)
    {params : Params}
    {text : String}
    (hText : params.get? "sort_by" = some text)
    (q : Sql.Query) :
    ((∃ q', Sorting.apply c root params false q = .ok q') ↔
        ∀ piece ∈ Text.split ',' text,
          Sorting.Recognizes c root piece) ∧
      (∀ q', Sorting.apply c root params false q = .ok q' →
        ∃ orders joins,
          List.Forall₂ (Sorting.Orders c root)
              (Text.split ',' text) orders ∧
            Sorting.Joins c root q orders joins ∧
            q' = q.sorted orders joins) ∧
      (∃ q', Sorting.apply c root params true q = .ok q') ∧
      ∀ kept,
        kept =
            (Text.split ',' text).filter
              (Sorting.Recognizes c root ·) →
          (kept = [] →
            Sorting.apply c root params true q = .ok q) ∧
          (kept ≠ [] →
            Sorting.apply c root params true q =
              Sorting.apply c root
                (params.set "sort_by" (",".intercalate kept))
                false q) := by
  have hSound := hResolved.sound
  have hKept :
      ∀ piece ∈ (Text.split ',' text).filter
          (Sorting.Recognizes c root ·),
        Sorting.Recognizes c root piece :=
    fun piece hPiece => by simpa using (List.mem_filter.mp hPiece).2
  rw [Sorting.apply_of_text hText, Sorting.apply_of_text hText,
    Sorting.each_eq_each_filter hSound hRoot]
  refine ⟨⟨?_, ?_⟩, ?_, ?_, ?_⟩
  · rintro ⟨q', h⟩
    exact Sorting.recognizes_of_each hSound hRoot h
  · intro hKnown
    rcases Sorting.exists_each hSound hRoot hKnown false q with
      ⟨orders, joins, _, _, hEach⟩
    exact ⟨_, hEach⟩
  · intro q' h
    have hKnown := Sorting.recognizes_of_each hSound hRoot h
    rcases Sorting.exists_each hSound hRoot hKnown false q with
      ⟨orders, joins, hOrders, hJoins, hEach⟩
    rw [hEach] at h
    exact ⟨orders, joins, hOrders, hJoins,
      (congrArg Building.query h).symm⟩
  · rcases Sorting.exists_each hSound hRoot hKept false q with
      ⟨orders, joins, _, _, hEach⟩
    exact ⟨_, hEach⟩
  · rintro kept rfl
    refine ⟨?_, ?_⟩
    · intro hNone
      rw [hNone]
      rfl
    · intro hSome
      refine (Sorting.apply_set_pieces params ?_ hSome false q).symm
      exact fun piece hPiece =>
        Text.not_mem_of_mem_split (List.mem_filter.mp hPiece).1

/- Ideas are sorted quietly by their creators and titles. -/
theorem Catalog.Resolved.sorts_recognized_sample :
    sample.Resolved ∧ Resource.sample ∈ sample.resources ∧
      Params.get? ⟨[("sort_by", "-creator.name,votes,title")]⟩
          "sort_by" = some "-creator.name,votes,title" ∧
      Sorting.apply sample Resource.sample
          ⟨[("sort_by", "-creator.name,votes,title")]⟩ true
          { root := Resource.sample.table } =
        Sorting.apply sample Resource.sample
          ⟨[("sort_by", "-creator.name,title")]⟩ false
          { root := Resource.sample.table } := by
  refine ⟨sample_resolved, mem_sample, rfl, ?_⟩
  have hSorts :=
    sorts_recognized sample_resolved mem_sample
      (show Params.get?
          ⟨[("sort_by", "-creator.name,votes,title")]⟩ "sort_by" =
        some "-creator.name,votes,title" from rfl)
      { root := Resource.sample.table }
  have hKept :
      (Text.split ',' "-creator.name,votes,title").filter
          (Sorting.Recognizes sample Resource.sample ·) =
        ["-creator.name", "title"] := by
    decide
  have hQuiet := (hSorts.2.2.2 _ rfl).2
  rw [hKept] at hQuiet
  exact hQuiet (by simp)

/-
  Ideas and their creators, who have a column with a point in
  its name.
-/
def Declaration.pointed : List Declaration :=
  [ { name := "users"
      table := "member"
      primaryKey := some "id"
      fields :=
        [ ("id", { type := .named "int", props := ["default"] })
        , ("address.city", { type := .named "string" }) ] }
  , { name := "entries"
      table := "idea"
      primaryKey := some "id"
      fields :=
        [ ("id", { type := .named "int", props := ["default"] })
        , ("creator_id", { type := .named "int" })
        , ("creator",
            { type := .reference "users"
              relation := some "belongs_to"
              mapping := some "creator_id" }) ] } ]

/-
  A label, a point and a column of the related resource are not
  recognized where the column holds a point itself.
-/
theorem Catalog.exists_not_recognized :
    ∃ c r relation related,
      Declaration.resolve Declaration.pointed = .ok c ∧
        c.find? "entries" = some r ∧
        Fields.get? r.belongsTo "creator" = some relation ∧
        c.find? relation.resource = some related ∧
        "address.city" ∈ related.owns.keys ∧
        Text.split ',' "creator.address.city" =
          ["creator" ++ "." ++ "address.city"] ∧
        Sorting.apply c r
            ⟨[("sort_by", "creator.address.city")]⟩ false
            { root := r.table } =
          .stop { root := r.table }
            (.unknownSortField "creator.address.city") := by
  refine ⟨_, _, _, _, rfl, rfl, rfl, rfl, ?_, ?_, ?_⟩
  · decide
  · decide
  · rfl

end RelationalRest
