import RelationalRest.Sql.Query

/-
  What the text of a statement shows of its values: whether
  each of them is present, and nothing else.  Queries that
  differ in present values only have the same text.

  Key definitions include:
    * `Sql.Value.masked`
    * `Sql.Condition.masked`
    * `Sql.Query.Alike`

  Main declarations:
    * `Sql.textFrom_masked`
    * `Sql.Query.Alike.select`
    * `Sql.Query.Alike.count`
-/

namespace RelationalRest

namespace Sql

------------------------------------------------------------
-- Masks
------------------------------------------------------------

/- A value of which only its presence is left. -/
def Value.masked (v : Value) : Value :=
  if v.isNull then .null else .bool true

/- A piece whose operand is masked. -/
def Piece.masked : Piece → Piece
| .operand v => .operand v.masked
| p => p

mutual

/- A condition whose values are masked. -/
def Condition.masked : Condition → Condition
| .compare column op value => .compare column op value.masked
| .anyOf parts => .anyOf (Condition.choiceMasked parts)
termination_by structural c => c

/- The parts of a choice, whose values are masked. -/
def Condition.choiceMasked : List Condition → List Condition
| [] => []
| c :: rest => Condition.masked c :: Condition.choiceMasked rest
termination_by structural cs => cs

end

/- A mask shows whether a value is present. -/
@[simp]
theorem Value.isNull_masked (v : Value) :
    v.masked.isNull = v.isNull := by
  cases v <;> rfl

/- All present values have one mask. -/
theorem Value.masked_of_present
    {v : Value}
    (h : v.isNull = false) :
    v.masked = .bool true := by
  simp [masked, h]

/- The parts of a choice are masked one by one. -/
theorem Condition.choiceMasked_eq_map (parts : List Condition) :
    choiceMasked parts = parts.map masked := by
  induction parts with
  | nil => rfl
  | cons c parts ih => simp [choiceMasked, ih]

------------------------------------------------------------
-- Masked pieces
------------------------------------------------------------

/- A mask binds an operand exactly where there was one. -/
theorem Piece.isSome_param?_masked (p : Piece) :
    p.masked.param?.isSome = p.param?.isSome := by
  cases p with
  | operand v =>
      by_cases hNull : v.isNull = true
      · simp [masked, param?, hNull]
      · simp [masked, param?, hNull]
  | text _ => rfl
  | name _ => rfl
  | derived _ => rfl

/- Masked pieces bind as many operands. -/
theorem length_params_masked (pieces : List Piece) :
    (params (pieces.map Piece.masked)).length =
      (params pieces).length := by
  induction pieces with
  | nil => rfl
  | cons p rest ih =>
      have hHead :
          p.masked.param?.toList.length =
            p.param?.toList.length := by
        have hSome := p.isSome_param?_masked
        cases hMasked : p.masked.param? <;>
          cases hParam : p.param? <;>
            simp_all
      rw [List.map_cons, params_cons, params_cons,
        List.length_append, List.length_append, hHead, ih]

/- Masked pieces have the same text. -/
theorem textFrom_masked
    (n : Nat)
    (pieces : List Piece) :
    textFrom n (pieces.map Piece.masked) = textFrom n pieces := by
  induction pieces generalizing n with
  | nil => rfl
  | cons p rest ih =>
      cases p with
      | operand v =>
          by_cases hNull : v.isNull = true
          · simp [Piece.masked, textFrom, hNull, ih]
          · simp [Piece.masked, textFrom, hNull, ih]
      | text _ => simp [Piece.masked, textFrom, ih]
      | name _ => simp [Piece.masked, textFrom, ih]
      | derived _ => simp [Piece.masked, textFrom, ih]

/- A fixed text between lists of pieces has no mask. -/
theorem map_masked_joined
    (separator : String) :
    ∀ lists : List (List Piece),
      (joined separator lists).map Piece.masked =
        joined separator (lists.map (List.map Piece.masked))
| [] => rfl
| [_] => rfl
| ps :: qs :: rest => by
    have hRest := map_masked_joined separator (qs :: rest)
    simp only [List.map_cons] at hRest
    simp [joined, hRest, Piece.masked]

------------------------------------------------------------
-- Masked conditions
------------------------------------------------------------

namespace Condition

/- A masked comparison has the masked pieces. -/
theorem comparePieces_masked
    (column : Column)
    (op : Comparison)
    (value : Value) :
    comparePieces column op value.masked =
      (comparePieces column op value).map Piece.masked := by
  by_cases hNull : value.isNull = true
  · simp [comparePieces, hNull, Column.pieces, Piece.masked]
  · simp [comparePieces, hNull, Column.pieces, Piece.masked]

mutual

/- A masked condition has the masked pieces. -/
theorem pieces_masked :
    ∀ c : Condition, c.masked.pieces = c.pieces.map Piece.masked
| .compare column op value => by
    simp [masked, pieces, comparePieces_masked]
| .anyOf parts => by
    simp [masked, pieces, choicePieces_masked parts, Piece.masked]

/- The masked parts of a choice have the masked pieces. -/
theorem choicePieces_masked :
    ∀ parts : List Condition,
      choicePieces (choiceMasked parts) =
        (choicePieces parts).map Piece.masked
| [] => rfl
| [c] => by
    simp [choiceMasked, choicePieces, pieces_masked c]
| c :: d :: rest => by
    have hRest := choicePieces_masked (d :: rest)
    simp only [choiceMasked] at hRest
    simp [choiceMasked, choicePieces, pieces_masked c, hRest,
      Piece.masked]

end

end Condition

/- Masked conditions that must all hold have the masked pieces. -/
theorem wherePieces_masked (conditions : List Condition) :
    wherePieces (conditions.map Condition.masked) =
      (wherePieces conditions).map Piece.masked := by
  cases conditions with
  | nil => rfl
  | cons c rest =>
      simp [wherePieces, map_masked_joined, Piece.masked,
        Function.comp_def, Condition.pieces_masked]

------------------------------------------------------------
-- Queries that are alike
------------------------------------------------------------

/- Two queries that differ in present values at most. -/
structure Query.Alike (q q' : Query) : Prop where
  root : q.root = q'.root
  columns : q.columns = q'.columns
  joins : q.joins = q'.joins
  conditions :
    q.conditions.map Condition.masked =
      q'.conditions.map Condition.masked
  ordering : q.ordering = q'.ordering
  limit : q.limit = q'.limit
  offset : q.offset = q'.offset

/- Two statements with one text and as many parameters. -/
structure Statement.Alike (s s' : Statement) : Prop where
  sql : s.sql = s'.sql
  params : s.params.length = s'.params.length

/- Pieces with the same masks make up statements that are alike. -/
theorem alike_assemble
    {ps qs : List Piece}
    (h : ps.map Piece.masked = qs.map Piece.masked) :
    (assemble ps).Alike (assemble qs) where
  sql := by
    have hText := textFrom_masked 0 ps
    rw [h, textFrom_masked] at hText
    exact hText.symm
  params := by
    have hLength := length_params_masked ps
    rw [h, length_params_masked] at hLength
    exact hLength.symm

namespace Query.Alike

variable {q q' : Query}

/- Every query is like itself. -/
theorem refl (q : Query) : q.Alike q where
  root := rfl
  columns := rfl
  joins := rfl
  conditions := rfl
  ordering := rfl
  limit := rfl
  offset := rfl

/- The tables and conditions of queries that are alike. -/
theorem bodyPieces
    (h : q.Alike q') :
    q.bodyPieces.map Piece.masked =
      q'.bodyPieces.map Piece.masked := by
  have hWhere := congrArg wherePieces h.conditions
  rw [wherePieces_masked, wherePieces_masked] at hWhere
  simp [Query.bodyPieces, h.root, h.joins, hWhere]

/- Queries that are alike select rows by one text. -/
theorem select
    (h : q.Alike q') :
    q.select.Alike q'.select := by
  refine alike_assemble ?_
  simp [selectPieces, selectionPieces, orderingPieces, h.root,
    h.columns, h.ordering, h.limit, h.offset, h.bodyPieces]

/- Queries that are alike count rows by one text. -/
theorem count
    (h : q.Alike q') :
    q.count.Alike q'.count := by
  refine alike_assemble ?_
  simp [countPieces, h.bodyPieces]

end Query.Alike

end Sql

end RelationalRest
