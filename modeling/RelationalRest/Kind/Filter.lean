import RelationalRest.Error.Request
import RelationalRest.Kind.Basic
import RelationalRest.Sql.Query

/-
  This file defines the filters of a kind.  A filter text may
  begin with the token of an operator; what follows is one
  operand or several set apart by commas.  Tokens are tried
  in order, so one that begins another stands after it.

  Key definitions include:
    * `FilterOperator`
    * `Kind.operators`
    * `Kind.resolve`
    * `Kind.condition`
-/

namespace RelationalRest

/-
  A comparison, and whether its operand is a pattern that may
  stand anywhere in the text.
-/
structure FilterOperator where
  comparison : Sql.Comparison
  contains : Bool := false
deriving DecidableEq, Repr

namespace Kind

/- The operators of a kind by their tokens. -/
def operators : Kind → List (String × FilterOperator)
| .integer =>
    [(">=", ⟨.ge, false⟩), ("<=", ⟨.le, false⟩),
      ("<", ⟨.lt, false⟩), (">", ⟨.gt, false⟩)]
| .string =>
    [("!~", ⟨.notLike, true⟩), ("~", ⟨.like, true⟩),
      ("!", ⟨.ne, false⟩)]
| .timestamp =>
    [("<=", ⟨.le, false⟩), (">=", ⟨.ge, false⟩),
      ("<", ⟨.lt, false⟩), (">", ⟨.gt, false⟩)]
| .boolean => []
| .oneOf _ => []

/- The operator of a text without a token. -/
def defaultOperator : Kind → FilterOperator
| .string => ⟨.like, false⟩
| _ => ⟨.eq, false⟩

/-
  The first operator whose token begins a text, and the text
  after it; without a token, the default and the whole text.
-/
def resolve
    (k : Kind)
    (s : String) : FilterOperator × String :=
  let found :=
    k.operators.findSome? fun (token, op) =>
      (Text.after? token s).map fun rest => (op, rest)
  found.getD (k.defaultOperator, s)

/- The value that an operator compares with. -/
def operand
    (k : Kind)
    (op : FilterOperator)
    (s : String) : Sql.Value :=
  if k = .string ∧ op.contains = true then
    .string ("%" ++ s ++ "%")
  else
    k.ofText s

/- The condition of operands: one, or a choice between several. -/
def choice : List Sql.Condition → Sql.Condition
| [c] => c
| parts => .anyOf parts

/- The condition that a filter text puts on a column. -/
def condition
    (k : Kind)
    (column : Sql.Column)
    (s : String) : Except RequestError Sql.Condition :=
  let (op, rest) := k.resolve s
  if k.accepts rest then
    .ok <| choice <|
      (Text.split ',' rest).map fun part =>
        .compare column op.comparison (k.operand op part)
  else
    .error (.invalidValue rest column.label)

end Kind

end RelationalRest
