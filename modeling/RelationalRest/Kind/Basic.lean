import RelationalRest.Binary64.Decimal
import RelationalRest.Calendar.Reader
import RelationalRest.Json.Printer
import RelationalRest.Sql.Value
import RelationalRest.Text.Cut

/-
  This file defines the kinds of values that fields hold:
  which texts and JSON values a kind accepts, and the value
  of a statement that an accepted one stands for.

  Key definitions include:
    * `Kind`
    * `Kind.acceptsText`
    * `Kind.accepts`
    * `Kind.acceptsJson`
    * `Kind.ofText`
    * `Kind.ofJson`
-/

namespace RelationalRest

/- A kind of values; `oneOf` holds the listed strings only. -/
inductive Kind where
| integer
| boolean
| string
| timestamp
| oneOf (values : List String)
deriving DecidableEq, Repr

namespace Kind

------------------------------------------------------------
-- Texts
------------------------------------------------------------

/-
  The number that a text writes: a whole number if it fits a
  word of 64 bits, and otherwise the nearest floating-point
  number.
-/
def number? (s : String) : Option Sql.Value :=
  let cs := Text.trim s.toList
  match Text.int64? cs with
  | some i => some (.int i)
  | none => (Binary64.finite? cs).map .float

/- The truth value that a text writes, in any case of letters. -/
def boolean? (s : String) : Option Bool :=
  let word := s.toList.map Char.toLower
  if word = "1".toList ∨ word = "true".toList then
    some true
  else if word = "0".toList ∨ word = "false".toList then
    some false
  else
    none

/- A kind accepts a text as one value. -/
def acceptsText
    (k : Kind)
    (s : String) : Bool :=
  match k with
  | .integer => (number? s).isSome
  | .boolean => (boolean? s).isSome
  | .string => s ≠ ""
  | .timestamp => (Timestamp.read? s).isSome
  | .oneOf values => values.contains s

/- A kind accepts a text as a list of values set apart by commas. -/
def accepts
    (k : Kind)
    (s : String) : Bool :=
  (Text.split ',' s).all k.acceptsText

/- The value that an accepted text stands for. -/
def ofText
    (k : Kind)
    (s : String) : Sql.Value :=
  match k with
  | .integer => (number? s).getD .null
  | .boolean => .bool ((boolean? s).getD false)
  | .string => .string s
  | .timestamp => ((Timestamp.read? s).map .timestamp).getD .null
  | .oneOf _ => .string s

------------------------------------------------------------
-- JSON values
------------------------------------------------------------

/- A kind accepts a JSON value; every kind accepts the absent one. -/
def acceptsJson
    (k : Kind)
    (v : Json) : Bool :=
  match k, v with
  | _, .null => true
  | .integer, .number _ => true
  | .boolean, .bool _ => true
  | .boolean, .number n =>
      n.int64? == some 0 || n.int64? == some 1
  | .string, .number _ => true
  | .string, .bool _ => true
  | k, .string s => k.acceptsText s
  | _, _ => false

/- The value that an accepted JSON value stands for. -/
def ofJson
    (k : Kind)
    (v : Json) : Sql.Value :=
  match k, v with
  | _, .null => .null
  | .boolean, .number n => .bool (n.int64? != some 0)
  | .string, .number n => .string n.text
  | .string, .bool b => .string (toString b)
  | k, .string s => k.ofText s
  | _, v => Sql.Value.ofJson v

end Kind

end RelationalRest
