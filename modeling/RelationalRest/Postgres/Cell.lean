import RelationalRest.Calendar.Printer
import RelationalRest.Fields
import RelationalRest.Json.Reader
import RelationalRest.Postgres.Numeric
import RelationalRest.Text.Utf8

/-
  This file defines the reading of binary cells from the
  database as JSON values.  A cell that cannot be read, or is
  of a type that is not read, is null.

  Key definitions include:
    * `Postgres.CellType`
    * `Postgres.CellType.read?`
    * `Postgres.ResultColumn`
    * `Postgres.rowOf`
-/

namespace RelationalRest

namespace Postgres

------------------------------------------------------------
-- Types
------------------------------------------------------------

/- The type of a cell, as far as types are told apart. -/
inductive CellType where
| int (width : Nat)
| float4
| float8
| bool
| timestamptz
| timestamp
| date
| numeric
| text
| json
| jsonb
| other
deriving DecidableEq, Repr

/-
  The type of a name.  An enumeration comes as the text of
  its label.
-/
def CellType.ofName : String → CellType
| "int2" => .int 2
| "int4" => .int 4
| "int8" => .int 8
| "float4" => .float4
| "float8" => .float8
| "bool" => .bool
| "timestamptz" => .timestamptz
| "timestamp" => .timestamp
| "date" => .date
| "numeric" => .numeric
| "text" => .text
| "varchar" => .text
| "bpchar" => .text
| "name" => .text
| "unknown" => .text
| "enum" => .text
| "json" => .json
| "jsonb" => .jsonb
| _ => .other

------------------------------------------------------------
-- Cells
------------------------------------------------------------

/- A floating-point value, unless it is no finite number. -/
def finite? (x : Binary64) : Option Json :=
  if x.isFinite then some (.number (.float x)) else none

/- The point in time that octets write in microseconds. -/
def timestamp? (bytes : List UInt8) : Option Timestamp :=
  (Octets.integer? 8 bytes).bind Timestamp.ofMicros?

/- The date that octets write as a count of days. -/
def date? (bytes : List UInt8) : Option Date :=
  (Octets.integer? 4 bytes).bind fun days =>
    let d := Date.ofDayNumber days
    if Date.YearInRange d.year then some d else none

/- The number in the first octets of a count; more are left alone. -/
def leading?
    (width : Nat)
    (bytes : List UInt8) : Option Nat :=
  if width ≤ bytes.length then
    some (Octets.toNat (bytes.take width))
  else
    none

/- The JSON value that a text in octets writes. -/
def json? (bytes : List UInt8) : Option Json :=
  (Utf8.decode? bytes).bind Json.ofText?

/- The value of a cell of a type. -/
def CellType.read?
    (type : CellType)
    (bytes : List UInt8) : Option Json :=
  match type with
  | .int width =>
      (Octets.integer? width bytes).map (.number <| .int ·)
  | .float4 =>
      (leading? 4 bytes).bind fun n =>
        (Binary64.ofBinary32? (UInt32.ofNat n)).bind finite?
  | .float8 =>
      (leading? 8 bytes).bind fun n => finite? ⟨UInt64.ofNat n⟩
  | .bool => bytes.head?.map fun b => .bool (b ≠ 0)
  | .timestamptz => (timestamp? bytes).map (.string ·.utcText)
  | .timestamp => (timestamp? bytes).map (.string ·.text)
  | .date => (date? bytes).map (.string ·.text)
  | .numeric =>
      ((Numeric.ofOctets? bytes).bind Numeric.text?).map .string
  | .text => (Utf8.decode? bytes).map .string
  | .json => json? bytes
  | .jsonb =>
      match bytes with
      | 1 :: rest => json? rest
      | _ => none
  | .other => none

------------------------------------------------------------
-- Rows
------------------------------------------------------------

/- A column of a result. -/
structure ResultColumn where
  name : String
  type : CellType
deriving DecidableEq, Repr

/- The cells of a result row; an absent one is null. -/
abbrev CellRow :=
  List (Option (List UInt8))

/- The value of a cell that may be absent. -/
def cellValue
    (column : ResultColumn)
    (cell : Option (List UInt8)) : Json :=
  (cell.bind column.type.read?).getD .null

/-
  The values of a row by column name.  A repeated name keeps
  its first position and its last value.
-/
def rowOf
    (columns : List ResultColumn)
    (cells : CellRow) : Fields Json :=
  Fields.ofList <|
    (columns.zip cells).map fun (column, cell) =>
      (column.name, cellValue column cell)

end Postgres

end RelationalRest
