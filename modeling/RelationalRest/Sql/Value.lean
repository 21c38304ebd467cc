import RelationalRest.Calendar.Timestamp
import RelationalRest.Json.Basic

/-
  This file defines the values that a statement compares with
  or stores.

  Key definitions include:
    * `Sql.Value`
    * `Sql.Value.ofJson`
    * `Sql.Value.isNull`
-/

namespace RelationalRest

namespace Sql

/- A value of a statement. -/
inductive Value where
| null
| bool (b : Bool)
| int (i : Int)
| float (x : Binary64)
| string (s : String)
| timestamp (t : Timestamp)
| json (v : Json)

namespace Value

instance : Inhabited Value :=
  ⟨.null⟩

/- The value of a number: whole where it fits 64 bits. -/
def ofNumber (n : Json.Number) : Value :=
  match n.int64? with
  | some i => .int i
  | none => .float n.toBinary64

/-
  The value of a JSON value, whatever column it is meant for.
  Arrays and objects stay JSON.
-/
def ofJson : Json → Value
| .null => .null
| .bool b => .bool b
| .number n => ofNumber n
| .string s => .string s
| v => .json v

/- The absent value. -/
def isNull : Value → Bool
| .null => true
| _ => false

/- Only the absent JSON value gives the absent value. -/
theorem isNull_ofJson_iff {v : Json} :
    (ofJson v).isNull = true ↔ v = .null := by
  cases v with
  | null => simp [ofJson, isNull]
  | number n =>
      cases h : n.int64? <;> simp [ofJson, ofNumber, isNull, h]
  | bool _ => simp [ofJson, isNull]
  | string _ => simp [ofJson, isNull]
  | array _ => simp [ofJson, isNull]
  | object _ => simp [ofJson, isNull]

end Value

end Sql

end RelationalRest
