import RelationalRest.Binary64.Basic
import RelationalRest.Fields
import RelationalRest.Text.Numeral

/-
  This file defines JSON values.  A number is a whole number
  or a floating-point number, and the two are never equal;
  the members of an object have an order, which equality
  ignores.

  Key definitions include:
    * `Json`
    * `Json.Number`
    * `Json.same`
-/

namespace RelationalRest

/-
  A JSON number: whole if it was written without a point or
  an exponent and fits a word of 64 bits.
-/
inductive Json.Number where
| int (i : Int)
| float (x : Binary64)
deriving DecidableEq, Repr

/- A JSON value. -/
inductive Json where
| null
| bool (b : Bool)
| number (n : Json.Number)
| string (s : String)
| array (items : List Json)
| object (members : List (String × Json))

namespace Json

instance : Inhabited Json :=
  ⟨.null⟩

/- The whole number that fits a signed word of 64 bits. -/
def Number.int64? : Number → Option Int
| .int i => if Text.InInt64 i then some i else none
| .float _ => none

/- The nearest floating-point number. -/
def Number.toBinary64 : Number → Binary64
| .int i => Binary64.ofInt i
| .float x => x

/- Equality of numbers. -/
def Number.same : Number → Number → Bool
| .int i, .int j => i == j
| .float x, .float y => x.same y
| _, _ => false

mutual

/- Equality of values; the order of members is ignored. -/
def same : Json → Json → Bool
| .null, .null => true
| .bool a, .bool b => a == b
| .number a, .number b => a.same b
| .string a, .string b => a == b
| .array xs, .array ys => sameItems xs ys
| .object xs, .object ys =>
    xs.length == ys.length && sameMembers xs ys
| _, _ => false
termination_by structural v => v

/- Equality item by item. -/
def sameItems : List Json → List Json → Bool
| [], [] => true
| x :: xs, y :: ys => same x y && sameItems xs ys
| _, _ => false
termination_by structural xs => xs

/- Each member has an equal one of its name. -/
def sameMembers :
    List (String × Json) → List (String × Json) → Bool
| [], _ => true
| (name, v) :: rest, members =>
    (match Fields.get? members name with
    | some w => same v w
    | none => false) && sameMembers rest members
termination_by structural xs => xs

end

end Json

end RelationalRest
