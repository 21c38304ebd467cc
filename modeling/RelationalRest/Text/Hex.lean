/-
  This file defines hexadecimal digits and the octets that
  two of them write.

  Key definitions include:
    * `Text.hexValue?`
    * `Text.upperHex`
    * `Text.lowerHex`
    * `Text.octets?`
-/

namespace RelationalRest

namespace Text

/- The value of a hexadecimal digit, in either case. -/
def hexValue? (c : Char) : Option Nat :=
  let n := c.toNat
  if 0x30 ≤ n ∧ n ≤ 0x39 then
    some (n - 0x30)
  else if 0x41 ≤ n ∧ n ≤ 0x46 then
    some (n - 0x41 + 10)
  else if 0x61 ≤ n ∧ n ≤ 0x66 then
    some (n - 0x61 + 10)
  else
    none

/- The digit of a value below sixteen, in capitals. -/
def upperHex (n : Nat) : Char :=
  Char.ofNat (if n < 10 then 0x30 + n else 0x41 + (n - 10))

/- The digit of a value below sixteen, in small letters. -/
def lowerHex (n : Nat) : Char :=
  Char.ofNat (if n < 10 then 0x30 + n else 0x61 + (n - 10))

/- The two digits of an octet, in small letters. -/
def octetHex (b : UInt8) : List Char :=
  [lowerHex (b.toNat / 16), lowerHex (b.toNat % 16)]

/- The hexadecimal text of a list of octets. -/
def hexText (bytes : List UInt8) : String :=
  String.ofList (bytes.flatMap octetHex)

/- The octets that a list of digit pairs writes. -/
def octets? : List Char → Option (List UInt8)
| [] => some []
| [_] => none
| high :: low :: rest =>
    match hexValue? high, hexValue? low, octets? rest with
    | some h, some l, some bytes =>
        some (UInt8.ofNat (16 * h + l) :: bytes)
    | _, _, _ => none

/- A capital digit is read back. -/
theorem hexValue?_upperHex
    {n : Nat}
    (h : n < 16) :
    hexValue? (upperHex n) = some n := by
  have hAll :
      ∀ m : Fin 16, hexValue? (upperHex m.1) = some m.1 := by
    decide
  exact hAll ⟨n, h⟩

end Text

end RelationalRest
