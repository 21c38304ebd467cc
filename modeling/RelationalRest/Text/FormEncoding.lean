import RelationalRest.Text.Cut
import RelationalRest.Text.Hex
import RelationalRest.Text.Utf8

/-
  This file defines the form encoding of name and value pairs
  in a query text: pairs are joined by `&`, a name and its
  value by `=`, a space is written `+`, and an octet outside
  `A-Za-z0-9*-._` is written as `%` and two digits.

  Key definitions include:
    * `FormEncoding.percentDecode`
    * `FormEncoding.decode`
    * `FormEncoding.encode`
-/

namespace RelationalRest

namespace FormEncoding

------------------------------------------------------------
-- Reading
------------------------------------------------------------

/- The value of a digit given as an octet. -/
def octetValue? (b : UInt8) : Option Nat :=
  Text.hexValue? (Char.ofNat b.toNat)

/-
  Replace each `%` that two digits follow by the octet they
  write; any other `%` stands for itself.
-/
def percentDecode : List UInt8 → List UInt8
| [] => []
| [b] => [b]
| [a, b] => [a, b]
| b :: high :: low :: rest =>
    if b = 0x25 then
      match octetValue? high, octetValue? low with
      | some h, some l =>
          UInt8.ofNat (16 * h + l) :: percentDecode rest
      | _, _ => b :: percentDecode (high :: low :: rest)
    else
      b :: percentDecode (high :: low :: rest)

/- The text of a name or a value. -/
def decodePart (bytes : List UInt8) : String :=
  Utf8.decodeLossy <|
    percentDecode <|
      bytes.map fun b => if b = 0x2b then 0x20 else b

/- The pair in one piece between separators. -/
def decodePair (piece : List UInt8) : String × String :=
  match Text.cut 0x3d piece with
  | some (name, value) => (decodePart name, decodePart value)
  | none => (decodePart piece, "")

/- The pairs of a query text; empty pieces are skipped. -/
def decode (s : String) : List (String × String) :=
  ((Utf8.encode s).splitOn 0x26).filterMap fun piece =>
    if piece = [] then none else some (decodePair piece)

------------------------------------------------------------
-- Writing
------------------------------------------------------------

/- The octets that stand for themselves. -/
def isPlain (b : UInt8) : Bool :=
  let n := b.toNat
  (0x30 ≤ n && n ≤ 0x39) || (0x41 ≤ n && n ≤ 0x5a) ||
    (0x61 ≤ n && n ≤ 0x7a) || n == 0x2a || n == 0x2d ||
    n == 0x2e || n == 0x5f

/- The written form of an octet. -/
def encodeOctet (b : UInt8) : List Char :=
  if isPlain b then
    [Char.ofNat b.toNat]
  else if b = 0x20 then
    ['+']
  else
    ['%', Text.upperHex (b.toNat / 16),
      Text.upperHex (b.toNat % 16)]

/- The written form of a name or a value. -/
def encodePart (s : String) : List Char :=
  (Utf8.encode s).flatMap encodeOctet

/- The written form of a pair. -/
def encodePair (pair : String × String) : List Char :=
  encodePart pair.1 ++ '=' :: encodePart pair.2

/- The query text of pairs. -/
def encode (pairs : List (String × String)) : String :=
  String.ofList (['&'].intercalate (pairs.map encodePair))

end FormEncoding

end RelationalRest
