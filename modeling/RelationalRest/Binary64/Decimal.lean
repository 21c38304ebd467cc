import RelationalRest.Binary64.Basic
import RelationalRest.Text.Numeral

/-
  This file defines the reading of decimal numbers as the
  nearest floating-point number.

  A written number is an optional sign, digits with at most
  one point among or beside them, and an optional exponent.

  Key definitions include:
    * `Decimal`
    * `Decimal.read?`
    * `Decimal.nearest`
    * `Binary64.finite?`
-/

namespace RelationalRest

/- A signed decimal number: `digits * 10 ^ exponent`. -/
structure Decimal where
  negative : Bool
  digits : Nat
  exponent : Int
deriving DecidableEq, Repr

namespace Decimal

/- The nearest floating-point number. -/
def nearest (d : Decimal) : Binary64 :=
  let width : Int := (Nat.toDigits 10 d.digits).length
  if d.digits = 0 ∨ d.exponent + width < -400 then
    Binary64.ofRatio d.negative 0 1
  else if 400 < d.exponent + width then
    Binary64.ofRatio d.negative (Nat.pow 10 400) 1
  else if 0 ≤ d.exponent then
    Binary64.ofRatio d.negative
      (d.digits * Nat.pow 10 d.exponent.toNat) 1
  else
    Binary64.ofRatio d.negative
      d.digits (Nat.pow 10 (-d.exponent).toNat)

/- An exponent after its letter: an optional sign and digits. -/
def exponent? : List Char → Option Int
| [] => some 0
| c :: rest =>
    if c = 'e' ∨ c = 'E' then Text.integer? rest else none

/-
  Digits with an optional point and an exponent; a digit is
  needed on one side of the point.
-/
def readUnsigned?
    (negative : Bool)
    (cs : List Char) : Option Decimal :=
  let whole := cs.takeWhile Char.isDigit
  let (part, rest) :=
    match cs.dropWhile Char.isDigit with
    | '.' :: rest =>
        (rest.takeWhile Char.isDigit, rest.dropWhile Char.isDigit)
    | rest => ([], rest)
  if whole = [] ∧ part = [] then
    none
  else
    (exponent? rest).map fun e =>
      { negative
        digits := Text.digitsValue (whole ++ part)
        exponent := e - part.length }

/- A written decimal number. -/
def read? : List Char → Option Decimal
| '+' :: rest => readUnsigned? false rest
| '-' :: rest => readUnsigned? true rest
| cs => readUnsigned? false cs

end Decimal

/-
  The floating-point number nearest to a written one, if the
  text is a number and does not exceed the range.
-/
def Binary64.finite? (cs : List Char) : Option Binary64 :=
  ((Decimal.read? cs).map Decimal.nearest).filter
    Binary64.isFinite

end RelationalRest
