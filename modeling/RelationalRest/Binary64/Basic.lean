/-
  This file defines binary floating-point numbers of 64 bits
  as their bit patterns, with exact rounding of quotients.

  A finite number is `significand * 2 ^ scale` units of
  `2 ^ -1074`, up to its sign.  Rounding works on units: the
  scale is the least one at which the quotient needs no more
  than 53 bits, and a tie goes to the even neighbour.

  Key definitions include:
    * `Binary64`
    * `Binary64.ofRatio`
    * `Binary64.mul`
    * `Binary64.div`
    * `Binary64.same`
    * `Binary64.ofBinary32?`
-/

namespace RelationalRest

/- A floating-point number, given by its bits. -/
structure Binary64 where
  bits : UInt64
deriving DecidableEq, Repr

namespace Binary64

------------------------------------------------------------
-- Parts of a number
------------------------------------------------------------

/- The sign bit is set. -/
def negative (x : Binary64) : Bool :=
  Nat.pow 2 63 ≤ x.bits.toNat

/- The biased exponent. -/
def exponent (x : Binary64) : Nat :=
  x.bits.toNat / Nat.pow 2 52 % Nat.pow 2 11

/- The stored bits of the significand. -/
def fraction (x : Binary64) : Nat :=
  x.bits.toNat % Nat.pow 2 52

/- Neither infinite nor a failed computation. -/
def isFinite (x : Binary64) : Bool :=
  x.exponent < 2047

/- Zero of either sign. -/
def isZero (x : Binary64) : Bool :=
  x.bits.toNat % Nat.pow 2 63 = 0

/- The significand of a finite number. -/
def significand (x : Binary64) : Nat :=
  if x.exponent = 0 then x.fraction else x.fraction + Nat.pow 2 52

/- The power of two that scales the significand. -/
def scale (x : Binary64) : Nat :=
  x.exponent - 1

/- The size of a finite number in units of `2 ^ -1074`. -/
def units (x : Binary64) : Nat :=
  x.significand * Nat.pow 2 x.scale

------------------------------------------------------------
-- Rounding
------------------------------------------------------------

/- The quotient, rounded to the nearest; a tie goes to even. -/
def roundDiv
    (num den : Nat) : Nat :=
  let quotient := num / den
  let remainder := num % den
  if den < 2 * remainder ∨
      (den = 2 * remainder ∧ quotient % 2 = 1) then
    quotient + 1
  else
    quotient

/- The bits, without sign, of the number nearest to a ratio. -/
def nearestBits
    (num den : Nat) : Nat :=
  let whole := num * Nat.pow 2 1074
  let scale := (whole / den).log2 - 52
  min (scale * Nat.pow 2 52 + roundDiv whole (den * Nat.pow 2 scale))
    (2047 * Nat.pow 2 52)

/-
  The number nearest to a ratio with a positive denominator;
  a ratio beyond the range becomes infinite.
-/
def ofRatio
    (negative : Bool)
    (num den : Nat) : Binary64 :=
  let sign := if negative then Nat.pow 2 63 else 0
  ⟨UInt64.ofNat (sign + nearestBits num den)⟩

/- The number nearest to a whole number. -/
def ofInt (i : Int) : Binary64 :=
  ofRatio (decide (i < 0)) i.natAbs 1

/- The number nearest to a whole number without sign. -/
def ofNat (n : Nat) : Binary64 :=
  ofRatio false n 1

/- Zero without sign. -/
def zero : Binary64 :=
  ⟨0⟩

/- The same number with the other sign. -/
def neg (x : Binary64) : Binary64 :=
  ⟨x.bits ^^^ 0x8000000000000000⟩

/- The rounded product of finite numbers. -/
def mul
    (x y : Binary64) : Binary64 :=
  ofRatio (x.negative != y.negative)
    (x.units * y.units) (Nat.pow 2 1074 * Nat.pow 2 1074)

/- The rounded quotient of finite numbers. -/
def div
    (x y : Binary64) : Binary64 :=
  ofRatio (x.negative != y.negative) x.units y.units

/-
  Numeric equality: the two zeros are equal, and a pattern
  that is no number equals nothing.
-/
def same
    (x y : Binary64) : Bool :=
  let isNumber (z : Binary64) : Bool :=
    z.bits.toNat % Nat.pow 2 63 ≤ 2047 * Nat.pow 2 52
  isNumber x && isNumber y &&
    (x == y || (x.isZero && y.isZero))

/- A finite number of 32 bits, widened. -/
def ofBinary32? (bits : UInt32) : Option Binary64 :=
  let b := bits.toNat
  let exponent := b / Nat.pow 2 23 % Nat.pow 2 8
  let fraction := b % Nat.pow 2 23
  if exponent = 255 then
    none
  else
    let significand :=
      if exponent = 0 then fraction else fraction + Nat.pow 2 23
    some <|
      ofRatio (decide (Nat.pow 2 31 ≤ b))
        (significand * Nat.pow 2 (exponent - 1)) (Nat.pow 2 149)

end Binary64

end RelationalRest
