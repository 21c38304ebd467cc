import RelationalRest.Binary64.Basic

/-
  This file defines the shortest decimal text of a finite
  floating-point number: the fewest digits that read back as
  the number, and of those the nearest to it.

  A number has an interval of reals that round to it, whose
  ends belong to it exactly when its significand is even.  On
  the grid of decimals with a given count of digits only the
  two neighbours of the number need to be tried.

  Key definitions include:
    * `Binary64.shortest`
    * `Binary64.decimalText`
-/

namespace RelationalRest

namespace Binary64

------------------------------------------------------------
-- Digits
------------------------------------------------------------

/- The count of decimal digits. -/
def digitCount (n : Nat) : Nat :=
  (Nat.toDigits 10 n).length

/- The greatest power of ten that a positive ratio reaches. -/
def decimalExponent
    (num den : Nat) : Int :=
  if den ≤ num then
    (digitCount (num / den) : Int) - 1
  else
    -(digitCount ((den + num - 1) / num - 1) : Int)

/-
  The reals that round to a number, in quarter units:
  the number, the two ends, and whether the ends belong to it.
-/
structure Interval where
  center : Nat
  low : Nat
  high : Nat
  closed : Bool

/- The interval of a positive finite number. -/
def interval (x : Binary64) : Interval :=
  let m := x.significand
  let below := if x.fraction = 0 ∧ 1 < x.exponent then 1 else 2
  let factor := Nat.pow 2 x.scale
  { center := 4 * m * factor
    low := (4 * m - below) * factor
    high := (4 * m + 2) * factor
    closed := m % 2 = 0 }

/- A fraction of quarter units lies in an interval. -/
def Interval.holds
    (i : Interval)
    (num den : Nat) : Bool :=
  if i.closed then
    i.low * den ≤ num && num ≤ i.high * den
  else
    i.low * den < num && num < i.high * den

/-
  The nearer of the two neighbours on the grid of multiples
  of `10 ^ power`, if one of them lies in the interval.
-/
def Interval.gridPoint?
    (i : Interval)
    (power : Int) : Option Nat :=
  -- a quarter unit is `2 ^ -1076`
  let up := Nat.pow 10 power.toNat * Nat.pow 2 1076
  let down := Nat.pow 10 (-power).toNat
  let point := i.center * down / up
  let rest := i.center * down % up
  let belowIn := i.holds (point * up) down
  let aboveIn := i.holds ((point + 1) * up) down
  match belowIn, aboveIn with
  | true, true =>
      if 2 * rest < up ∨ (2 * rest = up ∧ point % 2 = 0) then
        some point
      else
        some (point + 1)
  | true, false => some point
  | false, true => some (point + 1)
  | false, false => none

/-
  The digits and the power of ten of the first grid that has
  a point in the interval, trying `fuel` grids from a power
  downwards.
-/
def Interval.firstPoint
    (i : Interval) : Nat → Int → Nat × Int
| 0, power => (0, power)
| fuel + 1, power =>
    match i.gridPoint? power with
    | some digits => (digits, power)
    | none => firstPoint i fuel (power - 1)

/-
  The shortest digits of a nonzero finite number, with the
  power of ten that scales them.  Seventeen digits suffice.
-/
def shortest (x : Binary64) : Nat × Int :=
  let i := x.interval
  i.firstPoint 18 (decimalExponent i.center (Nat.pow 2 1076))

------------------------------------------------------------
-- Text
------------------------------------------------------------

/- Digits without the zeros at their end. -/
def significantDigits (digits : Nat) : List Char :=
  ((Nat.toDigits 10 digits).reverse.dropWhile
    (· == '0')).reverse

/-
  The text of digits whose first one stands for the power
  `exponent` of ten.  From `10 ^ -5` up to `10 ^ 16` it is
  positional, with a digit on each side of the point; beyond,
  one digit precedes the point and the exponent has a sign.
-/
def layout
    (digits : List Char)
    (exponent : Int) : List Char :=
  if -5 ≤ exponent ∧ exponent < 0 then
    let zeros := List.replicate (-exponent - 1).toNat '0'
    '0' :: '.' :: zeros ++ digits
  else if 0 ≤ exponent ∧ exponent < 16 then
    let places := exponent.toNat + 1
    let whole := digits.take places
    let part := digits.drop places
    let padding :=
      List.replicate (places - digits.length) '0'
    whole ++ padding ++ '.' ::
      (if part = [] then ['0'] else part)
  else
    let sign := if exponent < 0 then '-' else '+'
    let power := Nat.toDigits 10 exponent.natAbs
    digits.take 1 ++
      (if digits.length ≤ 1 then [] else '.' :: digits.drop 1) ++
      'e' :: sign :: power

/- The shortest text of a finite number. -/
def decimalText (x : Binary64) : String :=
  let sign := if x.negative then ['-'] else []
  if x.isZero then
    String.ofList (sign ++ ['0', '.', '0'])
  else
    let (digits, power) := x.shortest
    let exponent := power + (digitCount digits : Int) - 1
    String.ofList
      (sign ++ layout (significantDigits digits) exponent)

end Binary64

end RelationalRest
