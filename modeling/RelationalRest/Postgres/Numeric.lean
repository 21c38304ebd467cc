import RelationalRest.Binary64.Basic
import RelationalRest.Postgres.Octets

/-
  This file defines the reading of exact decimal numbers from
  the database.  A number comes as groups of four digits, the
  weight of the first group, a sign and a count of places.

  Sizes are held in 96 bits.  The groups, which are signed,
  are summed from the greatest, and a sum keeps as many places
  as 96 bits allow.  The sum is rounded to the places of the
  number, a half away from zero, or filled up with zeros as
  far as 96 bits allow; zero is filled up to 28 places.  The
  sign of the number replaces that of the sum.

  Key definitions include:
    * `Numeric`
    * `Numeric.ofOctets?`
    * `Numeric.Scaled`
    * `Numeric.text?`
-/

namespace RelationalRest

/- A number as the database sends it. -/
structure Numeric where
  groups : List Int
  weight : Int
  negative : Bool
  places : Int
deriving DecidableEq, Repr

namespace Numeric

/- The most places that zero is filled up to. -/
def maxPlaces : Nat :=
  28

/- The bound of what 96 bits hold. -/
def bound : Nat :=
  Nat.pow 2 96

/- Signed groups of two octets each. -/
def groupsOf : Nat → List UInt8 → Option (List Int)
| 0, _ => some []
| n + 1, a :: b :: rest =>
    (groupsOf n rest).map fun groups =>
      Octets.toInt [a, b] :: groups
| _ + 1, _ => none

/- The number that octets write. -/
def ofOctets? : List UInt8 → Option Numeric
| c₁ :: c₂ :: w₁ :: w₂ :: s₁ :: s₂ :: p₁ :: p₂ :: rest =>
    let sign := Octets.toNat [s₁, s₂]
    if sign = 0 ∨ sign = 0x4000 then
      (groupsOf (Octets.toNat [c₁, c₂]) rest).map fun groups =>
        { groups
          weight := Octets.toInt [w₁, w₂]
          negative := sign = 0x4000
          places := Octets.toInt [p₁, p₂] }
    else
      none
| _ => none

------------------------------------------------------------
-- Scaled sizes
------------------------------------------------------------

/- A signed size in units of `10 ^ -places`. -/
structure Scaled where
  size : Int
  places : Nat
deriving DecidableEq, Repr

namespace Scaled

/- The size at fewer places; a half goes to the even neighbour. -/
def toEven
    (x : Scaled)
    (places : Nat) : Scaled :=
  let unit := Nat.pow 10 (x.places - places)
  { size := x.size.sign * Binary64.roundDiv x.size.natAbs unit
    places }

/- The size at fewer places; a half goes away from zero. -/
def awayFromZero
    (x : Scaled)
    (places : Nat) : Scaled :=
  let unit := Nat.pow 10 (x.places - places)
  { size := x.size.sign * ((2 * x.size.natAbs + unit) / (2 * unit))
    places }

/- The size at more places. -/
def extended
    (x : Scaled)
    (places : Nat) : Scaled :=
  { size := x.size * Nat.pow 10 (places - x.places), places }

/- 96 bits hold a size. -/
def Holds (x : Scaled) : Prop :=
  x.size.natAbs < bound

instance (x : Scaled) : Decidable x.Holds := by
  unfold Holds
  infer_instance

/-
  A size at the most places, up to a count, at which 96 bits
  hold it.
-/
def settle (x : Scaled) : Nat → Option Scaled
| 0 => if (x.toEven 0).Holds then some (x.toEven 0) else none
| places + 1 =>
    if (x.toEven (places + 1)).Holds then
      some (x.toEven (places + 1))
    else
      settle x places

/- The sum of two sizes, as exactly as 96 bits hold it. -/
def add (x y : Scaled) : Option Scaled :=
  let places := max x.places y.places
  settle
    { size := (x.extended places).size + (y.extended places).size
      places }
    places

/-
  A size filled up with zeros by a count of places, as far as
  96 bits hold it.
-/
def fill (x : Scaled) : Nat → Scaled
| 0 => x
| more + 1 =>
    let y := x.extended (x.places + 1)
    if y.Holds then fill y more else x

/- A size rounded to the given places, or filled up to them. -/
def atPlaces
    (x : Scaled)
    (places : Nat) : Scaled :=
  if x.size = 0 then
    { size := 0, places := min places maxPlaces }
  else if places ≤ x.places then
    x.awayFromZero places
  else
    x.fill (places - x.places)

end Scaled

/- What one group adds; weights from -7 to 7 can be held. -/
def part?
    (weight : Int)
    (group : Int) : Option Scaled :=
  if weight < -7 ∨ 7 < weight then
    none
  else if weight < 0 then
    some { size := group, places := (-4 * weight).toNat }
  else
    let x : Scaled :=
      { size := group * Nat.pow 10000 weight.toNat, places := 0 }
    if x.Holds then some x else none

/- Add groups from a weight downwards. -/
def sum? (x : Scaled) : Int → List Int → Option Scaled
| _, [] => some x
| weight, group :: rest =>
    match part? weight group with
    | none => none
    | some part =>
        match x.add part with
        | none => none
        | some x => sum? x (weight - 1) rest

------------------------------------------------------------
-- Texts
------------------------------------------------------------

/- The text of a whole number of units of the given places. -/
def placedText
    (negative : Bool)
    (n places : Nat) : String :=
  let digits := Nat.toDigits 10 n
  let padded :=
    List.replicate (places + 1 - digits.length) '0' ++ digits
  let whole := padded.take (padded.length - places)
  let part := padded.drop (padded.length - places)
  String.ofList <|
    (if negative then ['-'] else []) ++ whole ++
      (if places = 0 then [] else '.' :: part)

/- The text of a number that can be shown. -/
def text? (x : Numeric) : Option String :=
  if x.groups = [] then
    some "0"
  else if x.places < 0 then
    none
  else
    (sum? { size := 0, places := 0 } x.weight x.groups).map
      fun sum =>
        let shown := sum.atPlaces x.places.toNat
        placedText x.negative shown.size.natAbs shown.places

end Numeric

end RelationalRest
