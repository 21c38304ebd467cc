/-
  This file defines numbers in octets, the most significant
  one first.

  Key definitions include:
    * `Octets.ofNat`
    * `Octets.toNat`
    * `Octets.ofInt`
    * `Octets.toInt`
    * `Octets.Fits`
    * `Octets.integer?`
-/

namespace RelationalRest

namespace Octets

/- The octets of a number, at a given width. -/
def ofNat
    (width n : Nat) : List UInt8 :=
  match width with
  | 0 => []
  | width + 1 => UInt8.ofNat (n / Nat.pow 256 width) :: ofNat width n

/- The number that octets write. -/
def toNat (bytes : List UInt8) : Nat :=
  bytes.foldl (fun n b => 256 * n + b.toNat) 0

/- The octets of a signed number, in two's complement. -/
def ofInt
    (width : Nat)
    (i : Int) : List UInt8 :=
  ofNat width (i % Nat.pow 256 width).toNat

/- The signed number that octets write. -/
def toInt (bytes : List UInt8) : Int :=
  let n := toNat bytes
  if 2 * n < Nat.pow 256 bytes.length then
    n
  else
    (n : Int) - Nat.pow 256 bytes.length

/- A signed number has a place in a count of octets. -/
def Fits
    (width : Nat)
    (i : Int) : Prop :=
  -(Nat.pow 256 width : Int) ≤ 2 * i ∧ 2 * i < Nat.pow 256 width

instance (width : Nat) (i : Int) : Decidable (Fits width i) := by
  unfold Fits
  infer_instance

/-
  The signed number that one to eight octets write, if it has
  a place in a count of octets.
-/
def integer?
    (width : Nat)
    (bytes : List UInt8) : Option Int :=
  if bytes ≠ [] ∧ bytes.length ≤ 8 ∧ Fits width (toInt bytes) then
    some (toInt bytes)
  else
    none

end Octets

end RelationalRest
