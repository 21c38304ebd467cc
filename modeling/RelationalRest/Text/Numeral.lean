/-
  This file defines the reading of whole numbers written in
  decimal digits.  Only the digits 0 to 9 count, at least one
  is needed, and a number outside its range is refused.

  Key definitions include:
    * `Text.natural?`
    * `Text.unsigned?`
    * `Text.integer?`
    * `Text.InInt64`
    * `Text.int64?`
-/

namespace RelationalRest

namespace Text

/- The number that a list of digits denotes. -/
def digitsValue (digits : List Char) : Nat :=
  Nat.ofDigitChars 10 digits 0

/- A nonempty list of digits, read as a number. -/
def natural? (cs : List Char) : Option Nat :=
  if cs ≠ [] ∧ cs.all Char.isDigit = true then
    some (digitsValue cs)
  else
    none

/- A number below a bound; a plus sign may precede it. -/
def unsigned?
    (bound : Nat)
    (cs : List Char) : Option Nat :=
  let digits :=
    match cs with
    | '+' :: rest => rest
    | _ => cs
  (natural? digits).filter (· < bound)

/- A whole number; a sign may precede it. -/
def integer? : List Char → Option Int
| '+' :: rest => (natural? rest).map Int.ofNat
| '-' :: rest => (natural? rest).map fun n => -(n : Int)
| cs => (natural? cs).map Int.ofNat

/- The numbers that a signed word of 64 bits holds. -/
def InInt64 (i : Int) : Prop :=
  -(Nat.pow 2 63 : Int) ≤ i ∧ i < Nat.pow 2 63

instance (i : Int) : Decidable (InInt64 i) := by
  unfold InInt64
  infer_instance

/- A whole number that fits a signed word of 64 bits. -/
def int64? (cs : List Char) : Option Int :=
  (integer? cs).filter fun i => decide (InInt64 i)

/- A number that fits an unsigned word of 64 bits. -/
def nat64? (cs : List Char) : Option Nat :=
  unsigned? (Nat.pow 2 64) cs

/- A written number is read back. -/
theorem natural?_toDigits (n : Nat) :
    natural? (Nat.toDigits 10 n) = some n := by
  have hDigits :
      (Nat.toDigits 10 n).all Char.isDigit = true := by
    rw [List.all_eq_true]
    intro c hc
    exact Nat.isDigit_of_mem_toDigits (by decide) (by decide) hc
  have hValue : digitsValue (Nat.toDigits 10 n) = n :=
    Nat.ofDigitChars_toDigits (by decide) (by decide)
  unfold natural?
  rw [if_pos ⟨Nat.toDigits_ne_nil, hDigits⟩, hValue]

/- A number that is read is written in digits. -/
theorem all_isDigit_of_natural?
    {cs : List Char}
    {n : Nat}
    (h : natural? cs = some n) :
    cs ≠ [] ∧ cs.all Char.isDigit = true ∧ n = digitsValue cs := by
  unfold natural? at h
  split at h
  · next hc =>
      exact ⟨hc.1, hc.2, (Option.some.inj h).symm⟩
  · cases h

end Text

end RelationalRest
