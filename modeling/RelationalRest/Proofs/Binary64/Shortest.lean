import Mathlib.Algebra.Field.Rat
import Mathlib.Algebra.Order.Field.Power
import Mathlib.Algebra.Order.Ring.Rat
import Mathlib.Tactic.FieldSimp
import Mathlib.Tactic.Positivity
import RelationalRest.Proofs.Binary64.Rounding

/-
  The shortest digits of a finite number write a decimal that
  lies in the interval of the number.  The grid of decimals
  with seventeen digits is narrower than each interval, so a
  point is always found.

  Key definitions include:
    * `Binary64.quarters`
    * `Binary64.Interval.Contains`

  Main declarations:
    * `Binary64.Interval.holds_iff`
    * `Binary64.Interval.contains_of_gridPoint?`
    * `Binary64.Interval.exists_gridPoint?`
    * `Binary64.pow_decimalExponent_le`
    * `Binary64.contains_shortest`
-/

namespace RelationalRest

namespace Binary64

------------------------------------------------------------
-- Intervals of rationals
------------------------------------------------------------

/- The count of quarter units in one. -/
def quarters : Nat :=
  Nat.pow 2 1076

/- One has quarter units. -/
theorem quarters_pos : (0 : ℚ) < quarters := by
  have hPos : 0 < quarters := by decide +kernel
  exact Nat.cast_pos.mpr hPos

/- A power of ten as a quotient of whole ones. -/
theorem zpow_eq_div (power : Int) :
    (10 : ℚ) ^ power =
      (Nat.pow 10 power.toNat : Nat) /
        (Nat.pow 10 (-power).toNat : Nat) := by
  simp only [Nat.pow_eq, Nat.cast_pow, Nat.cast_ofNat]
  rcases Int.le_total 0 power with hUp | hDown
  · have hZero : (-power).toNat = 0 := by omega
    have hSelf : ((power.toNat : Nat) : Int) = power := by omega
    rw [hZero, pow_zero, div_one, ← zpow_natCast, hSelf]
  · have hZero : power.toNat = 0 := by omega
    have hSelf : (((-power).toNat : Nat) : Int) = -power := by omega
    rw [hZero, pow_zero, ← zpow_natCast (10 : ℚ) (-power).toNat,
      hSelf, zpow_neg, one_div, inv_inv]

namespace Interval

variable {i : Interval}
variable {power : Int}
variable {digits : Nat}

/- A rational number of quarter units lies in an interval. -/
def Contains
    (i : Interval)
    (q : ℚ) : Prop :=
  if i.closed then
    (i.low : ℚ) ≤ q ∧ q ≤ i.high
  else
    (i.low : ℚ) < q ∧ q < i.high

/- A quotient lies in an interval as a rational number. -/
theorem holds_iff
    {num den : Nat}
    (hDen : 0 < den) :
    i.holds num den = true ↔ i.Contains (num / den) := by
  have hPos : (0 : ℚ) < den := Nat.cast_pos.mpr hDen
  unfold holds Contains
  split
  · rw [Bool.and_eq_true, decide_eq_true_eq, decide_eq_true_eq,
      le_div_iff₀ hPos, div_le_iff₀ hPos]
    norm_cast
  · rw [Bool.and_eq_true, decide_eq_true_eq, decide_eq_true_eq,
      lt_div_iff₀ hPos, div_lt_iff₀ hPos]
    norm_cast

/- A rational number in an interval is not beyond its ends. -/
theorem Contains.bounds
    {q : ℚ}
    (h : i.Contains q) :
    (i.low : ℚ) ≤ q ∧ q ≤ i.high := by
  unfold Contains at h
  split at h
  · exact h
  · exact ⟨h.1.le, h.2.le⟩

/- Digits on a grid as a rational number of quarter units. -/
theorem grid_eq_div (digits : Nat) (power : Int) :
    (digits : ℚ) * 10 ^ power * quarters =
      ((digits *
          (Nat.pow 10 power.toNat * quarters) : Nat) : ℚ) /
        (Nat.pow 10 (-power).toNat : Nat) := by
  rw [zpow_eq_div, Nat.cast_mul, Nat.cast_mul]
  ring

/- A point that is found on a grid lies in the interval. -/
theorem contains_of_gridPoint?
    (h : i.gridPoint? power = some digits) :
    i.Contains ((digits : ℚ) * 10 ^ power * quarters) := by
  have hDown : 0 < Nat.pow 10 (-power).toNat :=
    Nat.pow_pos (by decide)
  rw [grid_eq_div, ← holds_iff hDown]
  unfold quarters
  unfold gridPoint? at h
  dsimp only at h
  split at h
  · next hBelow hAbove =>
      split at h
      · cases h
        exact hBelow
      · cases h
        exact hAbove
  · next hBelow _ =>
      cases h
      exact hBelow
  · next _ hAbove =>
      cases h
      exact hAbove
  · cases h

/- A quotient between the ends of an interval lies in it. -/
theorem holds_of_lt
    {num den : Nat}
    (hLow : i.low * den < num)
    (hHigh : num < i.high * den) :
    i.holds num den = true := by
  unfold holds
  split
  · rw [Bool.and_eq_true, decide_eq_true_eq, decide_eq_true_eq]
    omega
  · rw [Bool.and_eq_true, decide_eq_true_eq, decide_eq_true_eq]
    omega

/- A grid has a point for an interval, if one of two lies in it. -/
theorem exists_gridPoint?_of_holds
    {down up point : Nat}
    (hDown : Nat.pow 10 (-power).toNat = down)
    (hUp : Nat.pow 10 power.toNat * quarters = up)
    (hPoint : i.center * down / up = point)
    (h :
      i.holds (point * up) down = true ∨
        i.holds ((point + 1) * up) down = true) :
    ∃ digits, i.gridPoint? power = some digits := by
  unfold quarters at hUp
  unfold gridPoint?
  dsimp only
  rw [hDown, hUp, hPoint]
  split
  · split
    · exact ⟨_, rfl⟩
    · exact ⟨_, rfl⟩
  · exact ⟨_, rfl⟩
  · exact ⟨_, rfl⟩
  · next hBelow hAbove =>
      rw [hBelow, hAbove] at h
      simp at h

/- An interval is wider than the steps of a narrower grid. -/
theorem steps_lt
    (hNarrow :
      (10 : ℚ) ^ power * quarters < (i.high : ℚ) - i.low) :
    Nat.pow 10 power.toNat * quarters +
        i.low * Nat.pow 10 (-power).toNat <
      i.high * Nat.pow 10 (-power).toNat := by
  have hCast : (0 : ℚ) < (Nat.pow 10 (-power).toNat : Nat) :=
    Nat.cast_pos.mpr (Nat.pow_pos (by decide))
  rw [zpow_eq_div, div_mul_eq_mul_div, div_lt_iff₀ hCast]
    at hNarrow
  have hSum :
      ((Nat.pow 10 power.toNat * quarters +
          i.low * Nat.pow 10 (-power).toNat : Nat) : ℚ) <
        (i.high * Nat.pow 10 (-power).toNat : Nat) := by
    rw [Nat.cast_add, Nat.cast_mul, Nat.cast_mul, Nat.cast_mul]
    linarith
  exact Nat.cast_lt.mp hSum

/-
  A grid that is narrower than an interval has a point in it
  next to the center.
-/
theorem exists_gridPoint?
    (hLow : i.low < i.center)
    (hHigh : i.center < i.high)
    (hNarrow :
      (10 : ℚ) ^ power * quarters < (i.high : ℚ) - i.low) :
    ∃ digits, i.gridPoint? power = some digits := by
  have hDown : 0 < Nat.pow 10 (-power).toNat :=
    Nat.pow_pos (by decide)
  have hUp : 0 < Nat.pow 10 power.toNat * quarters := by
    have hQuarters : 0 < quarters := Nat.cast_pos.mp quarters_pos
    exact Nat.mul_pos (Nat.pow_pos (by decide)) hQuarters
  have hWide := steps_lt hNarrow
  refine exists_gridPoint?_of_holds rfl rfl rfl ?_
  generalize Nat.pow 10 (-power).toNat = down at hDown hWide ⊢
  generalize Nat.pow 10 power.toNat * quarters = up
    at hUp hWide ⊢
  have hSplit := Nat.div_add_mod' (i.center * down) up
  have hRest := Nat.mod_lt (i.center * down) hUp
  generalize i.center * down / up = point at hSplit ⊢
  generalize i.center * down % up = rest at hSplit hRest
  have hNext : (point + 1) * up = point * up + up := by ring
  have hFrom : i.low * down < i.center * down :=
    Nat.mul_lt_mul_of_pos_right hLow hDown
  have hTo : i.center * down < i.high * down :=
    Nat.mul_lt_mul_of_pos_right hHigh hDown
  -- if the point below is too low, the one above is in
  by_cases hBelow : i.low * down < point * up
  · exact .inl (holds_of_lt hBelow (by omega))
  · exact .inr (holds_of_lt (by omega) (by omega))

/-
  Trying grids downwards stops at a point, if one of them has
  any.
-/
theorem gridPoint?_firstPoint
    {fuel k : Nat}
    (hFuel : k < fuel)
    (h : ∃ digits, i.gridPoint? (power - k) = some digits) :
    i.gridPoint? (i.firstPoint fuel power).2 =
      some (i.firstPoint fuel power).1 := by
  induction fuel generalizing power k with
  | zero => omega
  | succ fuel ih =>
      unfold firstPoint
      cases hPoint : i.gridPoint? power with
      | some digits => exact hPoint
      | none =>
          cases k with
          | zero =>
              rcases h with ⟨digits, hDigits⟩
              have hSame : power - (0 : Nat) = power := by omega
              rw [hSame, hPoint] at hDigits
              cases hDigits
          | succ k =>
              have hLater : power - (k + 1 : Nat) =
                  power - 1 - k := by
                omega
              rw [hLater] at h
              exact ih (by omega) h

end Interval

------------------------------------------------------------
-- Counts of digits
------------------------------------------------------------

/- A number is below the power of ten with its count of digits. -/
theorem lt_pow_digitCount (n : Nat) :
    n < 10 ^ digitCount n := by
  have hSome : 0 < digitCount n :=
    List.length_pos_of_ne_nil Nat.toDigits_ne_nil
  exact (Nat.length_toDigits_le_iff (by decide) hSome).mp le_rfl

/- A positive number reaches the power of ten of its first digit. -/
theorem pow_digitCount_le
    {n : Nat}
    (h : 0 < n) :
    10 ^ (digitCount n - 1) ≤ n := by
  by_contra hLess
  have hLess : n < 10 ^ (digitCount n - 1) := by omega
  by_cases hOne : digitCount n - 1 = 0
  · rw [hOne] at hLess
    omega
  · have hCount : digitCount n ≤ digitCount n - 1 :=
      (Nat.length_toDigits_le_iff (by decide) (by omega)).mpr
        hLess
    omega

/- A positive ratio reaches the power of ten of its first digit. -/
theorem pow_decimalExponent_le
    {num den : Nat}
    (hNum : 0 < num)
    (hDen : 0 < den) :
    (10 : ℚ) ^ decimalExponent num den * den ≤ num := by
  unfold decimalExponent
  split
  · next hWhole =>
      have hQuotient : 0 < num / den :=
        Nat.div_pos hWhole hDen
      have hPower := pow_digitCount_le hQuotient
      have hCount : 0 < digitCount (num / den) :=
        List.length_pos_of_ne_nil Nat.toDigits_ne_nil
      have hLess : 10 ^ (digitCount (num / den) - 1) * den ≤ num :=
        le_trans (Nat.mul_le_mul_right den hPower)
          (Nat.div_mul_le_self num den)
      have hSame : (digitCount (num / den) : Int) - 1 =
          (digitCount (num / den) - 1 : Nat) := by
        omega
      rw [hSame, zpow_natCast]
      exact_mod_cast hLess
  · have hPower :=
      lt_pow_digitCount ((den + num - 1) / num - 1)
    have hCeiling : den ≤ num * ((den + num - 1) / num) := by
      have hSplit := Nat.div_add_mod (den + num - 1) num
      have hRest := Nat.mod_lt (den + num - 1) hNum
      omega
    have hLess :
        den ≤
          num * 10 ^ digitCount ((den + num - 1) / num - 1) :=
      le_trans hCeiling (Nat.mul_le_mul_left num (by omega))
    rw [zpow_neg, zpow_natCast, inv_mul_le_iff₀ (by positivity)]
    have hCast :
        (den : ℚ) ≤
          num * 10 ^ digitCount ((den + num - 1) / num - 1) := by
      exact_mod_cast hLess
    linarith

------------------------------------------------------------
-- Shortest digits
------------------------------------------------------------

section Shortest

variable {x : Binary64}

/- The interval of a number is around it. -/
theorem interval_around (h : 0 < x.significand) :
    x.interval.low < x.interval.center ∧
      x.interval.center < x.interval.high := by
  have hUnit : 0 < Nat.pow 2 x.scale := Nat.two_pow_pos x.scale
  unfold interval
  dsimp only
  constructor
  · refine Nat.mul_lt_mul_of_pos_right ?_ hUnit
    split <;> omega
  · exact Nat.mul_lt_mul_of_pos_right (by omega) hUnit

/-
  The interval of a number is wider than the number divided by
  the sixteenth power of ten.
-/
theorem interval_wide (h : 0 < x.significand) :
    (x.interval.center : ℚ) <
      ((x.interval.high : ℚ) - x.interval.low) * 10 ^ 16 := by
  have hUnit : (0 : ℚ) < (Nat.pow 2 x.scale : Nat) :=
    Nat.cast_pos.mpr (Nat.two_pow_pos x.scale)
  have hSize := significand_lt x
  have hWide :
      4 * x.significand <
        ((if x.fraction = 0 ∧ 1 < x.exponent then 1 else 2) +
          2) * 10 ^ 16 := by
    split
    · next hLeast =>
        have hFirst : x.significand = 2 ^ 52 := by
          unfold significand
          rw [hLeast.1, if_neg (by omega)]
          rfl
        omega
    · omega
  have hBelow :
      (if x.fraction = 0 ∧ 1 < x.exponent then 1 else 2) ≤
        4 * x.significand := by
    split <;> omega
  unfold interval
  dsimp only
  generalize
    (if x.fraction = 0 ∧ 1 < x.exponent then 1 else 2) = below
    at hWide hBelow ⊢
  generalize Nat.pow 2 x.scale = unit at hUnit ⊢
  have hCast :
      (4 : ℚ) * x.significand < ((below : ℚ) + 2) * 10 ^ 16 := by
    exact_mod_cast hWide
  rw [Nat.cast_mul, Nat.cast_mul, Nat.cast_mul, Nat.cast_mul,
    Nat.cast_sub hBelow, Nat.cast_add, Nat.cast_mul]
  have hProduct := mul_lt_mul_of_pos_right hCast hUnit
  simp only [Nat.cast_ofNat]
  linarith

/- The shortest digits of a number lie in its interval. -/
theorem contains_shortest (h : 0 < x.significand) :
    x.interval.Contains
      ((x.shortest.1 : ℚ) * 10 ^ x.shortest.2 * quarters) := by
  apply Interval.contains_of_gridPoint?
  rcases interval_around h with ⟨hLow, hHigh⟩
  have hQuarters : 0 < quarters := Nat.cast_pos.mp quarters_pos
  have hPower :=
    pow_decimalExponent_le (Nat.zero_lt_of_lt hLow) hQuarters
  have hWide := interval_wide h
  unfold shortest
  unfold quarters at hPower
  refine Interval.gridPoint?_firstPoint (k := 16) (by decide) ?_
  refine Interval.exists_gridPoint? hLow hHigh ?_
  unfold quarters
  generalize
    decimalExponent x.interval.center (Nat.pow 2 1076) = power
    at hPower ⊢
  have hTen : (10 : ℚ) ≠ 0 := by norm_num
  rw [zpow_sub₀ hTen, zpow_natCast, div_mul_eq_mul_div,
    div_lt_iff₀ (by positivity)]
  exact lt_of_le_of_lt hPower hWide

end Shortest

end Binary64

end RelationalRest
