import Mathlib.Tactic.Linarith
import Mathlib.Tactic.Ring
import RelationalRest.Binary64.Shortest

/-
  A ratio in the interval of a finite number is rounded to
  that number: within the scale of the number, at its ends if
  the significand is even, and on the finer side of a power of
  two as well.

  Main declarations:
    * `Binary64.magnitude_eq`
    * `Binary64.roundDiv_eq`
    * `Binary64.nearestBits_eq`
    * `Binary64.ofRatio_eq`
-/

namespace RelationalRest

namespace Binary64

------------------------------------------------------------
-- Parts of a number
------------------------------------------------------------

section Parts

variable {x : Binary64}

/- The bits of a number without its sign. -/
def magnitude (x : Binary64) : Nat :=
  x.bits.toNat % Nat.pow 2 63

/- The significand and the scale give the bits without sign. -/
theorem magnitude_eq (x : Binary64) :
    x.magnitude = x.scale * Nat.pow 2 52 + x.significand := by
  unfold magnitude scale significand exponent fraction
  simp only [Nat.pow_eq]
  split <;> omega

/- A significand has 53 bits at most. -/
theorem significand_lt (x : Binary64) :
    x.significand < 2 ^ 53 := by
  unfold significand fraction
  simp only [Nat.pow_eq]
  split <;> omega

/- The significand of a scaled number has 53 bits. -/
theorem significand_of_scale (h : x.scale ≠ 0) :
    2 ^ 52 ≤ x.significand := by
  unfold scale at h
  unfold significand fraction
  simp only [Nat.pow_eq]
  split <;> omega

/- Below a scaled number whose significand is least, the grid is finer. -/
theorem fraction_of_significand
    (hScale : x.scale ≠ 0)
    (h : x.significand = 2 ^ 52) :
    x.fraction = 0 ∧ 1 < x.exponent := by
  unfold scale at hScale
  unfold significand at h
  simp only [Nat.pow_eq] at h
  split at h <;> omega

/- The bits of a finite number stay below those of infinity. -/
theorem magnitude_lt (h : x.isFinite = true) :
    x.magnitude < 2047 * Nat.pow 2 52 := by
  unfold isFinite exponent at h
  unfold magnitude
  simp only [Nat.pow_eq, decide_eq_true_eq] at *
  omega

/- The scale of a finite number. -/
theorem scale_lt (h : x.isFinite = true) :
    x.scale < 2046 := by
  unfold isFinite at h
  unfold scale
  simp only [decide_eq_true_eq] at h
  omega

/- A number is made of its sign and its other bits. -/
theorem eq_of_magnitude
    (x : Binary64) :
    (⟨UInt64.ofNat
        ((if x.negative then Nat.pow 2 63 else 0) +
          x.magnitude)⟩ : Binary64) = x := by
  have hSize : x.bits.toNat < 2 ^ 64 := x.bits.toNat_lt
  have hBits :
      (if x.negative then Nat.pow 2 63 else 0) + x.magnitude =
        x.bits.toNat := by
    unfold negative magnitude
    simp only [Nat.pow_eq, decide_eq_true_eq]
    split <;> omega
  rw [hBits, UInt64.ofNat_toNat]

end Parts

------------------------------------------------------------
-- Quotients
------------------------------------------------------------

/-
  A quotient within half of one unit around a number is rounded
  to this number; the two ends count if the number is even.
-/
theorem roundDiv_eq
    {num den m : Nat}
    (hDen : 0 < den)
    (hLow : (4 * m - 2) * den ≤ 4 * num)
    (hHigh : 4 * num ≤ (4 * m + 2) * den)
    (hOdd :
      m % 2 = 1 →
        (4 * m - 2) * den < 4 * num ∧
          4 * num < (4 * m + 2) * den) :
    roundDiv num den = m := by
  have hSplit : num / den * den + num % den = num :=
    Nat.div_add_mod' num den
  have hRest : num % den < den := Nat.mod_lt num hDen
  unfold roundDiv
  dsimp only
  generalize num / den = q at hSplit ⊢
  generalize num % den = rest at hSplit hRest ⊢
  have hTop : q ≤ m := by
    have hLe : 4 * q * den ≤ (4 * m + 2) * den := by linarith
    have := Nat.le_of_mul_le_mul_right hLe hDen
    omega
  have hBottom : m ≤ q + 1 := by
    have hLt : (4 * m - 2) * den < (4 * q + 4) * den := by
      linarith
    have := Nat.lt_of_mul_lt_mul_right hLt
    omega
  rcases Nat.lt_or_ge q m with hLess | hSame
  · -- the quotient is the number below, so it is rounded up
    have hNext : m = q + 1 := by omega
    subst hNext
    have hSub : 4 * (q + 1) - 2 = 4 * q + 2 := by omega
    rw [hSub] at hLow hOdd
    have hHalf : den ≤ 2 * rest := by linarith
    rcases Nat.lt_or_ge den (2 * rest) with hMore | hTie
    · rw [if_pos (.inl hMore)]
    · have hEven : q % 2 = 1 := by
        by_contra hq
        have := (hOdd (by omega)).1
        linarith
      rw [if_pos (.inr ⟨by omega, hEven⟩)]
  · have hNumber : q = m := by omega
    subst hNumber
    have hHalf : 2 * rest ≤ den := by linarith
    refine if_neg ?_
    rintro (hMore | ⟨hTie, hq⟩)
    · omega
    · have := (hOdd hq).2
      linarith

------------------------------------------------------------
-- Ratios in an interval
------------------------------------------------------------

section Nearest

variable {x : Binary64}
variable {num den : Nat}

/- A unit is four quarter units. -/
theorem quarter_units (num : Nat) :
    num * Nat.pow 2 1076 = 4 * (num * Nat.pow 2 1074) := by
  have hPow : Nat.pow 2 1076 = 4 * Nat.pow 2 1074 := by
    decide +kernel
  calc
    num * Nat.pow 2 1076 = num * (4 * Nat.pow 2 1074) :=
      congrArg (num * ·) hPow
    _ = 4 * (num * Nat.pow 2 1074) :=
      Nat.mul_left_comm num 4 (Nat.pow 2 1074)

/-
  A ratio in quarter units that lies in the interval of a
  number, by the significand and the scale of the number.
-/
theorem bounds_of_holds
    (h : x.interval.holds (num * Nat.pow 2 1076) den = true) :
    ∃ below, (below = 1 ∨ below = 2) ∧
      (x.scale ≠ 0 → x.significand = 2 ^ 52 → below = 1) ∧
      (4 * x.significand - below) * (den * 2 ^ x.scale) ≤
          4 * (num * Nat.pow 2 1074) ∧
      4 * (num * Nat.pow 2 1074) ≤
          (4 * x.significand + 2) * (den * 2 ^ x.scale) ∧
      (x.significand % 2 = 1 →
        (4 * x.significand - below) * (den * 2 ^ x.scale) <
            4 * (num * Nat.pow 2 1074) ∧
          4 * (num * Nat.pow 2 1074) <
            (4 * x.significand + 2) * (den * 2 ^ x.scale)) := by
  rw [quarter_units] at h
  generalize num * Nat.pow 2 1074 = whole at h ⊢
  refine
    ⟨if x.fraction = 0 ∧ 1 < x.exponent then 1 else 2, ?_, ?_, ?_⟩
  · split
    · exact .inl rfl
    · exact .inr rfl
  · intro hScale hLeast
    exact if_pos (fraction_of_significand hScale hLeast)
  unfold interval Interval.holds at h
  dsimp only at h
  generalize
    (if x.fraction = 0 ∧ 1 < x.exponent then 1 else 2) = below
    at h ⊢
  have hSwap :
      ∀ n, n * Nat.pow 2 x.scale * den = n * (den * 2 ^ x.scale) := by
    intro n
    simp only [Nat.pow_eq]
    ring
  rw [hSwap, hSwap] at h
  split at h
  · next hEven =>
      simp only [Bool.and_eq_true, decide_eq_true_eq] at h hEven
      exact ⟨h.1, h.2, fun hOdd => by omega⟩
  · simp only [Bool.and_eq_true, decide_eq_true_eq] at h
    exact ⟨h.1.le, h.2.le, fun _ => h⟩

/- The scale at which a ratio is rounded. -/
theorem log2_sub_eq
    {q s : Nat}
    (hHigh : q < 2 ^ (53 + s))
    (hLow : s ≠ 0 → 2 ^ (52 + s) ≤ q) :
    q.log2 - 52 = s := by
  by_cases hq : q = 0
  · subst hq
    by_contra hs
    have hScale : s ≠ 0 := by
      rintro rfl
      exact hs (by simp)
    have := hLow hScale
    have := Nat.two_pow_pos (52 + s)
    omega
  have hTop := (Nat.log2_lt hq).mpr hHigh
  by_cases hs : s = 0
  · omega
  · have hBottom := (Nat.le_log2 hq).mpr (hLow hs)
    omega

/-
  The scale of a ratio that is not below the significand of 53
  bits is the scale of the number.
-/
theorem scale_of_bounds
    {whole s : Nat}
    (hDen : 0 < den)
    (hHigh : whole < 2 ^ 53 * (den * 2 ^ s))
    (hLow : s ≠ 0 → 2 ^ 52 * (den * 2 ^ s) ≤ whole) :
    (whole / den).log2 - 52 = s := by
  refine log2_sub_eq ?_ ?_
  · rw [Nat.div_lt_iff_lt_mul hDen]
    have hTop : 2 ^ (53 + s) * den = 2 ^ 53 * (den * 2 ^ s) := by
      ring
    rw [hTop]
    exact hHigh
  · intro hs
    have hBottom : 2 ^ (52 + s) * den = 2 ^ 52 * (den * 2 ^ s) := by
      ring
    rw [Nat.le_div_iff_mul_le hDen, hBottom]
    exact hLow hs

/-
  A ratio just below a power of two is rounded up to it at the
  finer scale that belongs to it.
-/
theorem roundDiv_below
    {whole s : Nat}
    (hDen : 0 < den)
    (hLow : (4 * 2 ^ 52 - 1) * (den * 2 ^ (s + 1)) ≤ 4 * whole)
    (hHigh : whole < 2 ^ 52 * (den * 2 ^ (s + 1))) :
    (whole / den).log2 - 52 = s ∧
      roundDiv whole (den * 2 ^ s) = 2 ^ 53 := by
  have hUnit : 0 < den * 2 ^ s :=
    Nat.mul_pos hDen (Nat.two_pow_pos s)
  have hDouble : den * 2 ^ (s + 1) = 2 * (den * 2 ^ s) := by
    ring
  rw [hDouble] at hLow hHigh
  constructor
  · refine scale_of_bounds hDen ?_ ?_
    · generalize den * 2 ^ s = unit at hLow hHigh ⊢
      omega
    · intro _
      generalize den * 2 ^ s = unit at hLow hHigh ⊢
      omega
  · refine roundDiv_eq hUnit ?_ ?_ (fun hOdd => by omega)
    · generalize den * 2 ^ s = unit at hLow hHigh ⊢
      omega
    · generalize den * 2 ^ s = unit at hLow hHigh ⊢
      omega

/-
  A ratio in the interval of a number is rounded to the bits of
  this number.
-/
theorem nearestBits_eq
    (hFinite : x.isFinite = true)
    (hDen : 0 < den)
    (h : x.interval.holds (num * Nat.pow 2 1076) den = true) :
    nearestBits num den = x.magnitude := by
  rcases bounds_of_holds h with
    ⟨below, hBelow, hLeast, hLow, hHigh, hOdd⟩
  have hLimit := magnitude_lt hFinite
  have hSize := significand_lt x
  have hScaled := significand_of_scale (x := x)
  rw [magnitude_eq] at hLimit ⊢
  unfold nearestBits
  dsimp only
  generalize num * Nat.pow 2 1074 = whole at hLow hHigh hOdd ⊢
  generalize x.significand = m at *
  generalize x.scale = s at *
  simp only [Nat.pow_eq] at hLimit ⊢
  have hUnit : 0 < den * 2 ^ s :=
    Nat.mul_pos hDen (Nat.two_pow_pos s)
  by_cases hFine : s ≠ 0 ∧ whole < 2 ^ 52 * (den * 2 ^ s)
  · -- only the least significand reaches below its power of two
    rcases hFine with ⟨hScale, hUnder⟩
    have hFirst : m = 2 ^ 52 := by
      have hNear : (4 * m - below) * (den * 2 ^ s) <
          4 * 2 ^ 52 * (den * 2 ^ s) := by
        omega
      have := Nat.lt_of_mul_lt_mul_right hNear
      have := hScaled hScale
      omega
    have hQuarter := hLeast hScale hFirst
    subst hFirst hQuarter
    obtain ⟨s, rfl⟩ := Nat.exists_eq_succ_of_ne_zero hScale
    rcases roundDiv_below hDen hLow hUnder with ⟨hLog, hRound⟩
    rw [hLog, hRound]
    omega
  · have hTop : (4 * m + 2) * (den * 2 ^ s) ≤
        (4 * 2 ^ 53 - 2) * (den * 2 ^ s) :=
      Nat.mul_le_mul_right _ (by omega)
    have hLog : (whole / den).log2 - 52 = s := by
      refine scale_of_bounds hDen (by omega) fun hs => ?_
      by_contra hUnder
      exact hFine ⟨hs, by omega⟩
    have hWide : (4 * m - 2) * (den * 2 ^ s) ≤
        (4 * m - below) * (den * 2 ^ s) :=
      Nat.mul_le_mul_right _ (by omega)
    have hRound := roundDiv_eq hUnit (by omega) hHigh fun hm =>
      ⟨lt_of_le_of_lt hWide (hOdd hm).1, (hOdd hm).2⟩
    rw [hLog, hRound]
    exact Nat.min_eq_left hLimit.le

/- A ratio in the interval of a number becomes this number. -/
theorem ofRatio_eq
    (hFinite : x.isFinite = true)
    (hDen : 0 < den)
    (h : x.interval.holds (num * Nat.pow 2 1076) den = true) :
    ofRatio x.negative num den = x := by
  rw [ofRatio, nearestBits_eq hFinite hDen h]
  exact eq_of_magnitude x

end Nearest

end Binary64

end RelationalRest
