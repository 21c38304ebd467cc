import RelationalRest.Binary64.Decimal
import RelationalRest.Proofs.Binary64.Shortest
import RelationalRest.Proofs.Text.Numeral

/-
  Decimals as rational numbers: how they are read from their
  parts, and that one in the interval of a finite number is
  nearest to this number.

  Key definitions include:
    * `Decimal.value`

  Main declarations:
    * `Decimal.readUnsigned?_point`
    * `Decimal.readUnsigned?_whole`
    * `Decimal.nearest_eq`
    * `Binary64.finite?_toDigits`
-/

namespace RelationalRest

open Binary64

namespace Decimal

------------------------------------------------------------
-- Reading
------------------------------------------------------------

section Reading

variable {whole part rest : List Char}
variable {e : Int}

/- What is asked of the character that follows, at the end. -/
theorem nothing_follows_nil (P : Char → Prop) :
    ∀ c ∈ ([] : List Char).head?, P c := by
  simp

/- Digits with a point among them are read as one number. -/
theorem readUnsigned?_point
    (negative : Bool)
    (hWhole : ∀ c ∈ whole, c.isDigit = true)
    (hPart : ∀ c ∈ part, c.isDigit = true)
    (hRest : ∀ c ∈ rest.head?, c.isDigit = false)
    (hSome : part ≠ [])
    (hExponent : exponent? rest = some e) :
    readUnsigned? negative (whole ++ '.' :: (part ++ rest)) =
      some
        { negative
          digits := Text.digitsValue (whole ++ part)
          exponent := e - part.length } := by
  have hPoint : ∀ c ∈ ('.' :: (part ++ rest)).head?,
      c.isDigit = false := by
    simp
  rcases Text.split_digits hWhole hPoint with ⟨hTake, hDrop⟩
  rcases Text.split_digits hPart hRest with ⟨hTakePart, hDropPart⟩
  unfold readUnsigned?
  simp only [hTake, hDrop, hTakePart, hDropPart, hExponent,
    Option.map_some]
  exact if_neg fun h => hSome h.2

/- Digits without a point are read as a whole number. -/
theorem readUnsigned?_whole
    (negative : Bool)
    (hWhole : ∀ c ∈ whole, c.isDigit = true)
    (hRest : ∀ c ∈ rest.head?, c.isDigit = false ∧ c ≠ '.')
    (hSome : whole ≠ [])
    (hExponent : exponent? rest = some e) :
    readUnsigned? negative (whole ++ rest) =
      some
        { negative
          digits := Text.digitsValue whole
          exponent := e } := by
  rcases Text.split_digits hWhole fun c hc => (hRest c hc).1 with
    ⟨hTake, hDrop⟩
  unfold readUnsigned?
  cases rest with
  | nil =>
      rw [List.append_nil] at hTake hDrop ⊢
      simp [hTake, hDrop, hSome, hExponent]
  | cons c rest =>
      have hPoint : c ≠ '.' := (hRest c (by simp)).2
      simp [hTake, hDrop, hSome, hExponent, hPoint]

/- A text that begins with a digit has no sign. -/
theorem read?_of_isDigit
    {c : Char}
    (h : c.isDigit = true)
    (rest : List Char) :
    read? (c :: rest) = readUnsigned? false (c :: rest) := by
  unfold read?
  split
  · next hEq =>
      cases hEq
      cases h
  · next hEq =>
      cases hEq
      cases h
  · rfl

end Reading

------------------------------------------------------------
-- Values
------------------------------------------------------------

variable {d : Decimal}
variable {x : Binary64}

/- The rational number that a decimal is, without its sign. -/
def value (d : Decimal) : ℚ :=
  d.digits * 10 ^ d.exponent

/- A power of ten as a rational number. -/
theorem cast_pow_ten (n : Nat) :
    ((Nat.pow 10 n : Nat) : ℚ) = 10 ^ (n : Int) := by
  rw [Nat.pow_eq, Nat.cast_pow, zpow_natCast, Nat.cast_ofNat]

/- A decimal is below the power of ten above its first digit. -/
theorem value_lt (d : Decimal) :
    d.value < 10 ^ (d.exponent + digitCount d.digits) := by
  have hLess := lt_pow_digitCount d.digits
  have hCast : (d.digits : ℚ) < 10 ^ digitCount d.digits := by
    exact_mod_cast hLess
  have hPower : (0 : ℚ) < 10 ^ d.exponent := by positivity
  rw [value, zpow_add₀ (by norm_num), zpow_natCast, mul_comm]
  exact mul_lt_mul_of_pos_left hCast hPower

/- A decimal reaches the power of ten of its first digit. -/
theorem le_value (h : 0 < d.digits) :
    10 ^ (d.exponent + digitCount d.digits - 1) ≤ d.value := by
  have hReach := pow_digitCount_le h
  have hSome : 0 < digitCount d.digits :=
    List.length_pos_of_ne_nil Nat.toDigits_ne_nil
  have hCast :
      (10 : ℚ) ^ (digitCount d.digits - 1) ≤ d.digits := by
    exact_mod_cast hReach
  have hPower : (0 : ℚ) < 10 ^ d.exponent := by positivity
  have hSum : d.exponent + digitCount d.digits - 1 =
      d.exponent + (digitCount d.digits - 1 : Nat) := by
    omega
  rw [value, hSum, zpow_add₀ (by norm_num), zpow_natCast, mul_comm]
  exact mul_le_mul_of_nonneg_right hCast hPower.le

/- A decimal that is not too small has a bounded exponent. -/
theorem neg_lt_of_le
    {n : Nat}
    (hSmall : quarters < Nat.pow 10 n)
    (h : 1 ≤ d.value * quarters) :
    -(n : Int) < d.exponent + digitCount d.digits := by
  by_contra hLess
  have hLess : d.exponent + digitCount d.digits ≤ -(n : Int) := by
    omega
  have hPower :=
    zpow_le_zpow_right₀ (by norm_num : (1 : ℚ) ≤ 10) hLess
  have hSmall : (quarters : ℚ) < 10 ^ (n : Int) := by
    rw [← cast_pow_ten]
    exact Nat.cast_lt.mpr hSmall
  have hValue := value_lt d
  have hQuarters := quarters_pos
  have hOne : (10 : ℚ) ^ (-(n : Int)) * 10 ^ (n : Int) = 1 := by
    rw [← zpow_add₀ (by norm_num)]
    simp
  have hInverse : (0 : ℚ) < 10 ^ (-(n : Int)) := by positivity
  nlinarith

/- A decimal that is not too large has a bounded exponent. -/
theorem le_of_le
    {n top : Nat}
    (hLarge : top < Nat.pow 10 n * quarters)
    (hSome : 0 < d.digits)
    (h : d.value * quarters ≤ top) :
    d.exponent + digitCount d.digits ≤ n := by
  by_contra hMore
  have hMore :
      (n : Int) ≤ d.exponent + digitCount d.digits - 1 := by
    omega
  have hPower :=
    zpow_le_zpow_right₀ (by norm_num : (1 : ℚ) ≤ 10) hMore
  have hLarge : (top : ℚ) < 10 ^ (n : Int) * quarters := by
    rw [← cast_pow_ten, ← Nat.cast_mul]
    exact Nat.cast_lt.mpr hLarge
  have hValue := le_value hSome
  have hProduct :=
    mul_le_mul_of_nonneg_right (le_trans hPower hValue)
      quarters_pos.le
  linarith

------------------------------------------------------------
-- Nearest numbers
------------------------------------------------------------

/- The ends of an interval by a power of two. -/
theorem high_lt
    {n : Nat}
    (h : 55 + x.scale ≤ n) :
    x.interval.high < Nat.pow 2 n := by
  have hSize := significand_lt x
  have hUnit : 0 < Nat.pow 2 x.scale := Nat.two_pow_pos x.scale
  have hTop : (4 * x.significand + 2) * Nat.pow 2 x.scale <
      2 ^ 55 * Nat.pow 2 x.scale :=
    Nat.mul_lt_mul_of_pos_right (by omega) hUnit
  have hSum : 2 ^ 55 * Nat.pow 2 x.scale = 2 ^ (55 + x.scale) := by
    rw [Nat.pow_eq, ← Nat.pow_add]
  have hMore : 2 ^ (55 + x.scale) ≤ Nat.pow 2 n :=
    Nat.pow_le_pow_right (by decide) h
  unfold interval
  dsimp only
  omega

/- The lower end of an interval is not zero. -/
theorem low_pos (h : 0 < x.significand) :
    0 < x.interval.low := by
  have hUnit : 0 < Nat.pow 2 x.scale := Nat.two_pow_pos x.scale
  unfold interval
  dsimp only
  refine Nat.mul_pos ?_ hUnit
  split <;> omega

/-
  A decimal other than zero, whose size is within the bounds of
  its reading, is rounded as a quotient.
-/
theorem nearest_eq_ofRatio
    (hSome : 0 < d.digits)
    (hSmall : -400 < d.exponent + digitCount d.digits)
    (hLarge : d.exponent + digitCount d.digits ≤ 400) :
    d.nearest =
      ofRatio d.negative
        (d.digits * Nat.pow 10 d.exponent.toNat)
        (Nat.pow 10 (-d.exponent).toNat) := by
  have hWidth :
      (Nat.toDigits 10 d.digits).length = digitCount d.digits := rfl
  unfold nearest
  dsimp only
  rw [hWidth, if_neg (by omega), if_neg (by omega)]
  split
  · next hUp =>
      have hZero : (-d.exponent).toNat = 0 := by omega
      rw [hZero]
  · next hDown =>
      have hZero : d.exponent.toNat = 0 := by omega
      rw [hZero]
      simp

/-
  A decimal in the interval of a finite number is nearest to
  this number.
-/
theorem nearest_eq
    (hFinite : x.isFinite = true)
    (hSome : 0 < x.significand)
    (hSign : d.negative = x.negative)
    (h : x.interval.Contains (d.value * quarters)) :
    d.nearest = x := by
  rcases h.bounds with ⟨hLow, hHigh⟩
  have hScale := scale_lt hFinite
  have hOne : (1 : ℚ) ≤ x.interval.low :=
    Nat.one_le_cast.mpr (low_pos hSome)
  have hTop :=
    (high_lt (x := x) (n := 2101) (by omega)).trans_le
      (by decide +kernel : _ ≤ Nat.pow 10 400 * quarters)
  have hDigits : 0 < d.digits := by
    by_contra hNone
    have hZero : d.digits = 0 := by omega
    rw [value, hZero, Nat.cast_zero, zero_mul, zero_mul] at hLow
    linarith
  have hNotSmall :=
    neg_lt_of_le (n := 400) (by decide +kernel)
      (le_trans hOne hLow)
  have hNotLarge := le_of_le hTop hDigits hHigh
  rw [nearest_eq_ofRatio hDigits hNotSmall hNotLarge, hSign]
  have hDen : 0 < Nat.pow 10 (-d.exponent).toNat :=
    Nat.pow_pos (by decide)
  have hHolds :
      x.interval.holds
          (d.digits * Nat.pow 10 d.exponent.toNat * quarters)
          (Nat.pow 10 (-d.exponent).toNat) = true := by
    rwa [Interval.holds_iff hDen, Nat.mul_assoc,
      ← Interval.grid_eq_div]
  unfold quarters at hHolds
  exact ofRatio_eq hFinite hDen hHolds

end Decimal

------------------------------------------------------------
-- Whole numbers
------------------------------------------------------------

namespace Binary64

/- A rounded quotient is at most one above the quotient. -/
theorem roundDiv_le (num den : Nat) :
    roundDiv num den ≤ num / den + 1 := by
  unfold roundDiv
  dsimp only
  split <;> omega

/- The scale of a whole number in units. -/
theorem log2_units_lt
    {n : Nat}
    (h : n < 2 ^ 64)
    (k : Nat) :
    (n * Nat.pow 2 k).log2 < 64 + k := by
  by_cases hZero : n * Nat.pow 2 k = 0
  · rw [hZero, Nat.log2_zero]
    omega
  · rw [Nat.log2_lt hZero, Nat.pow_add]
    exact Nat.mul_lt_mul_of_pos_right h (Nat.two_pow_pos k)

/- A number of units that is not too large is rounded to few bits. -/
theorem rounded_lt
    {whole : Nat}
    (h : whole.log2 < 64 + 1074) :
    (whole.log2 - 52) * Nat.pow 2 52 +
        roundDiv whole (Nat.pow 2 (whole.log2 - 52)) <
      2047 * 2 ^ 52 := by
  have hTop : whole < 2 ^ 53 * Nat.pow 2 (whole.log2 - 52) := by
    have hSelf : whole < 2 ^ (whole.log2 + 1) := Nat.lt_log2_self
    rw [Nat.pow_eq, ← Nat.pow_add]
    exact lt_of_lt_of_le hSelf
      (Nat.pow_le_pow_right (by decide) (by omega))
  have hUnit : 0 < Nat.pow 2 (whole.log2 - 52) :=
    Nat.two_pow_pos _
  have hQuotient := (Nat.div_lt_iff_lt_mul hUnit).mpr hTop
  have hRound :=
    roundDiv_le whole (Nat.pow 2 (whole.log2 - 52))
  generalize roundDiv whole (Nat.pow 2 (whole.log2 - 52)) = q
    at hRound ⊢
  simp only [Nat.pow_eq] at *
  omega

/- A whole number of 64 bits is nearest to a finite number. -/
theorem nearestBits_lt
    {n : Nat}
    (h : n < 2 ^ 64) :
    nearestBits n 1 < 2047 * 2 ^ 52 := by
  unfold nearestBits
  dsimp only
  rw [Nat.div_one, Nat.one_mul]
  -- the power of units stays a variable, so it is not computed
  obtain ⟨k, hk⟩ : ∃ k, k = 1074 := ⟨1074, rfl⟩
  rw [← hk]
  have hLog := log2_units_lt h k
  exact lt_of_le_of_lt (Nat.min_le_left _ _)
    (rounded_lt (by omega))

/- A whole number of 64 bits is rounded to a finite number. -/
theorem isFinite_ofNat
    {n : Nat}
    (h : n < 2 ^ 64) :
    (ofNat n).isFinite = true := by
  have hBits := nearestBits_lt h
  have hNumber :
      (ofNat n).bits.toNat = nearestBits n 1 := by
    unfold ofNat ofRatio
    generalize nearestBits n 1 = bits at hBits ⊢
    have hSize : bits < 18446744073709551616 := by omega
    simp [hSize]
  unfold isFinite exponent
  rw [hNumber, decide_eq_true_eq]
  generalize nearestBits n 1 = bits at hBits ⊢
  simp only [Nat.pow_eq]
  omega

/-
  The digits of a whole number of 64 bits are read as the number
  nearest to it.
-/
theorem finite?_toDigits
    {n : Nat}
    (hSome : 0 < n)
    (hSize : n < 2 ^ 64) :
    finite? (Nat.toDigits 10 n) = some (ofNat n) := by
  have hDigits : ∀ c ∈ Nat.toDigits 10 n, c.isDigit = true :=
    fun _ hc => Text.isDigit_of_mem_toDigits hc
  have hRead :=
    Decimal.readUnsigned?_whole false hDigits
      (Decimal.nothing_follows_nil _) Nat.toDigits_ne_nil rfl
  rw [List.append_nil, Text.digitsValue_toDigits] at hRead
  have hSigned :
      Decimal.read? (Nat.toDigits 10 n) =
        Decimal.readUnsigned? false (Nat.toDigits 10 n) := by
    rcases Text.exists_toDigits_eq_cons n with
      ⟨c, rest, hFirst, hc⟩
    rw [hFirst]
    exact Decimal.read?_of_isDigit hc rest
  have hCount : digitCount n ≤ 20 :=
    (Nat.length_toDigits_le_iff (by decide) (by decide)).mpr
      (by omega)
  have hNearest :
      (⟨false, n, 0⟩ : Decimal).nearest = ofNat n := by
    rw [Decimal.nearest_eq_ofRatio hSome
      (by dsimp only; omega) (by dsimp only; omega)]
    simp [ofNat]
  rw [finite?, hSigned, hRead, Option.map_some, hNearest]
  simp [isFinite_ofNat hSize]

end Binary64

end RelationalRest
