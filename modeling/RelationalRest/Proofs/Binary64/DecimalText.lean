import RelationalRest.Proofs.Binary64.Decimal

/-
  The decimal text of a finite number is read back as this
  number, whichever form the text has.

  Main declarations:
    * `Binary64.readUnsigned?_layout`
    * `Binary64.digitsValue_significantDigits`
    * `Binary64.mem_decimalText`
    * `Binary64.finite?_decimalText`
-/

namespace RelationalRest

namespace Binary64

open Decimal (readUnsigned? read? exponent?)

------------------------------------------------------------
-- Forms of texts
------------------------------------------------------------

section Layout

variable {digits : List Char}
variable {negative : Bool}
variable {exponent : Int}

/- A decimal is read, and its value is that of scaled digits. -/
def Reads
    (negative : Bool)
    (cs digits : List Char)
    (power : Int) : Prop :=
  ∃ d,
    readUnsigned? negative cs = some d ∧ d.negative = negative ∧
      d.value = (Text.digitsValue digits : ℚ) * 10 ^ power

/- The digits behind a point, with zeros in front. -/
theorem reads_small
    (hDigits : ∀ c ∈ digits, c.isDigit = true)
    (hSome : digits ≠ [])
    (zeros : Nat) :
    Reads negative
      ('0' :: '.' :: List.replicate zeros '0' ++ digits) digits
      (-(zeros : Int) - digits.length) := by
  have hPart :
      ∀ c ∈ List.replicate zeros '0' ++ digits,
        c.isDigit = true := by
    intro c hc
    rcases List.mem_append.mp hc with hZero | hDigit
    · exact Text.isDigit_of_mem_zeros hZero
    · exact hDigits c hDigit
  have hZero : ∀ c ∈ ['0'], c.isDigit = true := by simp
  have hRead :=
    Decimal.readUnsigned?_point negative hZero hPart
      (Decimal.nothing_follows_nil _) (by simp [hSome]) rfl
  have hZeros :
      ['0'] ++ (List.replicate zeros '0' ++ digits) =
        List.replicate (zeros + 1) '0' ++ digits := by
    rw [List.replicate_succ]
    rfl
  have hText :
      ['0'] ++ '.' :: (List.replicate zeros '0' ++ digits ++ []) =
        '0' :: '.' :: List.replicate zeros '0' ++ digits := by
    simp
  rw [hText, hZeros] at hRead
  refine ⟨_, hRead, rfl, ?_⟩
  rw [Decimal.value, Text.digitsValue_zeros_append]
  have hLength :
      (0 : Int) - (List.replicate zeros '0' ++ digits).length =
        -(zeros : Int) - digits.length := by
    rw [List.length_append, List.length_replicate]
    omega
  rw [hLength]

/- The digits before a point, with zeros behind. -/
theorem reads_whole
    (hDigits : ∀ c ∈ digits, c.isDigit = true)
    (zeros : Nat) :
    Reads negative
      (digits ++ List.replicate zeros '0' ++ ['.', '0']) digits
      zeros := by
  have hWhole :
      ∀ c ∈ digits ++ List.replicate zeros '0',
        c.isDigit = true := by
    intro c hc
    rcases List.mem_append.mp hc with hDigit | hZero
    · exact hDigits c hDigit
    · exact Text.isDigit_of_mem_zeros hZero
  have hZero : ∀ c ∈ ['0'], c.isDigit = true := by simp
  have hRead :=
    Decimal.readUnsigned?_point negative hWhole hZero
      (Decimal.nothing_follows_nil _) (by simp) rfl
  have hZeros :
      digits ++ List.replicate zeros '0' ++ ['0'] =
        digits ++ List.replicate (zeros + 1) '0' := by
    rw [List.replicate_succ', List.append_assoc]
  rw [hZeros] at hRead
  refine ⟨_, hRead, rfl, ?_⟩
  rw [Decimal.value, Text.digitsValue_append_zeros]
  have hPower :
      (10 : ℚ) ^ ((0 : Int) - (['0'].length : Nat)) = 10⁻¹ := by
    simp
  rw [hPower, zpow_natCast, Nat.cast_mul, Nat.cast_pow,
    Nat.cast_ofNat]
  ring

/- Digits with a point among them, before an exponent. -/
theorem reads_parted
    (negative : Bool)
    (hDigits : ∀ c ∈ digits, c.isDigit = true)
    {places : Nat}
    (hPlaces : places < digits.length)
    {rest : List Char}
    (hRest : ∀ c ∈ rest.head?, c.isDigit = false)
    (hExponent : exponent? rest = some exponent) :
    Reads negative
      (digits.take places ++ '.' :: (digits.drop places ++ rest))
      digits (exponent + places - digits.length) := by
  have hPart : digits.drop places ≠ [] := by
    rw [Ne, List.drop_eq_nil_iff]
    omega
  have hWhole : ∀ c ∈ digits.take places, c.isDigit = true :=
    fun c hc => hDigits c (List.mem_of_mem_take hc)
  have hRead :=
    Decimal.readUnsigned?_point negative hWhole
      (fun c hc => hDigits c (List.mem_of_mem_drop hc)) hRest
      hPart hExponent
  rw [List.take_append_drop] at hRead
  refine ⟨_, hRead, rfl, ?_⟩
  have hPower :
      exponent - (digits.drop places).length =
        exponent + places - digits.length := by
    rw [List.length_drop]
    omega
  rw [Decimal.value, hPower]

/- An exponent with its sign is read back. -/
theorem exponent?_signed (exponent : Int) :
    exponent?
        ('e' :: (if exponent < 0 then '-' else '+') ::
          Nat.toDigits 10 exponent.natAbs) =
      some exponent := by
  rw [exponent?, if_pos (Or.inl rfl)]
  split
  · next hNegative =>
      have hSelf : -(exponent.natAbs : Int) = exponent := by omega
      generalize exponent.natAbs = n at hSelf ⊢
      simp [Text.integer?, Text.natural?_toDigits, hSelf]
  · next hPositive =>
      have hSelf : (exponent.natAbs : Int) = exponent := by omega
      generalize exponent.natAbs = n at hSelf ⊢
      simp [Text.integer?, Text.natural?_toDigits, hSelf]

/- Digits with a point behind the first one, and an exponent. -/
theorem reads_scaled
    (hDigits : ∀ c ∈ digits, c.isDigit = true)
    (hSome : digits ≠ [])
    (exponent : Int) :
    Reads negative
      (digits.take 1 ++
        (if digits.length ≤ 1 then [] else '.' :: digits.drop 1) ++
        'e' :: (if exponent < 0 then '-' else '+') ::
          Nat.toDigits 10 exponent.natAbs)
      digits (exponent + 1 - digits.length) := by
  have hExponent := exponent?_signed exponent
  generalize
    (if exponent < 0 then '-' else '+') ::
      Nat.toDigits 10 exponent.natAbs = power at hExponent ⊢
  have hLength : 0 < digits.length :=
    List.length_pos_of_ne_nil hSome
  split
  · next hOne =>
      have hWhole : digits.take 1 = digits :=
        List.take_of_length_le hOne
      have hRead :=
        Decimal.readUnsigned?_whole negative hDigits
          (by simp) hSome hExponent
      rw [hWhole, List.append_nil]
      refine ⟨_, hRead, rfl, ?_⟩
      have hSame : exponent + 1 - digits.length = exponent := by
        omega
      rw [Decimal.value, hSame]
  · next hMore =>
      have hText :
          digits.take 1 ++ '.' :: digits.drop 1 ++ 'e' :: power =
            digits.take 1 ++
              '.' :: (digits.drop 1 ++ 'e' :: power) := by
        simp
      rw [hText]
      exact reads_parted negative hDigits (by omega) (by simp)
        hExponent

/- Each form of a text writes its digits at their power of ten. -/
theorem reads_layout
    (negative : Bool)
    (hDigits : ∀ c ∈ digits, c.isDigit = true)
    (hSome : digits ≠ [])
    (exponent : Int) :
    Reads negative (layout digits exponent) digits
      (exponent + 1 - digits.length) := by
  unfold layout
  dsimp only
  split
  · next hSmall =>
      have hPower :
          -(((-exponent - 1).toNat : Nat) : Int) - digits.length =
            exponent + 1 - digits.length := by
        omega
      rw [← hPower]
      exact reads_small hDigits hSome _
  split
  · next hWhole =>
      rcases Nat.lt_or_ge (exponent.toNat + 1) digits.length with
        hPart | hAll
      · have hRest : digits.drop (exponent.toNat + 1) ≠ [] := by
          rw [Ne, List.drop_eq_nil_iff]
          omega
        have hPadding :
            exponent.toNat + 1 - digits.length = 0 := by
          omega
        have hPower :
            0 + ((exponent.toNat + 1 : Nat) : Int) -
                digits.length =
              exponent + 1 - digits.length := by
          omega
        rw [if_neg hRest, hPadding, List.replicate_zero,
          List.append_nil, ← hPower]
        have hRead :=
          reads_parted negative hDigits hPart
            (Decimal.nothing_follows_nil _) rfl
        rwa [List.append_nil] at hRead
      · have hRest : digits.drop (exponent.toNat + 1) = [] :=
          List.drop_eq_nil_of_le hAll
        have hTake : digits.take (exponent.toNat + 1) = digits :=
          List.take_of_length_le hAll
        have hPower :
            ((exponent.toNat + 1 - digits.length : Nat) : Int) =
              exponent + 1 - digits.length := by
          omega
        rw [if_pos hRest, hTake, ← hPower]
        exact reads_whole hDigits _
  · exact reads_scaled hDigits hSome exponent

/-
  What stands in a text: digits, a point, and an exponent with
  its sign.
-/
theorem mem_layout
    (hDigits : ∀ c ∈ digits, c.isDigit = true)
    {c : Char}
    (h : c ∈ layout digits exponent) :
    c.isDigit = true ∨ c ∈ ['.', 'e', '+', '-'] := by
  have hTake :
      ∀ n, c ∈ digits.take n → c.isDigit = true := fun n hc =>
    hDigits c (List.mem_of_mem_take hc)
  have hDrop :
      ∀ n, c ∈ digits.drop n → c.isDigit = true := fun n hc =>
    hDigits c (List.mem_of_mem_drop hc)
  unfold layout at h
  dsimp only at h
  split at h
  · simp only [List.cons_append, List.mem_cons,
      List.mem_append] at h
    rcases h with rfl | rfl | hZero | hDigit
    · exact .inl rfl
    · exact .inr (by simp)
    · exact .inl (Text.isDigit_of_mem_zeros hZero)
    · exact .inl (hDigits c hDigit)
  split at h
  · simp only [List.mem_append, List.mem_cons] at h
    rcases h with (hWhole | hZero) | rfl | hPart
    · exact .inl (hTake _ hWhole)
    · exact .inl (Text.isDigit_of_mem_zeros hZero)
    · exact .inr (by simp)
    · split at hPart
      · rw [List.mem_singleton.mp hPart]
        exact .inl rfl
      · exact .inl (hDrop _ hPart)
  · simp only [List.mem_append, List.mem_cons] at h
    rcases h with (hFirst | hPoint) | rfl | hSign | hPower
    · exact .inl (hTake _ hFirst)
    · split at hPoint
      · cases hPoint
      · rcases List.mem_cons.mp hPoint with rfl | hPart
        · exact .inr (by simp)
        · exact .inl (hDrop _ hPart)
    · exact .inr (by simp)
    · split at hSign
      · exact .inr (by simp [hSign])
      · exact .inr (by simp [hSign])
    · exact .inl
        (Text.isDigit_of_mem_toDigits hPower)

/- A text has a point or an exponent. -/
theorem exists_mem_layout :
    ∃ c ∈ layout digits exponent, c = '.' ∨ c = 'e' := by
  unfold layout
  dsimp only
  split
  · exact ⟨'.', by simp, .inl rfl⟩
  split
  · exact ⟨'.', by simp, .inl rfl⟩
  · exact ⟨'e', by simp, .inr rfl⟩

/- A text begins with a digit. -/
theorem exists_layout_eq_cons
    (hDigits : ∀ c ∈ digits, c.isDigit = true)
    (hSome : digits ≠ []) :
    ∃ c rest,
      layout digits exponent = c :: rest ∧ c.isDigit = true := by
  obtain ⟨c, later, rfl⟩ := List.exists_cons_of_ne_nil hSome
  have hc : c.isDigit = true := hDigits c (by simp)
  unfold layout
  dsimp only
  split
  · exact ⟨'0', _, rfl, rfl⟩
  split
  · exact ⟨c, _, rfl, hc⟩
  · exact ⟨c, _, rfl, hc⟩

end Layout

------------------------------------------------------------
-- Digits without zeros at their end
------------------------------------------------------------

/- The digits of a number with the zeros at their end apart. -/
theorem exists_significantDigits (n : Nat) :
    ∃ zeros,
      Nat.toDigits 10 n =
        significantDigits n ++ List.replicate zeros '0' := by
  have hSplit :=
    List.takeWhile_append_dropWhile (p := (· == '0'))
      (l := (Nat.toDigits 10 n).reverse)
  have hZeros :=
    List.eq_replicate_of_mem (a := '0')
      (l := (Nat.toDigits 10 n).reverse.takeWhile (· == '0'))
      fun c hc => by
        simpa using List.all_eq_true.mp List.all_takeWhile c hc
  refine
    ⟨((Nat.toDigits 10 n).reverse.takeWhile (· == '0')).length, ?_⟩
  have hReverse := congrArg List.reverse hSplit
  rw [List.reverse_append, List.reverse_reverse, hZeros,
    List.reverse_replicate] at hReverse
  rw [significantDigits]
  exact hReverse.symm

/- Digits that count are digits. -/
theorem isDigit_of_mem_significantDigits
    {n : Nat}
    {c : Char}
    (h : c ∈ significantDigits n) :
    c.isDigit = true := by
  rcases exists_significantDigits n with ⟨zeros, hSplit⟩
  have hMem : c ∈ Nat.toDigits 10 n := by
    rw [hSplit]
    exact List.mem_append_left _ h
  exact Text.isDigit_of_mem_toDigits hMem

/- The digits that count, scaled, are the number. -/
theorem digitsValue_significantDigits (n : Nat) :
    (Text.digitsValue (significantDigits n) : ℚ) *
        10 ^ ((digitCount n : Int) -
          (significantDigits n).length) =
      n := by
  rcases exists_significantDigits n with ⟨zeros, hSplit⟩
  have hValue := Text.digitsValue_toDigits n
  rw [hSplit, Text.digitsValue_append_zeros] at hValue
  have hCount :
      (digitCount n : Int) - (significantDigits n).length =
        zeros := by
    rw [digitCount, hSplit, List.length_append,
      List.length_replicate]
    omega
  have hCast :
      (10 : ℚ) ^ zeros * Text.digitsValue (significantDigits n) =
        n := by
    exact_mod_cast hValue
  rw [hCount, zpow_natCast, mul_comm, hCast]

/- A number other than zero has a digit that counts. -/
theorem significantDigits_ne_nil
    {n : Nat}
    (h : 0 < n) :
    significantDigits n ≠ [] := by
  intro hNone
  have hValue := digitsValue_significantDigits n
  have hZero : Text.digitsValue [] = 0 := rfl
  rw [hNone, hZero, Nat.cast_zero, zero_mul] at hValue
  have hPos : (0 : ℚ) < n := Nat.cast_pos.mpr h
  linarith

------------------------------------------------------------
-- Texts of numbers
------------------------------------------------------------

section Text

variable {x : Binary64}

/- A number other than zero has a significand. -/
theorem significand_pos (h : x.isZero = false) :
    0 < x.significand := by
  have hMagnitude := magnitude_eq x
  have hScaled := significand_of_scale (x := x)
  unfold isZero at h
  unfold magnitude at hMagnitude
  simp only [Nat.pow_eq, decide_eq_false_iff_not] at h hMagnitude
  by_contra hNone
  by_cases hScale : x.scale = 0
  · rw [hScale] at hMagnitude
    omega
  · have := hScaled hScale
    omega

/- The text of a zero. -/
theorem decimalText_of_isZero (h : x.isZero = true) :
    x.decimalText.toList =
      (if x.negative then ['-'] else []) ++ ['0', '.', '0'] := by
  unfold decimalText
  simp [h]

/- The text of a number other than zero. -/
theorem decimalText_of_not_isZero (h : x.isZero = false) :
    x.decimalText.toList =
      (if x.negative then ['-'] else []) ++
        layout (significantDigits x.shortest.1)
          (x.shortest.2 + (digitCount x.shortest.1 : Int) - 1) := by
  unfold decimalText
  simp [h]

/- The shortest digits are those of a number other than zero. -/
theorem shortest_pos (h : x.isZero = false) :
    0 < x.shortest.1 := by
  have hContains := contains_shortest (significand_pos h)
  have hLow := Decimal.low_pos (significand_pos h)
  by_contra hNone
  have hZero : x.shortest.1 = 0 := by omega
  have hBound := hContains.bounds.1
  rw [hZero, Nat.cast_zero, zero_mul, zero_mul] at hBound
  have hPos : (0 : ℚ) < x.interval.low := Nat.cast_pos.mpr hLow
  linarith

/-
  What stands in the text of a number: digits, a point, and an
  exponent with its sign.
-/
theorem mem_decimalText
    {c : Char}
    (h : c ∈ x.decimalText.toList) :
    c.isDigit = true ∨ c ∈ ['.', 'e', '+', '-'] := by
  have hSign :
      c ∈ (if x.negative then ['-'] else []) → c = '-' := by
    intro hc
    split at hc
    · exact List.mem_singleton.mp hc
    · cases hc
  cases hZero : x.isZero with
  | true =>
      rw [decimalText_of_isZero hZero] at h
      rcases List.mem_append.mp h with hFirst | hRest
      · exact .inr (by simp [hSign hFirst])
      · simp only [List.mem_cons, List.not_mem_nil,
          or_false] at hRest
        rcases hRest with rfl | rfl | rfl
        · exact .inl rfl
        · exact .inr (by simp)
        · exact .inl rfl
  | false =>
      rw [decimalText_of_not_isZero hZero] at h
      rcases List.mem_append.mp h with hFirst | hRest
      · exact .inr (by simp [hSign hFirst])
      · exact mem_layout
          (fun _ hc => isDigit_of_mem_significantDigits hc) hRest

/- The text of a number has a point or an exponent. -/
theorem exists_mem_decimalText (x : Binary64) :
    ∃ c ∈ x.decimalText.toList, c = '.' ∨ c = 'e' := by
  cases hZero : x.isZero with
  | true =>
      rw [decimalText_of_isZero hZero]
      exact ⟨'.', by simp, .inl rfl⟩
  | false =>
      rw [decimalText_of_not_isZero hZero]
      rcases exists_mem_layout with ⟨c, hc, hOne⟩
      exact ⟨c, List.mem_append_right _ hc, hOne⟩

/- A ratio of zero becomes the zero of a sign. -/
theorem ofRatio_zero (h : x.isZero = true) :
    ofRatio x.negative 0 1 = x := by
  have hMagnitude : x.magnitude = 0 := by
    unfold isZero at h
    simpa [magnitude] using h
  have hNearest : nearestBits 0 1 = 0 := by decide +kernel
  have hSelf := eq_of_magnitude x
  rw [hMagnitude] at hSelf
  rw [ofRatio, hNearest]
  exact hSelf

/- The text of a finite number is read back as the number. -/
theorem finite?_decimalText (hFinite : x.isFinite = true) :
    finite? x.decimalText.toList = some x := by
  suffices hRead :
      ∃ d, read? x.decimalText.toList = some d ∧ d.nearest = x by
    rcases hRead with ⟨d, hRead, hNearest⟩
    rw [finite?, hRead, Option.map_some, hNearest]
    simp [hFinite]
  cases hZero : x.isZero with
  | true =>
      refine ⟨⟨x.negative, 0, -1⟩, ?_, ?_⟩
      · rw [decimalText_of_isZero hZero]
        cases x.negative <;> rfl
      · exact ofRatio_zero hZero
  | false =>
      have hSome := significantDigits_ne_nil (shortest_pos hZero)
      have hDigits :
          ∀ c ∈ significantDigits x.shortest.1,
            c.isDigit = true := fun c hc =>
        isDigit_of_mem_significantDigits hc
      rcases reads_layout x.negative hDigits hSome
          (x.shortest.2 + (digitCount x.shortest.1 : Int) - 1) with
        ⟨d, hRead, hSign, hValue⟩
      have hText := decimalText_of_not_isZero hZero
      refine ⟨d, ?_, ?_⟩
      · rw [hText]
        cases hNegative : x.negative with
        | true =>
            rw [hNegative] at hRead
            exact hRead
        | false =>
            rw [hNegative] at hRead
            rcases exists_layout_eq_cons hDigits hSome with
              ⟨c, rest, hFirst, hc⟩
            simp only [Bool.false_eq_true, if_false,
              List.nil_append]
            rw [hFirst] at hRead ⊢
            rw [Decimal.read?_of_isDigit hc, hRead]
      · refine Decimal.nearest_eq hFinite (significand_pos hZero)
          hSign ?_
        have hScaled :
            d.value =
              (x.shortest.1 : ℚ) * 10 ^ x.shortest.2 := by
          have hPower :
              x.shortest.2 + (digitCount x.shortest.1 : Int) - 1 +
                    1 -
                  (significantDigits x.shortest.1).length =
                (digitCount x.shortest.1 : Int) -
                    (significantDigits x.shortest.1).length +
                  x.shortest.2 := by
            omega
          rw [hValue, hPower, zpow_add₀ (by norm_num), ← mul_assoc,
            digitsValue_significantDigits]
        rw [hScaled]
        exact contains_shortest (significand_pos hZero)

end Text

end Binary64

end RelationalRest
