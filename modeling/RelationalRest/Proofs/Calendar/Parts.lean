import RelationalRest.Calendar.Printer
import RelationalRest.Calendar.Reader
import RelationalRest.Proofs.Text.Numeral

/-
  How the parts of a point in time are read: numbers in a
  fixed count of digits, years with and without a sign,
  fractions of a second and dates.

  Every statement leaves open what follows the part, as long
  as it does not go on with a digit.

  Key definitions include:
    * `Calendar.Numeral`
    * `Calendar.FourDigits`
    * `Calendar.Ends`
    * `Calendar.pointed`

  Main declarations:
    * `Calendar.digits_append`
    * `Calendar.Numeral.pair_append`
    * `Calendar.Numeral.year_append`
    * `Calendar.fraction_pointed`
    * `Calendar.exists_pointed`
    * `Calendar.year_yearText`
    * `Calendar.date_chars`
-/

namespace RelationalRest

namespace Calendar

open Text (Stops split_digits stops_cons)

------------------------------------------------------------
-- Padded numbers
------------------------------------------------------------

/- A padded number is written in digits. -/
theorem isDigit_of_mem_padded
    {width n : Nat}
    {c : Char}
    (h : c ∈ padded width n) :
    c.isDigit = true := by
  unfold padded at h
  rcases List.mem_append.mp h with hZero | hDigit
  · exact Text.isDigit_of_mem_zeros hZero
  · exact Text.isDigit_of_mem_toDigits hDigit

/- Padding leaves the value alone. -/
theorem digitsValue_padded (width n : Nat) :
    Text.digitsValue (padded width n) = n := by
  unfold padded
  rw [Text.digitsValue_zeros_append, Text.digitsValue_toDigits]

/- A padded number has its width at least. -/
theorem le_length_padded (width n : Nat) :
    width ≤ (padded width n).length := by
  unfold padded
  rw [List.length_append, List.length_replicate]
  omega

/- A number that fits its width has no more digits. -/
theorem length_padded
    {width n : Nat}
    (hWidth : 0 < width)
    (h : n < 10 ^ width) :
    (padded width n).length = width := by
  have hFits : (Nat.toDigits 10 n).length ≤ width :=
    (Nat.length_toDigits_le_iff (by decide) hWidth).mpr h
  unfold padded
  rw [List.length_append, List.length_replicate]
  omega

/- A padded number begins with a digit. -/
theorem exists_padded_eq_cons (width n : Nat) :
    ∃ c rest, padded width n = c :: rest ∧ c.isDigit = true := by
  apply Text.exists_digit_cons
  · intro hNone
    exact Nat.toDigits_ne_nil (List.append_eq_nil_iff.mp hNone).2
  · intro c hc
    exact isDigit_of_mem_padded hc

------------------------------------------------------------
-- Reading digits
------------------------------------------------------------

/- A number is read from its digits, which are all taken. -/
theorem digits_append
    {least most : Nat}
    {written rest : List Char}
    (hDigits : ∀ c ∈ written, c.isDigit = true)
    (hLeast : least ≤ written.length)
    (hMost : written.length ≤ most)
    (hStops : Stops rest) :
    digits least most (written ++ rest) =
      some (Text.digitsValue written, rest) := by
  have hTake :
      (written ++ rest).take most =
        written ++ rest.take (most - written.length) := by
    rw [List.take_append, List.take_of_length_le hMost]
  have hShort : Stops (rest.take (most - written.length)) := by
    intro c hc
    rw [List.head?_take] at hc
    split at hc
    · cases hc
    · exact hStops c hc
  unfold digits
  rw [hTake, (split_digits hDigits hShort).1,
    if_neg (by omega), List.drop_left]

/- A padded number is read back. -/
theorem digits_padded
    {least most width n : Nat}
    {rest : List Char}
    (hLeast : least ≤ width)
    (hMost : (padded width n).length ≤ most)
    (hStops : Stops rest) :
    digits least most (padded width n ++ rest) = some (n, rest) := by
  have hLength := le_length_padded width n
  rw [digits_append (fun c hc => isDigit_of_mem_padded hc)
    (by omega) hMost hStops, digitsValue_padded]

/- There is no number where no digit is. -/
theorem digits_eq_none
    {least most : Nat}
    {cs : List Char}
    (hLeast : 0 < least)
    (h : Stops cs) :
    digits least most cs = none := by
  have hNone : (cs.take most).takeWhile Char.isDigit = [] := by
    cases cs with
    | nil => simp
    | cons c rest =>
        cases most with
        | zero => rfl
        | succ most => simp [stops_cons.mp h]
  unfold digits
  rw [hNone]
  exact if_pos hLeast

------------------------------------------------------------
-- Numerals
------------------------------------------------------------

/- A number written in a fixed count of digits. -/
structure Numeral (width : Nat) where
  chars : List Char
  hLength : chars.length = width
  hDigits : ∀ c ∈ chars, c.isDigit = true

namespace Numeral

variable {width : Nat} {rest : List Char}

/- The number that is written. -/
def value (n : Numeral width) : Nat :=
  Text.digitsValue n.chars

/- A number that fits a width, written with zeros before it. -/
def ofNat
    (hWidth : 0 < width)
    {n : Nat}
    (h : n < 10 ^ width) : Numeral width where
  chars := padded width n
  hLength := length_padded hWidth h
  hDigits := fun _ hc => isDigit_of_mem_padded hc

/- The zeros do not count. -/
theorem value_ofNat
    (hWidth : 0 < width)
    {n : Nat}
    (h : n < 10 ^ width) :
    (ofNat hWidth h).value = n :=
  digitsValue_padded width n

/- A numeral writes a number that fits its width. -/
theorem value_lt (n : Numeral width) :
    n.value < 10 ^ width := by
  have hBound := Text.digitsValue_lt n.hDigits
  rwa [n.hLength] at hBound

/- A numeral has no blanks. -/
theorem isBlank_of_mem
    (n : Numeral width)
    {c : Char}
    (h : c ∈ n.chars) :
    Text.isBlank c = false :=
  Text.isBlank_of_isDigit (n.hDigits c h)

/- A numeral begins with a digit. -/
theorem exists_chars_eq_cons
    (n : Numeral width)
    (hWidth : 0 < width) :
    ∃ c cs, n.chars = c :: cs ∧ c.isDigit = true := by
  apply Text.exists_digit_cons
  · intro hNone
    have hLength := n.hLength
    rw [hNone, List.length_nil] at hLength
    omega
  · exact n.hDigits

/- A numeral is read at its width. -/
theorem digits_append
    (n : Numeral width)
    {least : Nat}
    (hLeast : least ≤ width)
    (hStops : Stops rest) :
    digits least width (n.chars ++ rest) = some (n.value, rest) := by
  have hLength := n.hLength
  exact Calendar.digits_append n.hDigits (by omega) (by omega) hStops

/- A numeral follows no blanks. -/
theorem trimStart_append
    (n : Numeral width)
    (hWidth : 0 < width)
    (rest : List Char) :
    Text.trimStart (n.chars ++ rest) = n.chars ++ rest := by
  rcases n.exists_chars_eq_cons hWidth with ⟨c, cs, hText, hDigit⟩
  rw [hText]
  simp [Text.trimStart, Text.isBlank_of_isDigit hDigit]

/- A numeral of two digits is read without blanks before it. -/
theorem pair_append
    (n : Numeral 2)
    (hStops : Stops rest) :
    pair (n.chars ++ rest) = some (n.value, rest) := by
  unfold pair
  rw [n.trimStart_append (by decide)]
  exact n.digits_append (by decide) hStops

/- A numeral of four digits is read as a year without a sign. -/
theorem year_append
    (n : Numeral 4)
    (hStops : Stops rest) :
    year (n.chars ++ rest) = some ((n.value : Int), rest) := by
  rcases n.exists_chars_eq_cons (by decide) with
    ⟨c, cs, hText, hDigit⟩
  unfold year
  rw [n.trimStart_append (by decide)]
  split
  · next hSign =>
      rw [hText] at hSign
      cases hSign
      cases hDigit
  · next hSign =>
      rw [hText] at hSign
      cases hSign
      cases hDigit
  · rw [n.digits_append (by decide) hStops]
    rfl

end Numeral

------------------------------------------------------------
-- Parts that may follow blanks
------------------------------------------------------------

/- A number of two digits is read back without blanks before it. -/
theorem pair_padded
    {n : Nat}
    {rest : List Char}
    (h : n < 100)
    (hStops : Stops rest) :
    pair (padded 2 n ++ rest) = some (n, rest) := by
  have hRead := (Numeral.ofNat (by decide) h).pair_append hStops
  rwa [Numeral.value_ofNat] at hRead

/- A year that is written in four digits. -/
def FourDigits (year : Int) : Prop :=
  0 ≤ year ∧ year ≤ 9999

/- Such a year fits its digits. -/
theorem FourDigits.natAbs_lt
    {y : Int}
    (h : FourDigits y) :
    y.natAbs < 10 ^ 4 := by
  rcases h with ⟨hLow, hHigh⟩
  omega

/- A year of four digits has no sign. -/
theorem yearText_of_fourDigits
    {y : Int}
    (h : FourDigits y) :
    yearText y = padded 4 y.natAbs :=
  if_pos h

/- Any other year has a sign. -/
theorem yearText_of_not_fourDigits
    {y : Int}
    (h : ¬ FourDigits y) :
    yearText y =
      (if y < 0 then '-' else '+') :: padded 4 y.natAbs :=
  if_neg h

/- After a minus sign the digits are those of the opposite. -/
theorem year_minus (rest : List Char) :
    year ('-' :: rest) =
      (digits 1 rest.length rest).map
        fun (n, rest) => (-(n : Int), rest) :=
  rfl

/- After a plus sign there may be any count of digits. -/
theorem year_plus (rest : List Char) :
    year ('+' :: rest) =
      (digits 1 rest.length rest).map
        fun (n, rest) => ((n : Int), rest) :=
  rfl

/- The text of a year is read back. -/
theorem year_yearText
    {y : Int}
    {rest : List Char}
    (hStops : Stops rest) :
    year (yearText y ++ rest) = some (y, rest) := by
  by_cases hFour : FourDigits y
  · have hRead :=
      (Numeral.ofNat (by decide) hFour.natAbs_lt).year_append hStops
    have hBack : (y.natAbs : Int) = y := Int.natAbs_of_nonneg hFour.1
    rw [Numeral.value_ofNat, hBack] at hRead
    rw [yearText_of_fourDigits hFour]
    exact hRead
  · rw [yearText_of_not_fourDigits hFour]
    have hRead :
        digits 1 (padded 4 y.natAbs ++ rest).length
          (padded 4 y.natAbs ++ rest) = some (y.natAbs, rest) :=
      digits_padded (by decide) (by simp) hStops
    by_cases hNegative : y < 0
    · have hBack : -(y.natAbs : Int) = y := by omega
      rw [if_pos hNegative, List.cons_append, year_minus, hRead]
      simp only [Option.map_some, hBack]
    · have hBack : (y.natAbs : Int) = y := by omega
      rw [if_neg hNegative, List.cons_append, year_plus, hRead]
      simp only [Option.map_some, hBack]

/- Months and days have two digits. -/
theorem two_digits_of_valid
    {d : Date}
    (h : d.Valid) :
    d.month < 100 ∧ d.day < 100 := by
  rcases h with ⟨_, _, hMonth, _, hDay⟩
  have hLength : Date.monthLength d.year d.month ≤ 31 := by
    unfold Date.monthLength
    split
    · split <;> omega
    · omega
    · omega
    · omega
    · omega
    · omega
  constructor
  · omega
  · omega

/- The text of a date is read back. -/
theorem date_chars
    {d : Date}
    {rest : List Char}
    (hDate : d.Valid)
    (hStops : Stops rest) :
    date (d.chars ++ rest) = some (d, rest) := by
  rcases two_digits_of_valid hDate with ⟨hMonth, hDay⟩
  have hYear :
      year (d.chars ++ rest) =
        some (d.year,
          '-' :: (padded 2 d.month ++
            '-' :: (padded 2 d.day ++ rest))) := by
    unfold Date.chars
    simp only [List.append_assoc, List.cons_append]
    exact year_yearText (by simp)
  unfold date
  rw [hYear]
  simp [expect, pair_padded hMonth, pair_padded hDay hStops]

------------------------------------------------------------
-- Fractions
------------------------------------------------------------

/- What may follow a time of day without being taken for a part of it. -/
structure Ends (rest : List Char) : Prop where
  stops : Stops rest
  noPoint : rest.head? ≠ some '.'

/- Digits as a fraction: a point before them, unless there are none. -/
def pointed : List Char → List Char
| [] => []
| c :: cs => '.' :: c :: cs

/- The nanoseconds that the digits of a fraction write. -/
def nanosOf (written : List Char) : Nat :=
  Text.digitsValue (written.take 9) *
    10 ^ (9 - (written.take 9).length)

/- Nine digits write less than a second. -/
theorem nanosOf_lt
    {written : List Char}
    (hDigits : ∀ c ∈ written, c.isDigit = true) :
    nanosOf written < Timestamp.nanosPerSecond := by
  have hKept : ∀ c ∈ written.take 9, c.isDigit = true :=
    fun c hc => hDigits c (List.mem_of_mem_take hc)
  have hLength : (written.take 9).length ≤ 9 := List.length_take_le 9 _
  have hScale :
      10 ^ (written.take 9).length *
          10 ^ (9 - (written.take 9).length) =
        Timestamp.nanosPerSecond := by
    rw [← Nat.pow_add, Nat.add_sub_cancel' hLength]
    rfl
  unfold nanosOf
  rw [← hScale]
  exact Nat.mul_lt_mul_of_pos_right (Text.digitsValue_lt hKept)
    (Nat.pow_pos (by decide))

/- A fraction has no blanks. -/
theorem isBlank_of_mem_pointed
    {written : List Char}
    (hDigits : ∀ c ∈ written, c.isDigit = true)
    {c : Char}
    (h : c ∈ pointed written) :
    Text.isBlank c = false := by
  cases written with
  | nil => cases h
  | cons first rest =>
      rcases List.mem_cons.mp h with hPoint | hDigit
      · rw [hPoint]
        rfl
      · exact Text.isBlank_of_isDigit (hDigits c hDigit)

/- A fraction of a second does not begin with a digit. -/
theorem stops_pointed
    {written rest : List Char}
    (h : Stops rest) :
    Stops (pointed written ++ rest) := by
  cases written with
  | nil => exact h
  | cons c cs => exact stops_cons.mpr rfl

/- The digits of a fraction are read as nanoseconds. -/
theorem fraction_pointed
    {written rest : List Char}
    (hDigits : ∀ c ∈ written, c.isDigit = true)
    (hEnds : Ends rest) :
    fraction (pointed written ++ rest) =
      some (nanosOf written, rest) := by
  cases written with
  | nil =>
      have hPoint := hEnds.noPoint
      unfold fraction
      split
      · next hText =>
          rw [pointed, List.nil_append] at hText
          rw [hText] at hPoint
          exact absurd rfl hPoint
      · rfl
  | cons c cs =>
      rcases split_digits hDigits hEnds.stops with ⟨hTake, hDrop⟩
      have hText :
          pointed (c :: cs) ++ rest = '.' :: ((c :: cs) ++ rest) :=
        rfl
      rw [hText, fraction, hTake, hDrop, if_neg (List.cons_ne_nil c cs)]
      rfl

/- A fraction of a second is written in digits. -/
theorem exists_pointed
    {nano : Nat}
    (h : nano < Timestamp.nanosPerSecond) :
    ∃ written : List Char,
      (∀ c ∈ written, c.isDigit = true) ∧
        fractionText nano = pointed written ∧
        nanosOf written = nano := by
  have hPadded :
      ∀ {width n : Nat}, 0 < width → width ≤ 9 → n < 10 ^ width →
        n * 10 ^ (9 - width) = nano →
          ∃ written : List Char,
            (∀ c ∈ written, c.isDigit = true) ∧
              '.' :: padded width n = pointed written ∧
              nanosOf written = nano := by
    intro width n hWidth hNine hFits hScaled
    have hLength := length_padded hWidth hFits
    have hKept : (padded width n).take 9 = padded width n :=
      List.take_of_length_le (by omega)
    refine ⟨padded width n, fun _ hc => isDigit_of_mem_padded hc, ?_, ?_⟩
    · rcases exists_padded_eq_cons width n with ⟨c, cs, hText, _⟩
      rw [hText]
      rfl
    · rw [nanosOf, hKept, digitsValue_padded, hLength, hScaled]
  unfold Timestamp.nanosPerSecond at h
  unfold fractionText
  split
  · next hNone =>
      exact ⟨[], by simp, rfl, hNone.symm⟩
  · split
    · exact hPadded (by decide) (by decide) (by omega) (by omega)
    · split
      · exact hPadded (by decide) (by decide) (by omega) (by omega)
      · exact hPadded (by decide) (by decide) (by omega) (by omega)

end Calendar

end RelationalRest
