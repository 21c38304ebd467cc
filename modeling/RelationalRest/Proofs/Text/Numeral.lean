import Mathlib.Algebra.Group.Nat.Defs
import Mathlib.Data.List.TakeWhile
import RelationalRest.Text.Blank
import RelationalRest.Text.Numeral

/-
  How whole numbers are read with and without a sign, and that
  a number is read back from its own text.

  Key definitions include:
    * `Text.Stops`

  Main declarations:
    * `Text.int64?_of_nat64?`
    * `Text.split_digits`
    * `Text.digitsValue_append_zeros`
    * `Text.digitsValue_lt`
    * `Text.trim_surrounded`
    * `Text.trim_toDigits`
    * `Text.integer?_toString`
    * `Text.int64?_toString`
-/

namespace RelationalRest

namespace Text

------------------------------------------------------------
-- Numbers with and without a sign
------------------------------------------------------------

/- A list that begins with no digit is no number. -/
theorem natural?_cons_of_not_isDigit
    {c : Char}
    (h : c.isDigit = false)
    (rest : List Char) :
    natural? (c :: rest) = none := by
  simp [natural?, h]

/- A number below a bound is read as a whole number. -/
theorem integer?_of_unsigned?
    {bound n : Nat}
    {cs : List Char}
    (h : unsigned? bound cs = some n) :
    integer? cs = some (n : Int) ∧ n < bound := by
  unfold unsigned? at h
  rcases Option.filter_eq_some_iff.mp h with ⟨hRead, hBound⟩
  refine ⟨?_, of_decide_eq_true hBound⟩
  have hMinus : ∀ rest, natural? ('-' :: rest) = none :=
    natural?_cons_of_not_isDigit (by decide)
  unfold integer?
  split
  · next rest =>
      have hRead : natural? rest = some n := hRead
      simp [hRead]
  · next rest =>
      have hRead : natural? ('-' :: rest) = some n := hRead
      rw [hMinus] at hRead
      cases hRead
  · next hPlus _ =>
      split at hRead
      · exact absurd rfl (hPlus _)
      · simp [hRead]

/-
  A number that fits an unsigned word is read in the same way
  if it fits a signed one, and is refused otherwise.
-/
theorem int64?_of_nat64?
    {cs : List Char}
    {n : Nat}
    (h : nat64? cs = some n) :
    int64? cs = if InInt64 n then some (n : Int) else none := by
  rcases integer?_of_unsigned? h with ⟨hRead, _⟩
  unfold int64?
  rw [hRead]
  by_cases hFits : InInt64 n
  · simp [Option.filter, hFits]
  · simp [Option.filter, hFits]

/- What is below a number that fits a signed word fits as well. -/
theorem InInt64.of_le
    {m n : Nat}
    (h : InInt64 n)
    (hLe : m ≤ n) :
    InInt64 m := by
  refine ⟨?_, ?_⟩
  · have hLow : (0 : Int) ≤ Nat.pow 2 63 := Int.natCast_nonneg _
    omega
  · have hHigh := h.2
    omega

/- A text is no whole number if it has more than digits and a sign. -/
theorem integer?_eq_none
    {cs : List Char}
    {c : Char}
    (hMem : c ∈ cs)
    (hDigit : c.isDigit = false)
    (hSign : c ≠ '+' ∧ c ≠ '-') :
    integer? cs = none := by
  have hNone : ∀ cs : List Char, c ∈ cs → natural? cs = none := by
    intro cs hMem
    refine if_neg ?_
    rintro ⟨_, hAll⟩
    rw [List.all_eq_true.mp hAll c hMem] at hDigit
    cases hDigit
  unfold integer?
  split
  · next rest =>
      have hRest : c ∈ rest :=
        List.mem_of_ne_of_mem hSign.1 hMem
      rw [hNone rest hRest, Option.map_none]
  · next rest =>
      have hRest : c ∈ rest :=
        List.mem_of_ne_of_mem hSign.2 hMem
      simp [hNone rest hRest]
  · rw [hNone cs hMem, Option.map_none]

------------------------------------------------------------
-- Digits and what follows them
------------------------------------------------------------

/- A number is written in digits. -/
theorem isDigit_of_mem_toDigits
    {n : Nat}
    {c : Char}
    (h : c ∈ Nat.toDigits 10 n) :
    c.isDigit = true :=
  Nat.isDigit_of_mem_toDigits (by decide) (by decide) h

/- Zeros are digits. -/
theorem isDigit_of_mem_zeros
    {n : Nat}
    {c : Char}
    (h : c ∈ List.replicate n '0') :
    c.isDigit = true := by
  rw [List.eq_of_mem_replicate h]
  rfl

/- Written digits begin with one. -/
theorem exists_digit_cons
    {cs : List Char}
    (hSome : cs ≠ [])
    (hDigits : ∀ c ∈ cs, c.isDigit = true) :
    ∃ c rest, cs = c :: rest ∧ c.isDigit = true := by
  rcases List.exists_cons_of_ne_nil hSome with ⟨c, rest, hText⟩
  exact ⟨c, rest, hText, hDigits c (by simp [hText])⟩

/- A text does not go on with a digit. -/
def Stops (rest : List Char) : Prop :=
  ∀ c ∈ rest.head?, c.isDigit = false

@[simp]
theorem stops_nil : Stops [] := by
  intro c hc
  cases hc

@[simp]
theorem stops_cons
    {c : Char}
    {rest : List Char} :
    Stops (c :: rest) ↔ c.isDigit = false := by
  simp [Stops]

/- The digits at the start of a text, and what follows them. -/
theorem split_digits
    {written rest : List Char}
    (hDigits : ∀ c ∈ written, c.isDigit = true)
    (hStops : Stops rest) :
    (written ++ rest).takeWhile Char.isDigit = written ∧
      (written ++ rest).dropWhile Char.isDigit = rest := by
  rw [List.takeWhile_append_of_pos hDigits,
    List.dropWhile_append_of_pos hDigits]
  cases rest with
  | nil => simp
  | cons c rest => simp [stops_cons.mp hStops]

------------------------------------------------------------
-- Values of digits
------------------------------------------------------------

/- The digits of a number denote it. -/
theorem digitsValue_toDigits (n : Nat) :
    digitsValue (Nat.toDigits 10 n) = n :=
  Nat.ofDigitChars_toDigits (by decide) (by decide)

/- Zeros after digits scale their value. -/
theorem digitsValue_append_zeros
    (cs : List Char)
    (n : Nat) :
    digitsValue (cs ++ List.replicate n '0') =
      10 ^ n * digitsValue cs := by
  rw [digitsValue, Nat.ofDigitChars_append,
    Nat.ofDigitChars_replicate_zero]
  rfl

/- Zeros before digits do not count. -/
theorem digitsValue_zeros_append
    (n : Nat)
    (cs : List Char) :
    digitsValue (List.replicate n '0' ++ cs) =
      digitsValue cs := by
  rw [digitsValue, Nat.ofDigitChars_append,
    Nat.ofDigitChars_replicate_zero, Nat.mul_zero]
  rfl

/- The value of a digit. -/
theorem digit_lt
    {c : Char}
    (h : c.isDigit = true) :
    c.toNat - '0'.toNat < 10 := by
  have hHigh : c.toNat ≤ '9'.toNat := by
    simp only [Char.isDigit, Bool.and_eq_true,
      decide_eq_true_eq] at h
    exact h.2
  have hZero : '0'.toNat = 48 := rfl
  have hNine : '9'.toNat = 57 := rfl
  omega

/- Digits write a number below the power of their count. -/
theorem digitsValue_lt
    {cs : List Char}
    (h : ∀ c ∈ cs, c.isDigit = true) :
    digitsValue cs < 10 ^ cs.length := by
  induction cs with
  | nil => decide
  | cons c cs ih =>
      have hFirst := digit_lt (h c List.mem_cons_self)
      have hRest := ih fun c hc => h c (List.mem_cons_of_mem _ hc)
      have hValue :
          digitsValue (c :: cs) =
            10 ^ cs.length * (c.toNat - '0'.toNat) + digitsValue cs := by
        unfold digitsValue
        rw [Nat.ofDigitChars_cons, Nat.ofDigitChars_eq_ofDigitChars_zero,
          Nat.mul_zero, Nat.zero_add]
      have hScaled :=
        Nat.mul_le_mul_left (10 ^ cs.length) (Nat.le_of_lt_succ hFirst)
      rw [hValue, List.length_cons, Nat.pow_succ]
      omega

------------------------------------------------------------
-- Numbers written and read
------------------------------------------------------------

/- A digit is not blank. -/
theorem isBlank_of_isDigit
    {c : Char}
    (h : c.isDigit = true) :
    isBlank c = false := by
  have hLow : 0x30 ≤ c.toNat := by
    simp only [Char.isDigit, Bool.and_eq_true,
      decide_eq_true_eq] at h
    exact h.1
  have hHigh : c.toNat ≤ 0x39 := by
    simp only [Char.isDigit, Bool.and_eq_true,
      decide_eq_true_eq] at h
    exact h.2
  simp only [isBlank, Bool.or_eq_false_iff, Bool.and_eq_false_iff,
    decide_eq_false_iff_not, beq_eq_false_iff_ne]
  omega

/- A text without blanks is left alone. -/
theorem trim_of_forall
    {cs : List Char}
    (h : ∀ c ∈ cs, isBlank c = false) :
    trim cs = cs := by
  apply trim_eq_self
  · intro c hc
    exact h c (List.mem_of_mem_head? hc)
  · intro c hc
    exact h c (List.mem_of_getLast? hc)

/- Blanks around a text do not count. -/
theorem trim_surrounded
    {before after : List Char}
    (hBefore : ∀ c ∈ before, isBlank c = true)
    (cs : List Char)
    (hAfter : ∀ c ∈ after, isBlank c = true) :
    trim (before ++ cs ++ after) = trim cs := by
  have hNone : after.dropWhile isBlank = [] :=
    List.dropWhile_eq_nil_iff.mpr hAfter
  have hReversed : ∀ c ∈ after.reverse, isBlank c = true :=
    fun c hc => hAfter c (List.mem_reverse.mp hc)
  unfold trim trimStart
  rw [List.append_assoc, List.dropWhile_append_of_pos hBefore,
    List.dropWhile_append, hNone]
  split
  · next hBlank =>
      rw [List.isEmpty_iff.mp hBlank]
  · rw [List.reverse_append, List.dropWhile_append_of_pos hReversed]

/- The digits of a number have no blanks at their ends. -/
theorem trim_toDigits (n : Nat) :
    trim (Nat.toDigits 10 n) = Nat.toDigits 10 n := by
  refine trim_of_forall fun c hc => ?_
  exact isBlank_of_isDigit (isDigit_of_mem_toDigits hc)

/- The digits of a number begin with a digit. -/
theorem exists_toDigits_eq_cons (n : Nat) :
    ∃ c rest, Nat.toDigits 10 n = c :: rest ∧ c.isDigit = true :=
  exists_digit_cons Nat.toDigits_ne_nil
    fun _ hc => isDigit_of_mem_toDigits hc

/- The digits of a number are read as a whole number. -/
theorem integer?_toDigits (n : Nat) :
    integer? (Nat.toDigits 10 n) = some (n : Int) := by
  have hRead := natural?_toDigits n
  rcases exists_toDigits_eq_cons n with ⟨c, rest, hDigits, hDigit⟩
  rw [hDigits] at hRead ⊢
  unfold integer?
  split
  · next hEq =>
      cases hEq
      cases hDigit
  · next hEq =>
      cases hEq
      cases hDigit
  · simp [hRead]

/- The text of a number without a sign is its digits. -/
theorem toList_toString_ofNat (n : Nat) :
    (toString (Int.ofNat n)).toList = Nat.toDigits 10 n := by
  have hSame : toString (Int.ofNat n) = toString n := rfl
  rw [hSame]
  simp

/- The text of a negative number is a sign and digits. -/
theorem toList_toString_negSucc (n : Nat) :
    (toString (Int.negSucc n)).toList =
      '-' :: Nat.toDigits 10 (n + 1) := by
  have hSame : toString (Int.negSucc n) = "-" ++ toString (n + 1) :=
    rfl
  simp [hSame]

/- The text of a whole number is read back. -/
theorem integer?_toString (i : Int) :
    integer? (toString i).toList = some i := by
  cases i with
  | ofNat n =>
      rw [toList_toString_ofNat]
      exact integer?_toDigits n
  | negSucc n =>
      rw [toList_toString_negSucc]
      simp [integer?, natural?_toDigits, Int.negSucc_eq]

/- The text of a number that fits a signed word is read back. -/
theorem int64?_toString
    {i : Int}
    (h : InInt64 i) :
    int64? (toString i).toList = some i := by
  unfold int64?
  rw [integer?_toString]
  simp [Option.filter, h]

end Text

end RelationalRest
