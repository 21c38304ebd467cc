/-
  This file defines blank characters, which are those with
  the Unicode property White_Space, and trimming.

  Key definitions include:
    * `Text.isBlank`
    * `Text.trimStart`
    * `Text.trim`
-/

namespace RelationalRest

namespace Text

/- The characters with the property White_Space. -/
def isBlank (c : Char) : Bool :=
  let n := c.toNat
  (0x09 ≤ n && n ≤ 0x0d) || n == 0x20 || n == 0x85 ||
    n == 0xa0 || n == 0x1680 || (0x2000 ≤ n && n ≤ 0x200a) ||
    n == 0x2028 || n == 0x2029 || n == 0x202f ||
    n == 0x205f || n == 0x3000

/- Drop the blanks at the start. -/
def trimStart (cs : List Char) : List Char :=
  cs.dropWhile isBlank

/- Drop the blanks at both ends. -/
def trim (cs : List Char) : List Char :=
  ((trimStart cs).reverse.dropWhile isBlank).reverse

/- Text without blanks at its ends is left alone. -/
theorem trim_eq_self
    {cs : List Char}
    (hHead : ∀ c ∈ cs.head?, isBlank c = false)
    (hLast : ∀ c ∈ cs.getLast?, isBlank c = false) :
    trim cs = cs := by
  have hStart : trimStart cs = cs := by
    cases cs with
    | nil => rfl
    | cons c rest =>
        have hc : isBlank c = false := hHead c (by simp)
        simp [trimStart, hc]
  unfold trim
  rw [hStart]
  cases hRev : cs.reverse with
  | nil =>
      have : cs = [] := by simpa using hRev
      simp [this]
  | cons c rest =>
      have hc : isBlank c = false := by
        apply hLast
        have : cs = (c :: rest).reverse := by
          rw [← hRev, List.reverse_reverse]
        simp [this]
      have hEq : cs = (c :: rest).reverse := by
        rw [← hRev, List.reverse_reverse]
      rw [List.dropWhile_cons, hc]
      simpa using hEq.symm

end Text

end RelationalRest
