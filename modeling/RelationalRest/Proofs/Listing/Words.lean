import Mathlib.Algebra.Group.Nat.Defs
import Mathlib.Order.Bounds.Basic
import RelationalRest.Proofs.Listing.Window

/-
  Windows computed in words of 64 bits.  The operations here
  fail where a word cannot hold the exact result, and where
  the divisor is zero; for every total that is an unsigned
  word, and for every limit and offset that are signed ones,
  none of them fails.

  Key definitions include:
    * `Word.fit?`
    * `PageWindow.compute?`
    * `PageWindow.StartsPage`
    * `PageWindow.Proper`
    * `PageWindow.InWords`

  Main declarations:
    * `PageWindow.compute?_eq`
    * `PageWindow.proper_compute`
    * `PageWindow.Proper.inWords`
    * `PageWindow.compute_compute`
    * `PageWindow.word_arithmetic`
-/

namespace RelationalRest

------------------------------------------------------------
-- Operations on words
------------------------------------------------------------

namespace Word

/- A number that an unsigned word can hold. -/
def fit? (n : Nat) : Option Nat :=
  if n < 2 ^ 64 then some n else none

/- The sum of two words. -/
def add? (a b : Nat) : Option Nat :=
  fit? (a + b)

/- The product of two words. -/
def multiply? (a b : Nat) : Option Nat :=
  fit? (a * b)

/- The quotient of two words. -/
def divide? (a b : Nat) : Option Nat :=
  if b = 0 then none else some (a / b)

/- The remainder of two words. -/
def remainder? (a b : Nat) : Option Nat :=
  if b = 0 then none else some (a % b)

end Word

namespace PageWindow

/- The window of a requested limit and offset, in words. -/
def compute?
    (total : Nat)
    (limit : Int)
    (offset : Option Int) : Option PageWindow := do
  let limit :=
    max 1 (if limit < 0 then 1 else min limit.toNat total)
  let offset := min (offset.getD 0).toNat total
  let currentPage ← Word.divide? offset limit
  let pages ← Word.divide? total limit
  let rest ← Word.remainder? total limit
  return {
    limit
    offset
    currentPage
    lastPage := if rest = 0 then pages - 1 else pages }

/- The offset of the last page, in words. -/
def lastOffset? (w : PageWindow) : Option Nat :=
  Word.multiply? w.lastPage w.limit

/- The offset of the page after this one, in words. -/
def nextOffset? (w : PageWindow) : Option Nat := do
  let page ← Word.add? w.currentPage 1
  Word.multiply? (min page w.lastPage) w.limit

/- The offset of the page before this one, in words. -/
def previousOffset? (w : PageWindow) : Option Nat :=
  Word.multiply? (w.currentPage - 1) w.limit

------------------------------------------------------------
-- Proper windows
------------------------------------------------------------

/-
  A page starts here: at a multiple of its size, before the
  end of the listing, and at the start of an empty one.
-/
structure StartsPage (total size start : Nat) : Prop where
  multiple : size ∣ start
  empty : total = 0 → start = 0
  within : 0 < total → start < total

/-
  A window is within its listing.  It has as many pages as are
  needed for all rows, but one at least, and leads to places
  where a page starts.
-/
structure Proper (total : Nat) (w : PageWindow) : Prop where
  limit_pos : 1 ≤ w.limit
  limit_le : w.limit ≤ max total 1
  offset_le : w.offset ≤ total
  pages :
    IsLeast {n | 1 ≤ n ∧ total ≤ n * w.limit} (w.lastPage + 1)
  last : StartsPage total w.limit w.lastOffset
  next : StartsPage total w.limit w.nextOffset
  previous : StartsPage total w.limit w.previousOffset
  previous_le : w.previousOffset ≤ w.offset

/- The offsets that a window leads to can be computed in words. -/
structure InWords (w : PageWindow) : Prop where
  last : w.lastOffset? = some w.lastOffset
  next : w.nextOffset? = some w.nextOffset
  previous : w.previousOffset? = some w.previousOffset

variable {total : Nat}
variable {limit limit' : Int}
variable {offset offset' : Option Int}

section Pages

variable {size start k : Nat}

/- Every page up to the last one starts properly. -/
theorem startsPage_of_le
    (hSize : 0 < size)
    (hPage : k ≤ (total - 1) / size) :
    StartsPage total size (k * size) where
  multiple := Nat.dvd_mul_left size k
  empty := by
    intro hEmpty
    have hFirst : (total - 1) / size = 0 := by simp [hEmpty]
    rw [hFirst, Nat.le_zero] at hPage
    rw [hPage, Nat.zero_mul]
  within := fun hRows => (start_lt_iff hRows hSize).mpr hPage

/- No page starts after the end. -/
theorem StartsPage.le
    (h : StartsPage total size start) :
    start ≤ total := by
  rcases Nat.eq_zero_or_pos total with hEmpty | hRows
  · rw [h.empty hEmpty]
    exact Nat.zero_le total
  · exact (h.within hRows).le

/- The pages up to the one of the last row are those needed. -/
theorem isLeast_pages
    (total : Nat)
    (hSize : 0 < size) :
    IsLeast {n | 1 ≤ n ∧ total ≤ n * size}
      ((total - 1) / size + 1) := by
  rcases Nat.eq_zero_or_pos total with rfl | hRows
  · simp [IsLeast, lowerBounds]
  · have hStarts :
        ∀ n, n * size < total ↔ n ≤ (total - 1) / size :=
      fun n => start_lt_iff hRows hSize
    refine ⟨⟨Nat.le_add_left 1 _, ?_⟩, ?_⟩
    · rw [← Nat.not_lt, hStarts]
      exact Nat.not_succ_le_self _
    · rintro n ⟨_, hCovers⟩
      rw [← Nat.not_lt, hStarts] at hCovers
      exact Nat.lt_of_not_le hCovers

end Pages

/- The window before this one is not after the last one. -/
theorem previousPage_le
    (total : Nat)
    (limit : Int)
    (offset : Option Int) :
    (compute total limit offset).currentPage - 1 ≤
      (compute total limit offset).lastPage := by
  have hOffset : (compute total limit offset).offset ≤ total :=
    Nat.min_le_right _ _
  have hCurrent :
      (compute total limit offset).currentPage ≤
        total / (compute total limit offset).limit :=
    Nat.div_le_div_right hOffset
  have hLast := lastPage_eq total limit offset
  split at hLast <;> omega

/- Every window is proper. -/
theorem proper_compute
    (total : Nat)
    (limit : Int)
    (offset : Option Int) :
    (compute total limit offset).Proper total := by
  have hLast := lastPage_compute total limit offset
  have hPrevious := previousPage_le total limit offset
  have hPos : 0 < (compute total limit offset).limit := limit_pos
  have hLimit :
      (compute total limit offset).limit ≤ max total 1 := by
    simp only [compute]
    split <;> omega
  have hOffset : (compute total limit offset).offset ≤ total :=
    Nat.min_le_right _ _
  have hCurrent :
      (compute total limit offset).currentPage *
          (compute total limit offset).limit ≤
        (compute total limit offset).offset :=
    Nat.div_mul_le_self _ _
  generalize compute total limit offset = w at *
  have hStarts :
      ∀ k, k ≤ w.lastPage → StartsPage total w.limit (k * w.limit) :=
    fun k hk => startsPage_of_le hPos (hLast ▸ hk)
  exact
    { limit_pos := hPos
      limit_le := hLimit
      offset_le := hOffset
      pages := hLast ▸ isLeast_pages total hPos
      last := hStarts _ (Nat.le_refl _)
      next := hStarts _ (Nat.min_le_right _ _)
      previous := hStarts _ hPrevious
      previous_le :=
        (Nat.mul_le_mul_right _ (Nat.sub_le _ 1)).trans hCurrent }

------------------------------------------------------------
-- Words that are large enough
------------------------------------------------------------

/- No window divides by zero. -/
theorem compute?_eq
    (total : Nat)
    (limit : Int)
    (offset : Option Int) :
    compute? total limit offset =
      some (compute total limit offset) := by
  have hPos :
      max 1 (if limit < 0 then 1 else min limit.toNat total) ≠ 0 := by
    omega
  simp only [compute?, Word.divide?, Word.remainder?, hPos, if_false]
  rfl

/-
  The pages of a listing that a word can count start where a
  word can tell.  The number of the next page can be told, too,
  for an offset that does not fill its word.
-/
theorem Proper.inWords
    {w : PageWindow}
    (h : w.Proper total)
    (hTotal : total < 2 ^ 64)
    (hPage : w.currentPage + 1 < 2 ^ 64) :
    w.InWords := by
  have hFits :
      ∀ start, StartsPage total w.limit start →
        Word.fit? start = some start :=
    fun start hStart => if_pos (hStart.le.trans_lt hTotal)
  have hNext : Word.add? w.currentPage 1 = some (w.currentPage + 1) :=
    if_pos hPage
  refine ⟨hFits _ h.last, ?_, hFits _ h.previous⟩
  rw [nextOffset?, hNext]
  exact hFits _ h.next

------------------------------------------------------------
-- Windows computed again
------------------------------------------------------------

/- A window is known by its limit and its offset. -/
theorem compute_congr
    (hLimit :
      (compute total limit offset).limit =
        (compute total limit' offset').limit)
    (hOffset :
      (compute total limit offset).offset =
        (compute total limit' offset').offset) :
    compute total limit offset = compute total limit' offset' := by
  have hParts :
      ∀ limit offset,
        compute total limit offset =
          { limit := (compute total limit offset).limit
            offset := (compute total limit offset).offset
            currentPage :=
              (compute total limit offset).offset /
                (compute total limit offset).limit
            lastPage :=
              (total - 1) / (compute total limit offset).limit } := by
    intro limit offset
    rw [← lastPage_compute]
    rfl
  rw [hParts limit offset, hParts limit' offset', hLimit, hOffset]

/- A window that is computed from its own bounds stays as it is. -/
theorem compute_compute
    (total : Nat)
    (limit : Int)
    (offset : Option Int) :
    compute total (compute total limit offset).limit
        (some (compute total limit offset).offset) =
      compute total limit offset := by
  have hProper := proper_compute total limit offset
  generalize hWindow : compute total limit offset = w at hProper ⊢
  rw [← hWindow]
  refine compute_congr ?_ ?_
  · rw [limit_compute, hWindow]
    have hPos := hProper.limit_pos
    have hLimit := hProper.limit_le
    omega
  · rw [hWindow]
    exact Nat.min_eq_left hProper.offset_le

/- A limit is not raised, except to one row. -/
theorem limit_le_toNat
    (total : Nat)
    (limit : Int)
    (offset : Option Int) :
    (compute total limit offset).limit ≤ max 1 limit.toNat := by
  simp only [compute]
  split <;> omega

/- The offset is not raised. -/
theorem offset_le_toNat
    (total : Nat)
    (limit : Int)
    (offset : Option Int) :
    (compute total limit offset).offset ≤
      (offset.getD 0).toNat :=
  Nat.min_le_left _ _

/- The page of an offset has no greater number than it. -/
theorem currentPage_le_toNat
    (total : Nat)
    (limit : Int)
    (offset : Option Int) :
    (compute total limit offset).currentPage ≤
      (offset.getD 0).toNat :=
  (Nat.div_le_self _ _).trans (offset_le_toNat total limit offset)

/- An offset that is a signed word, or none, is below `2 ^ 63`. -/
theorem toNat_getD_lt (offset : Option Int64) :
    ((offset.map Int64.toInt).getD 0).toNat < 2 ^ 63 := by
  cases offset with
  | none => decide
  | some offset =>
      have hWord := offset.toInt_lt
      simp only [Option.map_some, Option.getD_some]
      omega

/-
  For every total that is an unsigned word, and every limit and
  offset that are signed ones, the window and the offsets it
  leads to are computed without overflow and without a division
  by zero.  The window is proper; its limit and its offset are
  signed words again, and give the same window.
-/
theorem word_arithmetic
    (total : UInt64)
    (limit : Int64)
    (offset : Option Int64) :
    ∃ w,
      compute total.toNat limit.toInt (offset.map Int64.toInt) = w ∧
        compute? total.toNat limit.toInt
          (offset.map Int64.toInt) = some w ∧
        w.Proper total.toNat ∧ w.InWords ∧
        ∃ limit' offset' : Int64,
          limit'.toInt = w.limit ∧ offset'.toInt = w.offset ∧
            compute total.toNat limit'.toInt
              (some offset'.toInt) = w := by
  refine ⟨_, rfl, compute?_eq _ _ _, proper_compute _ _ _, ?_, ?_⟩
  · refine (proper_compute _ _ _).inWords total.toNat_lt ?_
    have hPage :=
      currentPage_le_toNat total.toNat limit.toInt
        (offset.map Int64.toInt)
    have hOffset := toNat_getD_lt offset
    omega
  · have hLimit :=
      limit_le_toNat total.toNat limit.toInt
        (offset.map Int64.toInt)
    have hWord := limit.toInt_lt
    have hOffset :=
      offset_le_toNat total.toNat limit.toInt
        (offset.map Int64.toInt)
    have hOffsetWord := toNat_getD_lt offset
    refine
      ⟨.ofNat _, .ofNat _, Int64.toInt_ofNat_of_lt (by omega),
        Int64.toInt_ofNat_of_lt (hOffset.trans_lt hOffsetWord), ?_⟩
    rw [Int64.toInt_ofNat_of_lt (by omega),
      Int64.toInt_ofNat_of_lt (hOffset.trans_lt hOffsetWord)]
    exact compute_compute _ _ _

end PageWindow

end RelationalRest
