import Mathlib.Logic.ExistsUnique
import RelationalRest.Listing.Paging

/-
  The windows of a listing.  With a limit of `L` rows and a
  last page `T`, the windows from `0`, `L`, `2 L` up to `T L`
  hold every row of the listing once, and each of them holds
  one at least, if there are rows at all.

  Main declarations:
    * `PageWindow.limit_compute`
    * `PageWindow.lastPage_compute`
    * `PageWindow.start_lt_iff`
    * `PageWindow.existsUnique_page`
    * `PageWindow.compute_page`
    * `PageWindow.nextOffset_compute`
-/

namespace RelationalRest

namespace PageWindow

variable {total : Nat}
variable {limit : Int}
variable {offset : Option Int}

------------------------------------------------------------
-- Limits and last pages
------------------------------------------------------------

/- A window has a row. -/
theorem limit_pos : 0 < (compute total limit offset).limit := by
  simp only [compute]
  omega

/- The limit is cut down to the listing, but not below one row. -/
theorem limit_compute
    (total limit : Nat)
    (offset : Option Int) :
    (compute total limit offset).limit =
      max 1 (min limit total) := by
  have hSign : ¬ (limit : Int) < 0 := by omega
  simp [compute, hSign]

/- How the last page is computed. -/
theorem lastPage_eq
    (total : Nat)
    (limit : Int)
    (offset : Option Int) :
    (compute total limit offset).lastPage =
      if total % (compute total limit offset).limit = 0 then
        total / (compute total limit offset).limit - 1
      else
        total / (compute total limit offset).limit :=
  rfl

/- The last page is that of the last row. -/
theorem lastPage_compute
    (total : Nat)
    (limit : Int)
    (offset : Option Int) :
    (compute total limit offset).lastPage =
      (total - 1) / (compute total limit offset).limit := by
  have hPos : 0 < (compute total limit offset).limit := limit_pos
  rw [lastPage_eq]
  generalize (compute total limit offset).limit = L at hPos ⊢
  have hSplit : total / L * L + total % L = total :=
    Nat.div_add_mod' total L
  have hRest : total % L < L := Nat.mod_lt total hPos
  symm
  split
  · next hDivides =>
      cases hPages : total / L with
      | zero =>
          rw [hPages] at hSplit
          exact Nat.div_eq_of_lt (by omega)
      | succ pages =>
          rw [hPages, Nat.succ_mul] at hSplit
          refine Nat.div_eq_of_lt_le ?_ ?_
          · rw [Nat.add_sub_cancel]
            omega
          · rw [Nat.add_sub_cancel, Nat.succ_mul]
            omega
  · next hSome =>
      refine Nat.div_eq_of_lt_le ?_ ?_
      · omega
      · rw [Nat.succ_mul]
        omega

------------------------------------------------------------
-- Pages
------------------------------------------------------------

section Pages

variable {rows size k : Nat}

/- A page begins before the end exactly if it is not after the last. -/
theorem start_lt_iff
    (hRows : 0 < rows)
    (hSize : 0 < size) :
    k * size < rows ↔ k ≤ (rows - 1) / size := by
  rw [Nat.le_div_iff_mul_le hSize]
  omega

/- No page begins after the end. -/
theorem start_le
    (hSize : 0 < size)
    (hPage : k ≤ (rows - 1) / size) :
    k * size ≤ rows := by
  rw [Nat.le_div_iff_mul_le hSize] at hPage
  omega

/- Every row is on exactly one page. -/
theorem existsUnique_page
    (hSize : 0 < size)
    {i : Nat}
    (hRow : i < rows) :
    ∃! k, k ≤ (rows - 1) / size ∧ k * size ≤ i ∧
      i < k * size + size := by
  have hSplit : i / size * size + i % size = i :=
    Nat.div_add_mod' i size
  have hRest : i % size < size := Nat.mod_lt i hSize
  refine ⟨i / size, ⟨?_, by omega, by omega⟩, ?_⟩
  · exact Nat.div_le_div_right (by omega)
  · rintro other ⟨_, hLow, hHigh⟩
    rw [← Nat.succ_mul] at hHigh
    exact (Nat.div_eq_of_lt_le hLow hHigh).symm

end Pages

------------------------------------------------------------
-- Windows of pages
------------------------------------------------------------

/- The window of a page, by its number. -/
def page (size last k : Nat) : PageWindow where
  limit := size
  offset := k * size
  currentPage := k
  lastPage := last

/- A window that was cut down already is that of its page. -/
theorem compute_page
    {size k : Nat}
    (hSize : max 1 (min size total) = size)
    (hPage : k ≤ (total - 1) / size)
    (hOffset : offset.getD 0 = (k * size : Nat)) :
    compute total size offset =
      page size ((total - 1) / size) k := by
  have hPos : 0 < size := by omega
  have hStart : k * size ≤ total := start_le hPos hPage
  have hLimit := limit_compute total size offset
  have hLast := lastPage_compute total size offset
  have hBegin : (compute total size offset).offset = k * size := by
    simp only [compute, hOffset, Int.toNat_natCast]
    omega
  have hCurrent :
      (compute total size offset).currentPage =
        (compute total size offset).offset /
          (compute total size offset).limit := rfl
  rw [hBegin, hLimit, hSize, Nat.mul_div_cancel k hPos] at hCurrent
  rw [hLimit, hSize] at hLast
  rw [hSize] at hLimit
  cases hWindow : compute total size offset with
  | mk limit offset currentPage lastPage =>
      rw [hWindow] at hBegin hLimit hLast hCurrent
      dsimp only at hBegin hLimit hLast hCurrent
      subst hBegin hLimit hLast hCurrent
      rfl

/-
  Wherever a window begins, the next page begins no more than
  a window later, and later than the window unless that begins
  in the last page, which is then the next one.
-/
theorem nextOffset_compute
    (total : Nat)
    (limit : Int)
    (offset : Option Int) :
    (compute total limit offset).nextOffset ≤
        (compute total limit offset).offset +
          (compute total limit offset).limit ∧
      ((compute total limit offset).offset <
          (compute total limit offset).nextOffset ∨
        (compute total limit offset).lastOffset ≤
            (compute total limit offset).offset ∧
          (compute total limit offset).nextOffset =
            (compute total limit offset).lastOffset) := by
  have hPos : 0 < (compute total limit offset).limit := limit_pos
  have hCurrent :
      (compute total limit offset).currentPage =
        (compute total limit offset).offset /
          (compute total limit offset).limit := rfl
  unfold nextOffset lastOffset
  rw [hCurrent]
  generalize compute total limit offset = w at hPos ⊢
  have hSplit : w.offset / w.limit * w.limit + w.offset % w.limit =
      w.offset := Nat.div_add_mod' w.offset w.limit
  have hRest : w.offset % w.limit < w.limit :=
    Nat.mod_lt w.offset hPos
  have hNext : (w.offset / w.limit + 1) * w.limit =
      w.offset / w.limit * w.limit + w.limit := Nat.succ_mul _ _
  rcases Nat.lt_or_ge (w.offset / w.limit) w.lastPage with
    hBefore | hLast
  · have hBefore : w.offset / w.limit + 1 ≤ w.lastPage := hBefore
    rw [Nat.min_eq_left hBefore]
    exact ⟨by omega, .inl (by omega)⟩
  · have hEnd : w.lastPage * w.limit ≤
        w.offset / w.limit * w.limit :=
      Nat.mul_le_mul_right w.limit hLast
    rw [Nat.min_eq_right (by omega)]
    exact ⟨by omega, .inr ⟨by omega, rfl⟩⟩

end PageWindow

end RelationalRest
