import Mathlib.Data.List.Induction
import Mathlib.Data.List.TakeWhile
import RelationalRest.Proofs.Listing.Nesting

/-
  Which filters of a relation are read as they are written.
  Between quotes they always are.  Without quotes around or in
  them, two bars delimit a run as quotes do: the first and the
  last bar of the text are taken for its delimiters and lost,
  and so the pairs are read as written exactly if there are
  fewer than two bars in all.

  Key definitions include:
    * `Filter.pairsIn`
    * `Filter.Unquoted`
    * `Filter.barCount`

  Main declarations:
    * `Filter.unquote_between_quotes`
    * `Filter.unquote_between_bars`
    * `Filter.barCount_pairsIn`
    * `Filter.Unquoted.read_literally_iff`
-/

namespace RelationalRest

namespace Filter

variable {cs held opening closing : List Char}
variable {quote : Char}

------------------------------------------------------------
-- Runs
------------------------------------------------------------

/- The last occurrence of a separator has none after it. -/
theorem cutLast_eq_some_iff
    {separator : Char}
    {l r : List Char} :
    cutLast separator cs = some (l, r) ↔
      cs = l ++ separator :: r ∧ separator ∉ r := by
  have hReverse :
      cs.reverse = r.reverse ++ separator :: l.reverse ↔
        cs = l ++ separator :: r := by
    rw [List.reverse_eq_iff]
    simp
  have hAfter : separator ∉ r ↔ separator ∉ r.reverse := by simp
  rw [← hReverse, hAfter, ← Text.cut_eq_some_iff]
  unfold cutLast
  rw [Option.map_eq_some_iff]
  constructor
  · rintro ⟨⟨after, before⟩, hCut, hParts⟩
    cases hParts
    simpa using hCut
  · intro hCut
    exact ⟨_, hCut, by simp⟩

/- There is no last occurrence exactly when there is none. -/
theorem cutLast_eq_none_iff {separator : Char} :
    cutLast separator cs = none ↔ separator ∉ cs := by
  rw [cutLast, Option.map_eq_none_iff, Text.cut_eq_none_iff,
    List.mem_reverse]

/- A run ends at the first quote. -/
theorem close?_of_quote
    (hHeld : ∀ ch ∈ held, isQuote ch = false)
    (hQuote : isQuote quote = true)
    (after : List Char) :
    close? (held ++ quote :: after) = some (held, after) := by
  have hPlain : ∀ ch ∈ held, (!isQuote ch) = true := by
    intro ch hCh
    rw [hHeld ch hCh]
    rfl
  unfold close?
  rw [List.dropWhile_append_of_pos hPlain,
    List.takeWhile_append_of_pos hPlain]
  simp [hQuote]

/- Without a quote, a run ends at the last bar. -/
theorem close?_of_unquoted
    (h : ∀ ch ∈ cs, isQuote ch = false) :
    close? cs = cutLast '|' cs := by
  have hNone : cs.dropWhile (!isQuote ·) = [] := by
    rw [List.dropWhile_eq_nil_iff]
    intro ch hCh
    rw [h ch hCh]
    rfl
  unfold close?
  rw [hNone]

/- A text without quotes and bars has no delimiter. -/
theorem forall_isDelimiter_eq_false
    (h : ∀ ch ∈ cs, isQuote ch = false)
    (hBar : '|' ∉ cs) :
    ∀ ch ∈ cs, isDelimiter ch = false := by
  intro ch hCh
  have hOther : ch ≠ '|' := by
    rintro rfl
    exact hBar hCh
  simp [isDelimiter, h ch hCh, hOther]

/- A text between two quotes is read without them. -/
theorem unquote_between_quotes
    {first last : Char}
    (hFirst : isQuote first = true)
    (hLast : isQuote last = true)
    (h : ∀ ch ∈ held, isQuote ch = false) :
    unquote (first :: held ++ [last]) = held := by
  have hOpens : isDelimiter first = true := by
    simp [isDelimiter, hFirst]
  simp [unquote, hOpens, close?_of_quote h hLast]

/- The first and the last bar of a text without quotes are lost. -/
theorem unquote_between_bars
    (hOpening : ∀ ch ∈ opening, isDelimiter ch = false)
    (hHeld : ∀ ch ∈ held, isQuote ch = false)
    (hClosing : ∀ ch ∈ closing, isDelimiter ch = false) :
    unquote (opening ++ '|' :: (held ++ '|' :: closing)) =
      opening ++ (held ++ closing) := by
  have hUnquoted :
      ∀ ch ∈ held ++ '|' :: closing, isQuote ch = false := by
    intro ch hCh
    rw [List.mem_append, List.mem_cons] at hCh
    rcases hCh with hCh | rfl | hCh
    · exact hHeld ch hCh
    · rfl
    · exact (Bool.or_eq_false_iff.mp (hClosing ch hCh)).1
  have hLast : '|' ∉ closing := by
    intro hBar
    cases hClosing '|' hBar
  have hRun :
      close? (held ++ '|' :: closing) = some (held, closing) := by
    rw [close?_of_unquoted hUnquoted]
    exact cutLast_eq_some_iff.mpr ⟨rfl, hLast⟩
  have hOpens : isDelimiter '|' = true := rfl
  rw [unquote_append hOpening]
  simp [unquote, hOpens, hRun]

/- What precedes the first bar of a text without quotes. -/
theorem exists_first_bar
    (h : ∀ ch ∈ cs, isQuote ch = false)
    (hBar : '|' ∈ cs) :
    ∃ opening rest,
      cs = opening ++ '|' :: rest ∧
        (∀ ch ∈ opening, isDelimiter ch = false) ∧
        opening.count '|' = 0 := by
  rcases List.eq_append_cons_of_mem hBar with
    ⟨opening, rest, rfl, hFirst⟩
  have hOpening : ∀ ch ∈ opening, isQuote ch = false :=
    fun ch hCh => h ch (by simp [hCh])
  exact
    ⟨opening, rest, rfl, forall_isDelimiter_eq_false hOpening hFirst,
      List.count_eq_zero.mpr hFirst⟩

/- A single bar delimits nothing. -/
theorem unquote_of_count_lt
    (h : ∀ ch ∈ cs, isQuote ch = false)
    (hBars : cs.count '|' < 2) :
    unquote cs = cs := by
  by_cases hBar : '|' ∈ cs
  · rcases exists_first_bar h hBar with
      ⟨opening, rest, rfl, hOpening, hCount⟩
    rw [List.count_append, List.count_cons_self] at hBars
    have hLast : '|' ∉ rest := by
      rw [← List.count_eq_zero]
      omega
    have hRest : ∀ ch ∈ rest, isQuote ch = false :=
      fun ch hCh => h ch (by simp [hCh])
    have hOpen : close? rest = none := by
      rw [close?_of_unquoted hRest]
      exact cutLast_eq_none_iff.mpr hLast
    have hPlain := forall_isDelimiter_eq_false hRest hLast
    have hOpens : isDelimiter '|' = true := rfl
    rw [unquote_append hOpening]
    simp [unquote, hOpens, hOpen, unquote_eq_self hPlain]
  · exact unquote_eq_self (forall_isDelimiter_eq_false h hBar)

/- Of two bars or more, two are lost. -/
theorem count_unquote
    (h : ∀ ch ∈ cs, isQuote ch = false)
    (hBars : 2 ≤ cs.count '|') :
    (unquote cs).count '|' + 2 = cs.count '|' := by
  have hBar : '|' ∈ cs := by
    rw [← List.count_pos_iff]
    omega
  rcases exists_first_bar h hBar with
    ⟨opening, rest, rfl, hOpening, hCount⟩
  have hSecond : '|' ∈ rest := by
    rw [List.count_append, List.count_cons_self] at hBars
    rw [← List.count_pos_iff]
    omega
  cases hCut : cutLast '|' rest with
  | none => exact absurd hSecond (cutLast_eq_none_iff.mp hCut)
  | some parts =>
      obtain ⟨held, closing⟩ := parts
      rcases cutLast_eq_some_iff.mp hCut with ⟨rfl, hLast⟩
      have hHeld : ∀ ch ∈ held, isQuote ch = false :=
        fun ch hCh => h ch (by simp [hCh])
      have hClosing : ∀ ch ∈ closing, isQuote ch = false :=
        fun ch hCh => h ch (by simp [hCh])
      rw [unquote_between_bars hOpening hHeld
        (forall_isDelimiter_eq_false hClosing hLast)]
      simp only [List.count_append, List.count_cons_self]
      omega

------------------------------------------------------------
-- Bars in pairs
------------------------------------------------------------

/- The pairs that the value of a relation holds, in order. -/
def pairsIn (value : String) : List (String × String) :=
  (Text.split ',' (String.ofList (unquote value.toList))).map pairOf

/- The filters of a value are its pairs, collected. -/
theorem subrequests_eq (value : String) :
    subrequests value = Fields.ofList (pairsIn value) :=
  rfl

/- The bars in names and values. -/
def barCount (pairs : List (String × String)) : Nat :=
  (pairs.flatMap fun pair => pair.1.toList ++ pair.2.toList).count
    '|'

/- The bars of a pair and of more pairs. -/
theorem barCount_cons
    (pair : String × String)
    (pairs : List (String × String)) :
    barCount (pair :: pairs) =
      pair.1.toList.count '|' + pair.2.toList.count '|' +
        barCount pairs := by
  rw [barCount, List.flatMap_cons, List.count_append,
    List.count_append]
  rfl

/- The bars of pairs and of more pairs. -/
theorem barCount_append (pairs more : List (String × String)) :
    barCount (pairs ++ more) = barCount pairs + barCount more := by
  simp [barCount]

/- A piece is taken apart without losing a bar. -/
theorem count_pairOf (s : String) :
    (pairOf s).1.toList.count '|' + (pairOf s).2.toList.count '|' =
      s.toList.count '|' := by
  unfold pairOf
  cases hCut : Text.cut '=' s.toList with
  | none => simp
  | some parts =>
      obtain ⟨name, value⟩ := parts
      have hParts := (Text.cut_eq_some_iff.mp hCut).1
      simp [hParts]

/- A text is taken apart into pairs without losing a bar. -/
theorem barCount_split (s : String) :
    barCount ((Text.split ',' s).map pairOf) =
      s.toList.count '|' := by
  have hSeparator : '|' ≠ ',' := by decide
  rw [← Text.count_split hSeparator s]
  induction Text.split ',' s with
  | nil => rfl
  | cons piece pieces ih =>
      rw [List.map_cons, barCount_cons, count_pairOf, ih,
        List.flatMap_cons, List.count_append]

/- The pairs of a value have the bars that are left of it. -/
theorem barCount_pairsIn (value : String) :
    barCount (pairsIn value) =
      (unquote value.toList).count '|' := by
  rw [pairsIn, barCount_split, String.toList_ofList]

/- Storing a value adds no bar but those of its pair. -/
theorem barCount_insert_le
    (m : Fields String)
    (name value : String) :
    barCount (Fields.insert m name value) ≤
      barCount (m ++ [(name, value)]) := by
  induction m with
  | nil => exact Nat.le_refl _
  | cons entry m ih =>
      obtain ⟨k, v⟩ := entry
      by_cases hk : k = name
      · rw [Fields.insert, if_pos hk, List.cons_append, hk,
          barCount_cons, barCount_cons, barCount_append,
          barCount_cons]
        omega
      · rw [Fields.insert, if_neg hk, List.cons_append,
          barCount_cons, barCount_cons]
        exact Nat.add_le_add_left ih _

/- Collecting pairs adds no bar. -/
theorem barCount_ofList_le (pairs : List (String × String)) :
    barCount (Fields.ofList pairs) ≤ barCount pairs := by
  induction pairs using List.reverseRecOn with
  | nil => exact Nat.le_refl _
  | append_singleton pairs pair ih =>
      obtain ⟨name, value⟩ := pair
      rw [Fields.ofList_append_singleton]
      refine (barCount_insert_le _ name value).trans ?_
      rw [barCount_append, barCount_append]
      exact Nat.add_le_add_right ih _

------------------------------------------------------------
-- Pairs without quotes
------------------------------------------------------------

/-
  Pairs that can be told apart when they are written, and in
  which no quote stands.
-/
structure Unquoted (pairs : List (String × String)) : Prop
    extends Separable pairs where
  unquoted :
    ∀ pair ∈ pairs, ∀ ch ∈ pair.1.toList ++ pair.2.toList,
      isQuote ch = false

/- A text between two characters. -/
def enclosed (first last : Char) (s : String) : String :=
  String.singleton first ++ s ++ String.singleton last

namespace Unquoted

variable {pairs : List (String × String)}

/- No quote stands in the text of such pairs. -/
theorem written_unquoted
    (h : Unquoted pairs) :
    ∀ ch ∈ (written pairs).toList, isQuote ch = false :=
  forall_mem_written rfl rfl h.unquoted

/- Pairs between quotes are read as they are written. -/
theorem pairsIn_enclosed
    {first last : Char}
    (h : Unquoted pairs)
    (hFirst : isQuote first = true)
    (hLast : isQuote last = true) :
    pairsIn (enclosed first last (written pairs)) = pairs := by
  have hText :
      (enclosed first last (written pairs)).toList =
        first :: (written pairs).toList ++ [last] := by
    simp [enclosed]
  rw [pairsIn, hText,
    unquote_between_quotes hFirst hLast h.written_unquoted,
    String.ofList_toList, h.read_written]

/- Pairs have the bars of their text. -/
theorem barCount_eq
    (h : Unquoted pairs) :
    barCount pairs = (written pairs).toList.count '|' := by
  have hSplit := barCount_split (written pairs)
  rwa [h.read_written] at hSplit

/- Pairs with fewer than two bars are read as they are written. -/
theorem pairsIn_written
    (h : Unquoted pairs)
    (hBars : (written pairs).toList.count '|' < 2) :
    pairsIn (written pairs) = pairs := by
  rw [pairsIn, unquote_of_count_lt h.written_unquoted hBars,
    String.ofList_toList, h.read_written]

/- Of pairs with two bars or more, two bars are lost. -/
theorem barCount_pairsIn_written
    (h : Unquoted pairs)
    (hBars : 2 ≤ (written pairs).toList.count '|') :
    barCount (pairsIn (written pairs)) + 2 = barCount pairs := by
  rw [barCount_pairsIn, h.barCount_eq]
  exact count_unquote h.written_unquoted hBars

/-
  Between two quotes, pairs without quotes are read as they are
  written, each name once with its last value.  Without quotes
  around them they are if they have fewer than two bars in all,
  and otherwise other pairs are read; if no name is repeated,
  then the filters are other ones, too.
-/
theorem read_literally_iff
    (h : Unquoted pairs) :
    (∀ first last,
      isQuote first = true → isQuote last = true →
        pairsIn (enclosed first last (written pairs)) = pairs ∧
          Fields.Collects pairs
            (subrequests (enclosed first last (written pairs)))) ∧
      (pairsIn (written pairs) = pairs ↔
        (written pairs).toList.count '|' < 2) ∧
      ((written pairs).toList.count '|' < 2 →
        Fields.Collects pairs (subrequests (written pairs))) ∧
      (Fields.Distinct pairs →
        (subrequests (written pairs) = pairs ↔
          (written pairs).toList.count '|' < 2)) := by
  refine ⟨?_, ⟨?_, h.pairsIn_written⟩, ?_, fun hDistinct => ⟨?_, ?_⟩⟩
  · intro first last hFirst hLast
    have hPairs := h.pairsIn_enclosed hFirst hLast
    refine ⟨hPairs, ?_⟩
    rw [subrequests_eq, hPairs]
    exact Fields.collects_ofList pairs
  · intro hPairs
    by_contra hBars
    have hLost := h.barCount_pairsIn_written (Nat.le_of_not_lt hBars)
    rw [hPairs] at hLost
    omega
  · intro hBars
    rw [subrequests_eq, h.pairsIn_written hBars]
    exact Fields.collects_ofList pairs
  · intro hFilters
    by_contra hBars
    have hLost := h.barCount_pairsIn_written (Nat.le_of_not_lt hBars)
    have hKept := barCount_ofList_le (pairsIn (written pairs))
    rw [← subrequests_eq, hFilters] at hKept
    omega
  · intro hBars
    rw [subrequests_eq, h.pairsIn_written hBars]
    exact Fields.ofList_eq_self hDistinct

end Unquoted

------------------------------------------------------------
-- Members by names with bars
------------------------------------------------------------

/- Members by their names and keys; there is a bar in one name. -/
def pairsWithBar : List (String × String) :=
  [("name", "~a=b|"), ("id", ">2")]

/- No quote stands in these pairs. -/
theorem unquoted_pairsWithBar : Unquoted pairsWithBar where
  nonempty := by decide
  names := by decide
  values := by decide
  unquoted := forall_chars_of_all (by decide)

/- Two filters with one bar are read as they are written. -/
theorem Unquoted.read_literally_iff_sample :
    Unquoted pairsWithBar ∧ Fields.Distinct pairsWithBar ∧
      isQuote '"' = true ∧
      Fields.Collects pairsWithBar
        (subrequests (enclosed '"' '"' (written pairsWithBar))) ∧
      (written pairsWithBar).toList.count '|' < 2 ∧
      subrequests (written pairsWithBar) = pairsWithBar := by
  have hDistinct : Fields.Distinct pairsWithBar := by decide
  have hBars : (written pairsWithBar).toList.count '|' < 2 := by
    decide
  have hRead := read_literally_iff unquoted_pairsWithBar
  exact
    ⟨unquoted_pairsWithBar, hDistinct, rfl,
      (hRead.1 '"' '"' rfl rfl).2, hBars,
      (hRead.2.2.2 hDistinct).mpr hBars⟩

/- Bars around a name are lost, as if they were quotes. -/
theorem exists_not_read_literally :
    Unquoted [("name", "|x|")] ∧
      written [("name", "|x|")] = "name=|x|" ∧
      subrequests "name=|x|" = [("name", "x")] ∧
      ¬ Fields.Collects [("name", "|x|")]
        (subrequests (written [("name", "|x|")])) ∧
      (apply .sample .sample [("creator", "name=|x|")]
          { root := Resource.sample.table }).query.conditions =
        [.compare ⟨"creator", "name"⟩ .like (.string "x")] := by
  refine ⟨⟨⟨by decide, by decide, by decide⟩,
    forall_chars_of_all (by decide)⟩, rfl, rfl, ?_, rfl⟩
  intro h
  have hValue := h.values "name"
  exact absurd hValue (by decide)

end Filter

end RelationalRest
