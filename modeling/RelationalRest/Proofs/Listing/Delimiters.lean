import Mathlib.Data.Nat.Find
import Mathlib.Order.Bounds.Basic
import RelationalRest.Proofs.Listing.Quoting

/-
  Which two characters of a value are taken for the delimiters
  of a quoted run.  The pattern of such a run is a delimiter,
  any characters but quotes, and a delimiter again; so one
  delimiter can be closed by any later one, as long as no quote
  stands between them.  The run begins as far left as it can
  and holds as much as it can: the first delimiter that can be
  closed opens it, and of those that can close it the last one
  does.  That is the first quote after it, and the last bar if
  there is no quote after it.  No other character is lost.

  Key definitions include:
    * `Filter.At`
    * `Filter.Ends`
    * `Filter.Closes`
    * `Filter.Delimits`
    * `Filter.stripped`

  Main declarations:
    * `Filter.isGreatest_ends`
    * `Filter.Delimits.isLeast_quote`
    * `Filter.Delimits.isGreatest_bar`
    * `Filter.unquote_cases`
    * `Filter.strips_delimiters`
-/

namespace RelationalRest

namespace Filter

variable {kind : Char → Bool}
variable {c : Char}
variable {cs held after : List Char}
variable {i j k : Nat}

------------------------------------------------------------
-- Positions
------------------------------------------------------------

/- A character of a kind stands at a position. -/
def At (kind : Char → Bool) (cs : List Char) (k : Nat) : Prop :=
  cs[k]?.any kind = true

instance : Decidable (At kind cs k) :=
  inferInstanceAs (Decidable (_ = true))

/- The character that stands at a position. -/
theorem at_iff :
    At kind cs k ↔ ∃ ch, cs[k]? = some ch ∧ kind ch = true :=
  Option.any_eq_true kind cs[k]?

/- Characters stand within the text. -/
theorem At.lt_length (h : At kind cs k) : k < cs.length := by
  obtain ⟨ch, hCh, -⟩ := at_iff.mp h
  exact (List.getElem?_eq_some_iff.mp hCh).1

/- A quote is a delimiter, wherever it stands. -/
theorem At.delimiter
    (h : At isQuote cs k) :
    At isDelimiter cs k := by
  obtain ⟨ch, hCh, hQuote⟩ := at_iff.mp h
  exact at_iff.mpr ⟨ch, hCh, by simp [isDelimiter, hQuote]⟩

/- A delimiter that is no quote is a bar. -/
theorem At.bar
    (h : At isDelimiter cs k)
    (hQuote : ¬ At isQuote cs k) :
    cs[k]? = some '|' := by
  obtain ⟨ch, hCh, hDelimiter⟩ := at_iff.mp h
  have hPlain : isQuote ch = false := by
    by_contra hOther
    exact hQuote (at_iff.mpr ⟨ch, hCh, by simpa using hOther⟩)
  have hBar : ch = '|' := by
    simpa [isDelimiter, hPlain] using hDelimiter
  rw [hCh, hBar]

/- A bar is a delimiter, wherever it stands. -/
theorem at_delimiter_of_bar
    (h : cs[k]? = some '|') :
    At isDelimiter cs k :=
  at_iff.mpr ⟨'|', h, rfl⟩

/- A kind that no character is of stands nowhere. -/
theorem not_at
    (h : ∀ ch ∈ cs, kind ch = false) :
    ¬ At kind cs k := by
  intro hAt
  obtain ⟨ch, hCh, hKind⟩ := at_iff.mp hAt
  rw [h ch (List.mem_of_getElem? hCh)] at hKind
  cases hKind

/- What stands first. -/
theorem at_cons_zero : At kind (c :: cs) 0 ↔ kind c = true := by
  simp [At]

/- What stands after the first character. -/
theorem at_cons_succ :
    At kind (c :: cs) (k + 1) ↔ At kind cs k :=
  Iff.rfl

/- What stands in the first part of a text. -/
theorem at_append_left
    (hk : k < held.length) :
    At kind (held ++ after) k ↔ At kind held k := by
  rw [At, List.getElem?_append_left hk, At]

/- What stands between two parts of a text. -/
theorem at_middle :
    At kind (held ++ c :: after) held.length ↔ kind c = true := by
  simp [At]

/- What stands in the last part of a text. -/
theorem at_append_right
    (hk : held.length < k) :
    At kind (held ++ c :: after) k ↔
      At kind after (k - held.length - 1) := by
  have hAfter : k - held.length = k - held.length - 1 + 1 := by omega
  rw [At, List.getElem?_append_right hk.le, hAfter,
    List.getElem?_cons_succ, At]
  rfl

------------------------------------------------------------
-- Where an opened run ends
------------------------------------------------------------

/- A run that is opened before a text can end at a position. -/
structure Ends (cs : List Char) (j : Nat) : Prop where
  delimiter : At isDelimiter cs j
  unquoted : ∀ k < j, ¬ At isQuote cs k

/- A text has no quote, or a first one. -/
theorem first_quote_cases (cs : List Char) :
    (∀ ch ∈ cs, isQuote ch = false) ∨
      ∃ held quote after,
        cs = held ++ quote :: after ∧ isQuote quote = true ∧
          ∀ ch ∈ held, isQuote ch = false := by
  cases hFind : cs.find? isQuote with
  | none =>
      left
      simpa using hFind
  | some quote =>
      obtain ⟨hQuote, held, after, hParts, hHeld⟩ :=
        List.find?_eq_some_iff_append.mp hFind
      right
      exact
        ⟨held, quote, after, hParts, hQuote, by simpa using hHeld⟩

/-
  A run is closed by a delimiter with no quote before it, which
  is a quote or a bar after which no delimiter follows.
-/
theorem exists_of_close?_eq_some
    (h : close? cs = some (held, after)) :
    ∃ last,
      cs = held ++ last :: after ∧
        (∀ ch ∈ held, isQuote ch = false) ∧
        (isQuote last = true ∨
          last = '|' ∧ ∀ ch ∈ after, isDelimiter ch = false) := by
  rcases first_quote_cases cs with
    hPlain | ⟨l, quote, r, rfl, hQuote, hHeld⟩
  · rw [close?_of_unquoted hPlain] at h
    obtain ⟨rfl, hLast⟩ := cutLast_eq_some_iff.mp h
    have hHeld : ∀ ch ∈ held, isQuote ch = false :=
      fun ch hCh => hPlain ch (by simp [hCh])
    have hAfter : ∀ ch ∈ after, isQuote ch = false :=
      fun ch hCh => hPlain ch (by simp [hCh])
    exact
      ⟨'|', rfl, hHeld,
        .inr ⟨rfl, forall_isDelimiter_eq_false hAfter hLast⟩⟩
  · rw [close?_of_quote hHeld hQuote] at h
    cases h
    exact ⟨quote, rfl, hHeld, .inl hQuote⟩

/- A run is not closed only if no delimiter follows. -/
theorem forall_of_close?_eq_none
    (h : close? cs = none) :
    ∀ ch ∈ cs, isDelimiter ch = false := by
  rcases first_quote_cases cs with
    hPlain | ⟨l, quote, r, rfl, hQuote, hHeld⟩
  · rw [close?_of_unquoted hPlain, cutLast_eq_none_iff] at h
    exact forall_isDelimiter_eq_false hPlain h
  · rw [close?_of_quote hHeld hQuote] at h
    cases h

/- A run that is closed ends at the last position where it can. -/
theorem isGreatest_ends
    (h : close? cs = some (held, after)) :
    IsGreatest {j | Ends cs j} held.length := by
  obtain ⟨last, rfl, hHeld, hLast⟩ := exists_of_close?_eq_some h
  constructor
  · refine ⟨at_middle.mpr ?_, fun k hk hQuote => ?_⟩
    · rcases hLast with hQuote | ⟨rfl, -⟩
      · simp [isDelimiter, hQuote]
      · rfl
    · exact not_at hHeld ((at_append_left hk).mp hQuote)
  · intro j hEnds
    by_contra hLater
    have hj : held.length < j := Nat.lt_of_not_le hLater
    rcases hLast with hQuote | ⟨-, hAfter⟩
    · exact hEnds.unquoted _ hj (at_middle.mpr hQuote)
    · exact not_at hAfter ((at_append_right hj).mp hEnds.delimiter)

/- What a closed run holds and what follows it is all but its end. -/
theorem eraseIdx_of_close?
    (h : close? cs = some (held, after)) :
    cs.eraseIdx held.length = held ++ after := by
  obtain ⟨last, rfl, -, -⟩ := exists_of_close?_eq_some h
  rw [List.eraseIdx_append_of_length_le (Nat.le_refl _)]
  simp

/- A run that is not closed can end nowhere. -/
theorem not_ends (h : close? cs = none) : ¬ Ends cs j :=
  fun hEnds => not_at (forall_of_close?_eq_none h) hEnds.delimiter

------------------------------------------------------------
-- The delimiters of a run
------------------------------------------------------------

/-
  A delimiter can be closed by another one: it stands before
  it, and no quote stands between them.
-/
structure Closes (cs : List Char) (i j : Nat) : Prop where
  opening : At isDelimiter cs i
  closing : At isDelimiter cs j
  before : i < j
  unquoted : ∀ k, i < k → k < j → ¬ At isQuote cs k

instance : Decidable (Closes cs i j) :=
  decidable_of_iff
    (At isDelimiter cs i ∧ At isDelimiter cs j ∧ i < j ∧
      ∀ k < j, i < k → ¬ At isQuote cs k)
    ⟨fun ⟨hi, hj, hij, h⟩ =>
      ⟨hi, hj, hij, fun k hAfter hBefore => h k hBefore hAfter⟩,
    fun h =>
      ⟨h.opening, h.closing, h.before,
        fun k hBefore hAfter => h.unquoted k hAfter hBefore⟩⟩

/-
  The delimiters that are taken: the first that can be closed,
  and of those that can close it the last.
-/
structure Delimits (cs : List Char) (i j : Nat) : Prop where
  opening : IsLeast {k | ∃ l, Closes cs k l} i
  closing : IsGreatest {l | Closes cs i l} j

/- An opening delimiter is closed where its run can end. -/
theorem closes_cons_zero :
    Closes (c :: cs) 0 (j + 1) ↔
      isDelimiter c = true ∧ Ends cs j := by
  constructor
  · intro h
    refine
      ⟨at_cons_zero.mp h.opening, at_cons_succ.mp h.closing, ?_⟩
    intro k hk hQuote
    exact
      h.unquoted (k + 1) (Nat.succ_pos k) (Nat.succ_lt_succ hk)
        (at_cons_succ.mpr hQuote)
  · rintro ⟨hOpens, hEnds⟩
    refine
      ⟨at_cons_zero.mpr hOpens, at_cons_succ.mpr hEnds.delimiter,
        Nat.succ_pos j, ?_⟩
    intro k hAfter hBefore hQuote
    obtain ⟨n, rfl⟩ := Nat.exists_eq_succ_of_ne_zero hAfter.ne'
    exact
      hEnds.unquoted n (Nat.lt_of_succ_lt_succ hBefore)
        (at_cons_succ.mp hQuote)

/- Delimiters after the first character. -/
theorem closes_cons_succ :
    Closes (c :: cs) (i + 1) (j + 1) ↔ Closes cs i j := by
  constructor
  · intro h
    refine
      ⟨at_cons_succ.mp h.opening, at_cons_succ.mp h.closing,
        Nat.lt_of_succ_lt_succ h.before, ?_⟩
    intro k hAfter hBefore hQuote
    exact
      h.unquoted (k + 1) (Nat.succ_lt_succ hAfter)
        (Nat.succ_lt_succ hBefore) (at_cons_succ.mpr hQuote)
  · intro h
    refine
      ⟨at_cons_succ.mpr h.opening, at_cons_succ.mpr h.closing,
        Nat.succ_lt_succ h.before, ?_⟩
    intro k hAfter hBefore hQuote
    obtain ⟨n, rfl⟩ :=
      Nat.exists_eq_succ_of_ne_zero (Nat.ne_zero_of_lt hAfter)
    exact
      h.unquoted n (Nat.lt_of_succ_lt_succ hAfter)
        (Nat.lt_of_succ_lt_succ hBefore) (at_cons_succ.mp hQuote)

/-
  Delimiters of a text are its first character and the end of
  the run it opens, or delimiters of what follows it.
-/
theorem Closes.cons_cases
    (h : Closes (c :: cs) i j) :
    (i = 0 ∧ isDelimiter c = true ∧
      ∃ l, j = l + 1 ∧ Ends cs l) ∨
      ∃ k l, i = k + 1 ∧ j = l + 1 ∧ Closes cs k l := by
  obtain ⟨l, rfl⟩ :=
    Nat.exists_eq_succ_of_ne_zero (Nat.ne_zero_of_lt h.before)
  cases i with
  | zero =>
      obtain ⟨hOpens, hEnds⟩ := closes_cons_zero.mp h
      exact .inl ⟨rfl, hOpens, l, rfl, hEnds⟩
  | succ k => exact .inr ⟨k, l, rfl, rfl, closes_cons_succ.mp h⟩

/- The delimiters of a run that the first character opens. -/
theorem Delimits.of_head
    (hOpens : isDelimiter c = true)
    (h : IsGreatest {l | Ends cs l} j) :
    Delimits (c :: cs) 0 (j + 1) where
  opening :=
    ⟨⟨j + 1, closes_cons_zero.mpr ⟨hOpens, h.1⟩⟩,
      fun k _ => Nat.zero_le k⟩
  closing := by
    refine ⟨closes_cons_zero.mpr ⟨hOpens, h.1⟩, ?_⟩
    intro l hCloses
    rcases hCloses.cons_cases with
      ⟨-, -, n, rfl, hEnds⟩ | ⟨k, -, hk, -, -⟩
    · exact Nat.succ_le_succ (h.2 hEnds)
    · cases hk

/- The delimiters of a run after a first character that opens none. -/
theorem Delimits.of_tail
    (hHead : isDelimiter c = true → ∀ l, ¬ Ends cs l)
    (h : Delimits cs i j) :
    Delimits (c :: cs) (i + 1) (j + 1) where
  opening := by
    refine ⟨⟨j + 1, closes_cons_succ.mpr h.closing.1⟩, ?_⟩
    rintro k ⟨l, hCloses⟩
    rcases hCloses.cons_cases with
      ⟨-, hOpens, n, -, hEnds⟩ | ⟨m, n, rfl, -, hRest⟩
    · exact absurd hEnds (hHead hOpens n)
    · exact Nat.succ_le_succ (h.opening.2 ⟨n, hRest⟩)
  closing := by
    refine ⟨closes_cons_succ.mpr h.closing.1, ?_⟩
    intro l hCloses
    rcases hCloses.cons_cases with
      ⟨hk, -, -, -, -⟩ | ⟨m, n, hm, rfl, hRest⟩
    · cases hk
    · cases hm
      exact Nat.succ_le_succ (h.closing.2 hRest)

namespace Delimits

/-
  A run that a quote follows is closed by the first quote after
  its opening.
-/
theorem isLeast_quote
    (h : Delimits cs i j)
    (hQuote : ∃ k, i < k ∧ At isQuote cs k) :
    IsLeast {k | i < k ∧ At isQuote cs k} j := by
  have hFirst :
      IsLeast {k | i < k ∧ At isQuote cs k} (Nat.find hQuote) :=
    ⟨Nat.find_spec hQuote, fun k hk => Nat.find_min' hQuote hk⟩
  have hCloses : Closes cs i (Nat.find hQuote) :=
    { opening := h.closing.1.opening
      closing := hFirst.1.2.delimiter
      before := hFirst.1.1
      unquoted := fun k hAfter hBefore hk =>
        Nat.find_min hQuote hBefore ⟨hAfter, hk⟩ }
  have hEarlier : ¬ Nat.find hQuote < j := fun hBefore =>
    h.closing.1.unquoted _ hFirst.1.1 hBefore hFirst.1.2
  have hLast : j = Nat.find hQuote :=
    le_antisymm (Nat.le_of_not_lt hEarlier) (h.closing.2 hCloses)
  rwa [hLast]

/- A run that no quote follows is closed by the last bar. -/
theorem isGreatest_bar
    (h : Delimits cs i j)
    (hQuote : ∀ k, i < k → ¬ At isQuote cs k) :
    IsGreatest {k | cs[k]? = some '|'} j := by
  have hCloses := h.closing.1
  refine ⟨hCloses.closing.bar (hQuote j hCloses.before), ?_⟩
  intro k hBar
  rcases Nat.lt_or_ge i k with hAfter | hBefore
  · exact h.closing.2
      { opening := hCloses.opening
        closing := at_delimiter_of_bar hBar
        before := hAfter
        unquoted := fun l hl _ => hQuote l hl }
  · exact hBefore.trans hCloses.before.le

/- Two characters are lost with the delimiters. -/
theorem length_erased
    (h : Delimits cs i j) :
    ((cs.eraseIdx j).eraseIdx i).length + 2 = cs.length := by
  have hBefore := h.closing.1.before
  have hWithin := h.closing.1.closing.lt_length
  have hOne : (cs.eraseIdx j).length + 1 = cs.length := by
    rw [List.length_eraseIdx_of_lt hWithin]
    omega
  rw [List.length_eraseIdx_of_lt (by omega)]
  omega

end Delimits

------------------------------------------------------------
-- What is left of a value
------------------------------------------------------------

/- A first character that opens a run is lost with its end. -/
theorem unquote_cons_of_run
    (hOpens : isDelimiter c = true)
    (h : close? cs = some (held, after)) :
    unquote (c :: cs) = held ++ after := by
  simp [unquote, hOpens, h]

/- A first character that opens no run is kept. -/
theorem unquote_cons_of_no_run
    (h : isDelimiter c = true → close? cs = none) :
    unquote (c :: cs) = c :: unquote cs := by
  cases hOpens : isDelimiter c with
  | false => simp [unquote, hOpens]
  | true => simp [unquote, hOpens, h hOpens]

/-
  Nothing is lost of a text in which no delimiter can be
  closed, and otherwise the two delimiters that are taken.
-/
theorem unquote_cases (cs : List Char) :
    ((∀ i j, ¬ Closes cs i j) ∧ unquote cs = cs) ∨
      ∃ i j, Delimits cs i j ∧
        unquote cs = (cs.eraseIdx j).eraseIdx i := by
  induction cs with
  | nil =>
      left
      refine ⟨fun i j h => ?_, rfl⟩
      cases h.opening.lt_length
  | cons c rest ih =>
      by_cases hOpen : isDelimiter c = true → close? rest = none
      · -- No run begins here, and all positions are one further on.
        have hHead : isDelimiter c = true → ∀ l, ¬ Ends rest l :=
          fun hOpens _ => not_ends (hOpen hOpens)
        rw [unquote_cons_of_no_run hOpen]
        rcases ih with ⟨hNone, hRest⟩ | ⟨i, j, hDelimits, hRest⟩
        · left
          refine ⟨fun i j h => ?_, by rw [hRest]⟩
          rcases h.cons_cases with
            ⟨-, hOpens, l, -, hEnds⟩ | ⟨k, l, -, -, hCloses⟩
          · exact hHead hOpens l hEnds
          · exact hNone k l hCloses
        · right
          refine ⟨i + 1, j + 1, hDelimits.of_tail hHead, ?_⟩
          rw [List.eraseIdx_cons_succ, List.eraseIdx_cons_succ,
            hRest]
      · obtain ⟨hOpens, hClosed⟩ := Classical.not_imp.mp hOpen
        obtain ⟨⟨held, after⟩, hRun⟩ :=
          Option.ne_none_iff_exists'.mp hClosed
        right
        refine
          ⟨0, held.length + 1,
            .of_head hOpens (isGreatest_ends hRun), ?_⟩
        rw [unquote_cons_of_run hOpens hRun,
          List.eraseIdx_cons_succ, List.eraseIdx_cons_zero,
          eraseIdx_of_close? hRun]

/- The text that is taken apart at its commas. -/
def stripped (value : String) : String :=
  String.ofList (unquote value.toList)

/-
  The filters of a value are the pairs between the commas of a
  text.  It is the value itself if no delimiter can be closed,
  and otherwise the value without two characters: the first
  delimiter that can be closed, and the last one that can close
  it, which is the first quote after it, or the last bar if no
  quote is after it.
-/
theorem strips_delimiters (value : String) :
    subrequests value =
        Fields.ofList
          ((Text.split ',' (stripped value)).map pairOf) ∧
      ((∀ i j, ¬ Closes value.toList i j) →
        stripped value = value) ∧
      ((∃ i j, Closes value.toList i j) →
        ∃ i j,
          Delimits value.toList i j ∧
            ((∃ k, i < k ∧ At isQuote value.toList k) →
              IsLeast {k | i < k ∧ At isQuote value.toList k} j) ∧
            ((∀ k, i < k → ¬ At isQuote value.toList k) →
              IsGreatest {k | value.toList[k]? = some '|'} j) ∧
            (stripped value).toList =
              (value.toList.eraseIdx j).eraseIdx i ∧
            (stripped value).length + 2 = value.length) := by
  rcases unquote_cases value.toList with
    ⟨hNone, hKept⟩ | ⟨i, j, hDelimits, hErased⟩
  · refine ⟨rfl, fun _ => ?_, fun ⟨i, j, hCloses⟩ => ?_⟩
    · rw [stripped, hKept, String.ofList_toList]
    · exact absurd hCloses (hNone i j)
  · refine
      ⟨rfl, fun hNone => ?_, fun _ =>
        ⟨i, j, hDelimits, hDelimits.isLeast_quote,
          hDelimits.isGreatest_bar, ?_, ?_⟩⟩
    · exact absurd hDelimits.closing.1 (hNone i j)
    · rw [stripped, String.toList_ofList, hErased]
    · rw [stripped, String.length_ofList, hErased,
        hDelimits.length_erased, String.length_toList]

/- A bar and a quote delimit a run, and a single bar does not. -/
theorem strips_delimiters_sample :
    Closes "name=|a\"b|".toList 5 7 ∧
      (∃ i j,
        Delimits "name=|a\"b|".toList i j ∧
          (stripped "name=|a\"b|").toList =
            ("name=|a\"b|".toList.eraseIdx j).eraseIdx i) ∧
      (∀ i j, ¬ Closes "name=|a".toList i j) ∧
      stripped "name=|a" = "name=|a" := by
  have hCloses : Closes "name=|a\"b|".toList 5 7 := by decide
  have hNone : ∀ i j, ¬ Closes "name=|a".toList i j := by
    intro i j h
    have hBefore :
        ∀ j < 7, ∀ i < j, ¬ Closes "name=|a".toList i j := by
      decide
    exact hBefore j h.closing.lt_length i h.before h
  obtain ⟨i, j, hDelimits, -, -, hText, -⟩ :=
    (strips_delimiters "name=|a\"b|").2.2 ⟨5, 7, hCloses⟩
  exact
    ⟨hCloses, ⟨i, j, hDelimits, hText⟩, hNone,
      (strips_delimiters "name=|a").2.1 hNone⟩

/- A bar that opens a run is closed by a quote that follows. -/
example : stripped "name=|a\"b|" = "name=ab|" := by decide

/- A quote that none follows opens a run up to the last bar. -/
example : stripped "name=\"a|b|" = "name=a|b" := by decide

end Filter

end RelationalRest
