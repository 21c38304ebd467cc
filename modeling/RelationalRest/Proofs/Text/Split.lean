import RelationalRest.Text.Cut

/-
  Texts cut at a separator: what the pieces are, that none of
  them holds the separator, that pieces without it are found
  again in the text that they are joined to, and that nothing
  but separators is lost.

  Main declarations:
    * `Text.split_append`
    * `Text.eq_append_of_split`
    * `Text.not_mem_of_mem_split`
    * `Text.split_intercalate`
    * `Text.count_split`
-/

namespace RelationalRest

namespace Text

variable {separator : Char}

/- What precedes the first separator is the first piece. -/
theorem split_append
    {opening : String}
    (h : separator ∉ opening.toList)
    (rest : String) :
    split separator
        (opening ++ String.singleton separator ++ rest) =
      opening :: split separator rest := by
  have hText :
      (opening ++ String.singleton separator ++ rest).toList =
        opening.toList ++ separator :: rest.toList := by
    simp
  rw [split, hText, List.splitOn_append_cons_self_of_not_mem h,
    List.map_cons, String.ofList_toList]
  rfl

/- A text without a separator is its only piece. -/
theorem split_eq_singleton
    {s : String}
    (h : separator ∉ s.toList) :
    split separator s = [s] := by
  rw [split, List.splitOn_eq_singleton h, List.map_singleton,
    String.ofList_toList]

/- A text has one piece at least. -/
theorem split_ne_nil
    (separator : Char)
    (s : String) :
    split separator s ≠ [] := by
  rw [split, Ne, List.map_eq_nil_iff]
  exact List.splitOn_ne_nil _ _

/- A text with a separator has more than one piece. -/
theorem exists_split_of_mem
    {s : String}
    (h : separator ∈ s.toList) :
    ∃ first second rest,
      split separator s = first :: second :: rest := by
  rcases List.eq_append_cons_of_mem h with
    ⟨opening, later, hParts, hFirst⟩
  rw [split, hParts,
    List.splitOn_append_cons_self_of_not_mem hFirst]
  cases hLater : later.splitOn separator with
  | nil => exact absurd hLater (List.splitOn_ne_nil _ _)
  | cons second rest => exact ⟨_, _, _, rfl⟩

/- The pieces, with separators between them, are the text. -/
theorem eq_append_of_split
    {s first second : String}
    (h : split separator s = [first, second]) :
    s = first ++ String.singleton separator ++ second := by
  have hPieces :
      s.toList.splitOn separator =
        [first.toList, second.toList] := by
    simpa [split, Function.comp_def] using
      congrArg (List.map String.toList) h
  have hWhole :
      [separator].intercalate (s.toList.splitOn separator) =
        s.toList :=
    List.intercalate_splitOn separator
  apply String.toList_inj.mp
  rw [← hWhole, hPieces]
  simp [List.intercalate]

/- No part of a list between separators holds a separator. -/
theorem not_mem_of_mem_splitOn
    {cs part : List Char}
    (h : part ∈ cs.splitOn separator) :
    separator ∉ part := by
  induction cs generalizing part with
  | nil =>
      rw [List.splitOn_nil, List.mem_singleton] at h
      rw [h]
      exact List.not_mem_nil
  | cons ch rest ih =>
      rw [List.splitOn_cons_eq_if_modifyHead] at h
      by_cases hch : (ch == separator) = true
      · rw [if_pos hch] at h
        rcases List.mem_cons.mp h with rfl | hLater
        · exact List.not_mem_nil
        · exact ih hLater
      · rw [if_neg hch] at h
        cases hParts : rest.splitOn separator with
        | nil => exact absurd hParts (List.splitOn_ne_nil _ _)
        | cons first later =>
            rw [hParts, List.modifyHead_cons] at h
            rcases List.mem_cons.mp h with rfl | hLater
            · have hFirst := ih (hParts ▸ List.mem_cons_self)
              have hNe : separator ≠ ch := by
                rintro rfl
                exact hch (beq_self_eq_true separator)
              exact List.not_mem_cons_of_ne_of_not_mem hNe hFirst
            · exact ih (hParts ▸ List.mem_cons_of_mem _ hLater)

/- No piece of a text holds the separator. -/
theorem not_mem_of_mem_split
    {s piece : String}
    (h : piece ∈ split separator s) :
    separator ∉ piece.toList := by
  rcases List.mem_map.mp h with ⟨part, hPart, rfl⟩
  rw [String.toList_ofList]
  exact not_mem_of_mem_splitOn hPart

/- Pieces without separators are those of the text they make. -/
theorem split_intercalate
    {pieces : List String}
    (hApart : ∀ piece ∈ pieces, separator ∉ piece.toList)
    (hNonempty : pieces ≠ []) :
    split separator
        ((String.singleton separator).intercalate pieces) =
      pieces := by
  have hLists :
      ∀ part ∈ pieces.map String.toList, separator ∉ part := by
    intro part hPart
    rcases List.mem_map.mp hPart with ⟨piece, hPiece, rfl⟩
    exact hApart piece hPiece
  have hText :
      ((String.singleton separator).intercalate pieces).toList =
        [separator].intercalate (pieces.map String.toList) := by
    simp [String.toList_intercalate]
  rw [split, hText,
    List.splitOn_intercalate separator hLists (by simpa using hNonempty)]
  simp [Function.comp_def]

/- What joins parts adds no other character than itself. -/
theorem count_intercalate
    {ch : Char}
    (h : ch ≠ separator)
    (parts : List (List Char)) :
    ([separator].intercalate parts).count ch =
      parts.flatten.count ch := by
  induction parts with
  | nil => rfl
  | cons part rest ih =>
      cases rest with
      | nil => simp [List.intercalate_singleton]
      | cons next rest =>
          rw [List.intercalate_cons_cons, List.count_append,
            List.count_append, ih, List.flatten_cons,
            List.count_append, List.count_singleton]
          simp [Ne.symm h]

/- A text is cut without losing a character but the separator. -/
theorem count_split
    {ch : Char}
    (h : ch ≠ separator)
    (s : String) :
    ((split separator s).flatMap String.toList).count ch =
      s.toList.count ch := by
  have hParts := count_intercalate h (s.toList.splitOn separator)
  rw [List.intercalate_splitOn] at hParts
  rw [hParts, split, List.flatMap_map]
  simp [List.flatMap_id']

end Text

end RelationalRest
