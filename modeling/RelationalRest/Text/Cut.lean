/-
  This file defines how text is cut at a separator, and how
  what stands at its ends is taken off.

  Key definitions include:
    * `Text.split`
    * `Text.cut`
    * `Text.after?`
    * `Text.withoutAtEnd`
-/

namespace RelationalRest

namespace Text

/- The pieces of a text between the occurrences of a separator. -/
def split
    (separator : Char)
    (s : String) : List String :=
  (s.toList.splitOn separator).map String.ofList

/-
  The parts of a list before and after the first occurrence
  of a separator, if it occurs.
-/
def cut
    {α : Type} [DecidableEq α]
    (separator : α) : List α → Option (List α × List α)
| [] => none
| c :: rest =>
    if c = separator then
      some ([], rest)
    else
      (cut separator rest).map fun (l, r) => (c :: l, r)

/- What follows an opening text, if the text begins with it. -/
def after?
    (opening : String)
    (s : String) : Option String :=
  (opening.toList.isPrefixOf? s.toList).map String.ofList

/- A text without the occurrences of a character at its end. -/
def withoutAtEnd
    (c : Char)
    (s : String) : String :=
  String.ofList (s.toList.reverse.dropWhile (· == c)).reverse

/- Cutting finds the first separator and loses nothing else. -/
theorem cut_eq_some_iff
    {α : Type} [DecidableEq α]
    {separator : α}
    {cs l r : List α} :
    cut separator cs = some (l, r) ↔
      cs = l ++ separator :: r ∧ separator ∉ l := by
  induction cs generalizing l with
  | nil =>
      simp [cut]
  | cons c rest ih =>
      by_cases hc : c = separator
      · subst hc
        cases l with
        | nil => simp [cut, eq_comm]
        | cons d l' =>
            simp only [cut, if_true, Option.some.injEq,
              Prod.mk.injEq, List.cons_append, List.cons.injEq]
            constructor
            · rintro ⟨h, _⟩
              cases h
            · rintro ⟨⟨hd, _⟩, hn⟩
              subst hd
              simp at hn
      · cases l with
        | nil =>
            simp [cut, hc]
        | cons d l' =>
            have hsc : ¬ separator = c := fun h => hc h.symm
            simp only [cut, hc, if_false, Option.map_eq_some_iff,
              Prod.mk.injEq, Prod.exists, List.cons_append,
              List.cons.injEq, List.mem_cons, not_or]
            constructor
            · rintro ⟨a, b, hab, ⟨hca, hal⟩, hbr⟩
              subst hca hal hbr
              have h := ih.mp hab
              exact ⟨⟨rfl, h.1⟩, hsc, h.2⟩
            · rintro ⟨⟨hcd, hr⟩, _, hn⟩
              subst hcd
              exact ⟨l', r, ih.mpr ⟨hr, hn⟩, ⟨rfl, rfl⟩, rfl⟩

/- Nothing is cut exactly when the separator does not occur. -/
theorem cut_eq_none_iff
    {α : Type} [DecidableEq α]
    {separator : α}
    {cs : List α} :
    cut separator cs = none ↔ separator ∉ cs := by
  induction cs with
  | nil =>
      simp [cut]
  | cons c rest ih =>
      by_cases hc : c = separator
      · simp [cut, hc]
      · have hsc : ¬ separator = c := fun h => hc h.symm
        simp [cut, hc, hsc, ih]

/- What follows an opening text completes it to the whole. -/
theorem after?_eq_some_iff
    {opening s rest : String} :
    after? opening s = some rest ↔ s = opening ++ rest := by
  have hPrefix :
      ∀ xs ys zs : List Char,
        xs.isPrefixOf? ys = some zs ↔ ys = xs ++ zs := by
    intro xs
    induction xs with
    | nil =>
        intro ys zs
        exact Option.some_inj
    | cons x xs ih =>
        intro ys zs
        cases ys with
        | nil =>
            constructor
            · intro h
              cases h
            · intro h
              cases h
        | cons y ys =>
            have hStep :
                (x :: xs).isPrefixOf? (y :: ys) =
                  if x == y then xs.isPrefixOf? ys else none :=
              rfl
            rw [hStep]
            by_cases h : x = y
            · subst h
              simp [ih]
            · have h' : ¬ y = x := fun e => h e.symm
              simp [h, h']
  unfold after?
  rw [Option.map_eq_some_iff]
  constructor
  · rintro ⟨cs, hcs, rfl⟩
    have hs := (hPrefix _ _ _).mp hcs
    apply String.toList_inj.mp
    simp [hs]
  · rintro rfl
    exact ⟨rest.toList, (hPrefix _ _ _).mpr (by simp), by simp⟩

end Text

end RelationalRest
