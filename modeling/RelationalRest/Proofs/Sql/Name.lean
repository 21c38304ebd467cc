import RelationalRest.Proofs.Sql.Clause

/-
  How a quoted name is read, and that it is read as the name
  it was written for, whatever characters that name is made
  of: no name ends before its closing quote, and none runs on
  into what follows it.

  Key definitions include:
    * `Sql.closeName?`
    * `Sql.readName?`

  Main declarations:
    * `Sql.closeName?_quotedChars`
    * `Sql.eq_of_closeName?`
    * `Sql.readName?_eq_some_iff`
    * `Sql.quoted_injective`
    * `Sql.Column.written_injective`
    * `Sql.names_read_back`
-/

namespace RelationalRest

namespace Sql

------------------------------------------------------------
-- Readers
------------------------------------------------------------

/-
  The name that goes on after an opening quote, and what
  follows its closing quote.  Two quotes in a row stand for
  one in the name, and a quote that stands alone closes it.
-/
def closeName? : List Char → Option (List Char × List Char)
| [] => none
| '"' :: '"' :: cs =>
    (closeName? cs).map fun (name, rest) => ('"' :: name, rest)
| '"' :: cs => some ([], cs)
| c :: cs =>
    (closeName? cs).map fun (name, rest) => (c :: name, rest)

/- The quoted name with which a text begins, and the rest. -/
def readName? (text : String) : Option (String × String) :=
  match text.toList with
  | '"' :: cs =>
      (closeName? cs).map fun (name, rest) =>
        (String.ofList name, String.ofList rest)
  | _ => none

------------------------------------------------------------
-- Closing quotes
------------------------------------------------------------

/- A quote in a name is written twice. -/
theorem quotedChars_quote (name : List Char) :
    quotedChars ('"' :: name) = '"' :: '"' :: quotedChars name :=
  rfl

/- Any other character of a name is written as it is. -/
theorem quotedChars_cons_of_ne
    {c : Char}
    (hc : c ≠ '"')
    (name : List Char) :
    quotedChars (c :: name) = c :: quotedChars name := by
  simp [quotedChars, hc]

/- Two quotes are read as one. -/
theorem closeName?_quotes (cs : List Char) :
    closeName? ('"' :: '"' :: cs) =
      (closeName? cs).map fun (name, rest) => ('"' :: name, rest) :=
  rfl

/- A quote that stands alone closes the name. -/
theorem closeName?_quote
    {cs : List Char}
    (hAlone : cs.head? ≠ some '"') :
    closeName? ('"' :: cs) = some ([], cs) := by
  rw [closeName?]
  rintro rest rfl
  exact hAlone rfl

/- Any other character is read as itself. -/
theorem closeName?_cons_of_ne
    {c : Char}
    (hc : c ≠ '"')
    (cs : List Char) :
    closeName? (c :: cs) =
      (closeName? cs).map fun (name, rest) => (c :: name, rest) := by
  rw [closeName?]
  · intro _ h _
    exact hc h
  · exact hc

/- A name that is followed by its closing quote is read. -/
theorem closeName?_quotedChars
    (name : List Char)
    {rest : List Char}
    (hRest : rest.head? ≠ some '"') :
    closeName? (quotedChars name ++ '"' :: rest) =
      some (name, rest) := by
  induction name with
  | nil => exact closeName?_quote hRest
  | cons c name ih =>
      by_cases hc : c = '"'
      · subst hc
        rw [quotedChars_quote, List.cons_append, List.cons_append,
          closeName?_quotes, ih]
        rfl
      · rw [quotedChars_cons_of_ne hc, List.cons_append,
          closeName?_cons_of_ne hc, ih]
        rfl

/-
  What is read up to a closing quote is the written form of
  the name, and what follows does not double that quote.
-/
theorem eq_of_closeName?
    {cs name rest : List Char}
    (h : closeName? cs = some (name, rest)) :
    cs = quotedChars name ++ '"' :: rest ∧
      rest.head? ≠ some '"' := by
  induction cs using closeName?.induct generalizing name with
  | case1 => cases h
  | case2 cs ih =>
      rw [closeName?_quotes] at h
      rcases Option.map_eq_some_iff.mp h with
        ⟨⟨name', rest'⟩, hRead, hPair⟩
      cases hPair
      rcases ih hRead with ⟨hText, hRest⟩
      exact ⟨by rw [hText]; rfl, hRest⟩
  | case3 cs hAlone =>
      have hHead : cs.head? ≠ some '"' := by
        intro hQuote
        rcases List.head?_eq_some_iff.mp hQuote with ⟨rest', hCs⟩
        exact hAlone rest' hCs
      rw [closeName?_quote hHead] at h
      cases h
      exact ⟨rfl, hHead⟩
  | case4 c cs _ hc ih =>
      rw [closeName?_cons_of_ne hc] at h
      rcases Option.map_eq_some_iff.mp h with
        ⟨⟨name', rest'⟩, hRead, hPair⟩
      cases hPair
      rcases ih hRead with ⟨hText, hRest⟩
      rw [quotedChars_cons_of_ne hc, List.cons_append, ← hText]
      exact ⟨rfl, hRest⟩

------------------------------------------------------------
-- Quoted names
------------------------------------------------------------

/-
  A name and a rest are read from exactly one text: the quoted
  name and the rest, which does not begin with a quote.
-/
theorem readName?_eq_some_iff
    {text name rest : String} :
    readName? text = some (name, rest) ↔
      text = quoted name ++ rest ∧ rest.toList.head? ≠ some '"' := by
  have hQuoted :
      text = quoted name ++ rest ↔
        text.toList =
          '"' :: (quotedChars name.toList ++ '"' :: rest.toList) := by
    rw [← String.toList_inj]
    simp [quoted]
  rw [hQuoted]
  unfold readName?
  split
  · next cs hText =>
      rw [hText]
      constructor
      · intro h
        rcases Option.map_eq_some_iff.mp h with
          ⟨⟨name', rest'⟩, hRead, hPair⟩
        cases hPair
        rcases eq_of_closeName? hRead with ⟨hCs, hRest⟩
        rw [hCs, String.toList_ofList, String.toList_ofList]
        exact ⟨rfl, hRest⟩
      · rintro ⟨hCs, hRest⟩
        cases hCs
        rw [closeName?_quotedChars name.toList hRest]
        simp
  · next hOther =>
      constructor
      · intro h
        cases h
      · rintro ⟨hText, _⟩
        exact absurd hText (hOther _)

/- A quoted name is read as the name, and the rest is left. -/
theorem readName?_quoted
    (name : String)
    {rest : String}
    (hRest : rest.toList.head? ≠ some '"') :
    readName? (quoted name ++ rest) = some (name, rest) :=
  readName?_eq_some_iff.mpr ⟨rfl, hRest⟩

/- Different names are quoted differently. -/
theorem quoted_injective : Function.Injective quoted := by
  intro a b hSame
  have hEmpty : "".toList.head? ≠ some '"' := by simp
  have hRead := readName?_quoted a hEmpty
  rw [hSame, readName?_quoted b hEmpty] at hRead
  simpa using hRead.symm

/- Different columns are written differently. -/
theorem Column.written_injective :
    Function.Injective Column.written := by
  rintro ⟨qualifier, name⟩ ⟨qualifier', name'⟩ hSame
  have hPoint :
      ∀ s : String, ("." ++ s).toList.head? ≠ some '"' := by
    simp
  have hRead :=
    readName?_quoted qualifier (hPoint (quoted name))
  unfold written at hSame
  simp only [String.append_assoc] at hSame
  rw [hSame, readName?_quoted qualifier' (hPoint (quoted name'))]
    at hRead
  simp only [Option.some.injEq, Prod.mk.injEq,
    String.append_right_inj] at hRead
  rcases hRead with ⟨rfl, hName⟩
  rw [quoted_injective hName]

/- A column is written in the same way wherever it stands. -/
theorem textFrom_pieces
    (n : Nat)
    (col : Column) :
    textFrom n col.pieces = col.written := by
  have hColumn := textFrom_column n col []
  rwa [List.append_nil, textFrom, String.append_empty] at hColumn

/-
  No name escapes from its quotes.  A text is read as a name
  and a rest exactly if it is the quoted name and the rest,
  and the rest does not begin with a quote.  Different names
  are therefore quoted differently, and the texts of columns,
  wherever they stand, are equal only for equal columns.
-/
theorem names_read_back :
    (∀ text name rest : String,
        readName? text = some (name, rest) ↔
          text = quoted name ++ rest ∧
            rest.toList.head? ≠ some '"') ∧
      Function.Injective quoted ∧
      ∀ (n m : Nat) (a b : Column),
        textFrom n a.pieces = textFrom m b.pieces ↔ a = b := by
  refine ⟨?_, quoted_injective, ?_⟩
  · intro text name rest
    exact readName?_eq_some_iff
  · intro n m a b
    rw [textFrom_pieces, textFrom_pieces]
    exact Column.written_injective.eq_iff

/- A name of quotes is read to its end, and no further. -/
example :
    readName? "\"\"\"a\"\"\"\"\".\"b\"" =
      some ("\"a\"\"", ".\"b\"") := by
  rfl

end Sql

end RelationalRest
