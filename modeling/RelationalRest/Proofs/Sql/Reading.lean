import RelationalRest.Proofs.Text.Numeral
import RelationalRest.Sql.Statement

/-
  This file defines how the text of a statement is read: from
  left to right, outside quoted names and outside the texts
  of derived tables, a reader meets placeholders and the
  words that stand for an absent value.

  The reader sees the text alone.  It is told only which
  texts the derived tables have, because such a text may hold
  anything, and passes over each of them where a table opens.

  Key definitions include:
    * `Sql.Absence`
    * `Sql.Slot`
    * `Sql.slotsFrom`
    * `Sql.Statement.slots`
    * `Sql.Quiet`

  Key theorems include:
    * `Sql.slotsFrom_quiet`
    * `Sql.slotsFrom_quoted`
    * `Sql.slotsFrom_placeholder`
    * `Sql.slotsFrom_derived`
-/

namespace RelationalRest

namespace Sql

------------------------------------------------------------
-- Readers
------------------------------------------------------------

/- How a text says that a value is absent. -/
inductive Absence where
| null
| isNull
| isNotNull
deriving DecidableEq, Repr

/- What stands in a text in the place of a value. -/
inductive Slot where
| placeholder (number : Nat)
| absent (form : Absence)
deriving DecidableEq, Repr

/- A word begins a text. -/
def opens
    (word : String)
    (cs : List Char) : Bool :=
  word.toList.isPrefixOf cs

/- A text begins with a table that is derived. -/
def opensDerived (cs : List Char) : Bool :=
  opens "FROM (" cs || opens "JOIN (" cs

/-
  The length of a quoted name after its opening quote; two
  quotes inside stand for one.
-/
def nameLength : List Char → Nat
| [] => 0
| '"' :: '"' :: rest => nameLength rest + 2
| '"' :: _ => 1
| _ :: rest => nameLength rest + 1

/-
  The slot with which a text begins, and how many characters
  it takes after its first.
-/
def slot? (cs : List Char) : Option (Slot × Nat) :=
  if opens "IS NOT NULL" cs then
    some (.absent .isNotNull, 10)
  else if opens "IS NULL" cs then
    some (.absent .isNull, 6)
  else if opens "NULL" cs then
    some (.absent .null, 3)
  else if opens "$" cs then
    (Text.natural? (cs.tail.takeWhile Char.isDigit)).map
      fun n => (.placeholder n, 0)
  else
    none

/-
  The slots of a text, given the texts of the derived tables
  that it holds, in their order, and a count of characters to
  pass over first.
-/
def slotsFrom : List String → Nat → List Char → List Slot
| _, _, [] => []
| sources, passed + 1, _ :: rest =>
    slotsFrom sources passed rest
| sources, 0, c :: rest =>
    if c = '"' then
      slotsFrom sources (nameLength rest) rest
    else if opensDerived (c :: rest) then
      slotsFrom sources.tail
        (5 + (sources.headD "").length) rest
    else
      match slot? (c :: rest) with
      | some (slot, length) =>
          slot :: slotsFrom sources length rest
      | none => slotsFrom sources 0 rest

/- The slots of a statement, given the texts of derived tables. -/
def Statement.slots
    (s : Statement)
    (sources : List String) : List Slot :=
  slotsFrom sources 0 s.sql.toList

/- Characters to pass over do not matter. -/
theorem slotsFrom_passed
    (sources : List String)
    (cs rest : List Char) :
    slotsFrom sources cs.length (cs ++ rest) =
      slotsFrom sources 0 rest := by
  induction cs with
  | nil => rfl
  | cons c cs ih => simpa [slotsFrom] using ih

------------------------------------------------------------
-- Quiet text
------------------------------------------------------------

/- The words at which a reader stops. -/
def markers : List String :=
  ["\"", "FROM (", "JOIN (", "IS NOT NULL", "IS NULL", "NULL",
    "$"]

/- No marker begins inside a text, whatever follows the text. -/
def Quiet : List Char → Bool
| [] => true
| c :: rest =>
    (markers.all fun marker =>
      !marker.toList.isPrefixOf (c :: rest) &&
        !(c :: rest).isPrefixOf marker.toList) &&
      Quiet rest

/- A marker does not begin where a quiet text does. -/
theorem not_opens_of_quiet
    {marker : String}
    {c : Char}
    {cs rest : List Char}
    (hMarker : marker ∈ markers)
    (hQuiet : Quiet (c :: cs) = true) :
    opens marker (c :: (cs ++ rest)) = false := by
  have hHead := (Bool.and_eq_true_iff.mp hQuiet).1
  have hApart := List.all_eq_true.mp hHead marker hMarker
  simp only [Bool.and_eq_true, Bool.not_eq_true'] at hApart
  rw [Bool.eq_false_iff]
  intro hOpens
  have hPrefix : marker.toList <+: (c :: cs) ++ rest := by
    rw [← List.isPrefixOf_iff_prefix]
    simpa [opens] using hOpens
  rcases List.prefix_or_prefix_of_prefix hPrefix
      (List.prefix_append (c :: cs) rest) with hLeft | hRight
  · rw [← List.isPrefixOf_iff_prefix, hApart.1] at hLeft
    cases hLeft
  · rw [← List.isPrefixOf_iff_prefix, hApart.2] at hRight
    cases hRight

/- A reader finds nothing in a quiet text. -/
theorem slotsFrom_quiet
    {cs : List Char}
    (hQuiet : Quiet cs = true)
    (sources : List String)
    (rest : List Char) :
    slotsFrom sources 0 (cs ++ rest) =
      slotsFrom sources 0 rest := by
  induction cs with
  | nil => rfl
  | cons c cs ih =>
      have hNot :
          ∀ marker ∈ markers,
            opens marker (c :: (cs ++ rest)) = false :=
        fun marker hMarker => not_opens_of_quiet hMarker hQuiet
      have hQuote : c ≠ '"' := by
        intro hc
        have h := hNot "\"" (by decide)
        simp [opens, hc] at h
      have hRest := ih (Bool.and_eq_true_iff.mp hQuiet).2
      simp only [markers, List.mem_cons, List.not_mem_nil,
        forall_eq_or_imp] at hNot
      simp [slotsFrom, opensDerived, slot?, hQuote, hNot, hRest]

/- A reader does not stop at a digit. -/
theorem isPrefixOf_marker_of_isDigit
    {marker : String}
    {c : Char}
    (hMarker : marker ∈ markers)
    (hDigit : c.isDigit = true)
    (cs : List Char) :
    marker.toList.isPrefixOf (c :: cs) = false ∧
      (c :: cs).isPrefixOf marker.toList = false := by
  have hNe : ∀ d : Char, d.isDigit = false → c ≠ d := by
    intro d hd hcd
    rw [hcd, hd] at hDigit
    cases hDigit
  have hHead :
      ∀ m ∈ markers, ∃ d ds,
        m.toList = d :: ds ∧ d.isDigit = false := by
    simp [markers]
  rcases hHead marker hMarker with ⟨d, ds, hList, hd⟩
  have hcd := hNe d hd
  simp [hList, List.isPrefixOf, hcd, hcd.symm]

/- Digits are quiet. -/
theorem quiet_of_isDigit
    {cs : List Char}
    (hDigits : ∀ c ∈ cs, c.isDigit = true) :
    Quiet cs = true := by
  induction cs with
  | nil => rfl
  | cons c cs ih =>
      have hRest := ih fun d hd => hDigits d (by simp [hd])
      have hHead : c.isDigit = true := hDigits c (by simp)
      simp only [Quiet, hRest, Bool.and_true, List.all_eq_true]
      intro marker hMarker
      simp [isPrefixOf_marker_of_isDigit hMarker hHead cs]

------------------------------------------------------------
-- Names, numbers and derived tables
------------------------------------------------------------

/- A rest of a text that no name and no number runs into. -/
def Apart (rest : List Char) : Prop :=
  ∀ c ∈ rest.head?, c ≠ '"' ∧ c.isDigit = false

/- A character that is no quote belongs to the name. -/
theorem nameLength_cons_of_ne
    {c : Char}
    (hc : c ≠ '"')
    (rest : List Char) :
    nameLength (c :: rest) = nameLength rest + 1 := by
  rw [nameLength]
  · intro _ h _
    exact hc h
  · exact hc

/- A quoted name ends at the first quote that stands alone. -/
theorem nameLength_quotedChars
    (cs : List Char)
    {rest : List Char}
    (hRest : Apart rest) :
    nameLength (quotedChars cs ++ '"' :: rest) =
      (quotedChars cs ++ ['"']).length := by
  induction cs with
  | nil =>
      cases rest with
      | nil => rfl
      | cons d rest =>
          have hd : d ≠ '"' := (hRest d (by simp)).1
          simp [quotedChars, nameLength, hd]
  | cons c cs ih =>
      by_cases hc : c = '"'
      · subst hc
        simpa [quotedChars, nameLength] using ih
      · simp only [quotedChars, List.flatMap_cons, hc, if_false,
          List.cons_append, List.nil_append] at ih ⊢
        rw [nameLength_cons_of_ne hc]
        simp [ih]

/- A reader passes over a quoted name. -/
theorem slotsFrom_quoted
    (sources : List String)
    (s : String)
    {rest : List Char}
    (hRest : Apart rest) :
    slotsFrom sources 0 ((quoted s).toList ++ rest) =
      slotsFrom sources 0 rest := by
  have hLength := nameLength_quotedChars s.toList hRest
  have hPassed :=
    slotsFrom_passed sources (quotedChars s.toList ++ ['"']) rest
  rw [← hLength] at hPassed
  simpa [quoted, slotsFrom] using hPassed

/- The digits of a number end where the text goes on. -/
theorem takeWhile_toDigits
    (n : Nat)
    {rest : List Char}
    (hRest : Apart rest) :
    (Nat.toDigits 10 n ++ rest).takeWhile Char.isDigit =
      Nat.toDigits 10 n := by
  have hDigits : ∀ c ∈ Nat.toDigits 10 n, c.isDigit = true :=
    fun _ hc => Text.isDigit_of_mem_toDigits hc
  have hStops : Text.Stops rest := fun c hc => (hRest c hc).2
  exact (Text.split_digits hDigits hStops).1

/- A number written in digits is quiet. -/
theorem quiet_toString (n : Nat) :
    Quiet (toString n).toList = true := by
  apply quiet_of_isDigit
  intro c hc
  have hDigit : c ∈ Nat.toDigits 10 n := by
    simpa [Nat.repr] using hc
  exact Text.isDigit_of_mem_toDigits hDigit

/- A reader meets a placeholder with its number. -/
theorem slotsFrom_placeholder
    (sources : List String)
    (n : Nat)
    {rest : List Char}
    (hRest : Apart rest) :
    slotsFrom sources 0 ('$' :: ((toString n).toList ++ rest)) =
      .placeholder n :: slotsFrom sources 0 rest := by
  have hSlot :
      slot? ('$' :: ((toString n).toList ++ rest)) =
        some (.placeholder n, 0) := by
    simp [slot?, opens, Nat.repr, takeWhile_toDigits n hRest,
      Text.natural?_toDigits]
  have hNotDerived :
      opensDerived ('$' :: ((toString n).toList ++ rest)) =
        false := by
    simp [opensDerived, opens, List.isPrefixOf]
  rw [slotsFrom, if_neg (by decide), hNotDerived]
  simp only [Bool.false_eq_true, if_false, hSlot]
  rw [slotsFrom_quiet (quiet_toString n) sources rest]

/- A reader passes over the text of a derived table. -/
theorem slotsFrom_derived
    {word : String}
    (hWord : word = "FROM (" ∨ word = "JOIN (")
    (source : String)
    (sources : List String)
    (rest : List Char) :
    slotsFrom (source :: sources) 0
        (word.toList ++ (source.toList ++ rest)) =
      slotsFrom sources 0 rest := by
  have hPassed :
      ∀ opening : List Char, opening.length = 5 →
        slotsFrom sources (5 + source.length)
            (opening ++ (source.toList ++ rest)) =
          slotsFrom sources 0 rest := by
    intro opening hOpening
    have h :=
      slotsFrom_passed sources (opening ++ source.toList) rest
    rw [List.length_append, hOpening, String.length_toList,
      List.append_assoc] at h
    exact h
  rcases hWord with rfl | rfl
  · simpa [slotsFrom, opensDerived, opens] using
      hPassed "ROM (".toList rfl
  · simpa [slotsFrom, opensDerived, opens] using
      hPassed "OIN (".toList rfl

/- What looks like a slot in a name or a derived table is none. -/
example :
    slotsFrom ["SELECT $9"] 0
      ("FROM (SELECT $9) AS \"$8\" WHERE \"$8\".\"x\" = $1" ++
        " AND \"$8\".\"y\" IS NULL").toList =
      [.placeholder 1, .absent .isNull] := by
  rfl

end Sql

end RelationalRest
