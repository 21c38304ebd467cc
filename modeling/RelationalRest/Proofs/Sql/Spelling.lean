import RelationalRest.Proofs.Sql.Reading

/-
  This file defines when a list of pieces spells values: a
  reader of its text meets each value in its place, either as
  the next placeholder or as the word for an absent value,
  and the parameters are the values that are present.

  The count of placeholders before the pieces, the derived
  tables after them and the text after them are arbitrary, so
  spelled pieces can be put together.

  Key definitions include:
    * `Sql.Site`
    * `Sql.numbered`
    * `Sql.present`
    * `Sql.Detached`
    * `Sql.Spells`

  Key theorems include:
    * `Sql.Spells.append`
    * `Sql.Spells.joined`
-/

namespace RelationalRest

namespace Sql

------------------------------------------------------------
-- Sites
------------------------------------------------------------

/-
  A value that a statement holds, and what is written in its
  place if it is absent.
-/
structure Site where
  value : Value
  form : Absence

/- A value that stands alone; an absent one is written `NULL`. -/
def Site.alone (v : Value) : Site where
  value := v
  form := .null

/-
  The slots of sites, when a count of placeholders precedes
  them: present values are numbered on.
-/
def numbered : Nat → List Site → List Slot
| _, [] => []
| n, s :: rest =>
    if s.value.isNull then
      .absent s.form :: numbered n rest
    else
      .placeholder (n + 1) :: numbered (n + 1) rest

/- The values of sites that are present. -/
def present (sites : List Site) : List Value :=
  (sites.map Site.value).filter fun v => !v.isNull

/- An absent value is not among the present ones. -/
theorem present_cons_absent
    {s : Site}
    (hNull : s.value.isNull = true)
    (sites : List Site) :
    present (s :: sites) = present sites := by
  simp [present, hNull]

/- A value that is present comes before the later ones. -/
theorem present_cons_some
    {s : Site}
    (hNull : ¬ s.value.isNull = true)
    (sites : List Site) :
    present (s :: sites) = s.value :: present sites := by
  simp [present, hNull]

/- The present values of sites, one after the other. -/
theorem present_append (xs ys : List Site) :
    present (xs ++ ys) = present xs ++ present ys := by
  simp [present]

/- Later sites are numbered after the earlier ones. -/
theorem numbered_append
    (n : Nat)
    (xs ys : List Site) :
    numbered n (xs ++ ys) =
      numbered n xs ++ numbered (n + (present xs).length) ys := by
  induction xs generalizing n with
  | nil => rfl
  | cons x xs ih =>
      by_cases hx : x.value.isNull = true
      · simp [numbered, present_cons_absent hx, hx, ih]
      · have hShift :
            n + 1 + (present xs).length =
              n + ((present xs).length + 1) := by
          omega
        simp [numbered, present_cons_some hx, hx, ih, hShift]

------------------------------------------------------------
-- Beginnings
------------------------------------------------------------

/-
  Pieces whose text keeps what follows a name or a number
  apart from it.
-/
def Detached (pieces : List Piece) : Prop :=
  ∀ (n : Nat) (rest : List Char),
    Apart rest → Apart ((textFrom n pieces).toList ++ rest)

/- A text begins with neither a quote nor a digit. -/
def beginsApart (s : String) : Bool :=
  s.toList.head?.any fun c => c != '"' && !c.isDigit

/- No pieces leave the rest as it is. -/
theorem detached_nil : Detached [] := by
  intro n rest hRest
  simpa [textFrom] using hRest

/- Pieces are as detached as the text they begin with. -/
theorem detached_text
    {s : String}
    (hBegins : beginsApart s = true)
    (pieces : List Piece) :
    Detached (.text s :: pieces) := by
  intro n rest _ c hc
  cases hList : s.toList with
  | nil => simp [beginsApart, hList] at hBegins
  | cons d ds =>
      have hdc : d = c := by
        simpa [textFrom, hList] using hc
      subst hdc
      simpa [beginsApart, hList] using hBegins

/- Detached pieces, one list after the other. -/
theorem Detached.append
    {ps qs : List Piece}
    (hp : Detached ps)
    (hq : Detached qs) :
    Detached (ps ++ qs) := by
  intro n rest hRest
  have h := hp n _ (hq (n + (params ps).length) rest hRest)
  rw [textFrom_append]
  simpa using h

------------------------------------------------------------
-- Spelling
------------------------------------------------------------

/-
  Pieces spell the values of sites, and hold derived tables
  with given texts.
-/
structure Spells
    (pieces : List Piece)
    (sources : List String)
    (sites : List Site) : Prop where
  slots :
    ∀ (n : Nat) (later : List String) (rest : List Char),
      Apart rest →
        slotsFrom (sources ++ later) 0
            ((textFrom n pieces).toList ++ rest) =
          numbered n sites ++ slotsFrom later 0 rest
  params : params pieces = present sites

namespace Spells

variable {ps qs : List Piece}
variable {as bs : List String}
variable {xs ys : List Site}

/- No pieces spell nothing. -/
theorem nil : Spells [] [] [] where
  slots := by
    intro n later rest _
    simp [textFrom, numbered]
  params := rfl

/- Quiet text adds nothing. -/
theorem text
    {s : String}
    (hQuiet : Quiet s.toList = true)
    (h : Spells ps as xs) :
    Spells (.text s :: ps) as xs where
  slots := by
    intro n later rest hRest
    have hRead := h.slots n later rest hRest
    rw [← slotsFrom_quiet hQuiet] at hRead
    simpa [textFrom] using hRead
  params := by
    simpa [params_cons, Piece.param?] using h.params

/- A name adds nothing, if what follows is apart from it. -/
theorem name
    (s : String)
    (hDetached : Detached ps)
    (h : Spells ps as xs) :
    Spells (.name s :: ps) as xs where
  slots := by
    intro n later rest hRest
    have hRead := h.slots n later rest hRest
    rw [← slotsFrom_quoted _ s (hDetached n rest hRest)] at hRead
    simpa [textFrom] using hRead
  params := by
    simpa [params_cons, Piece.param?] using h.params

/- An operand adds its value. -/
theorem operand
    (v : Value)
    (hDetached : Detached ps)
    (h : Spells ps as xs) :
    Spells (.operand v :: ps) as (Site.alone v :: xs) where
  slots := by
    intro n later rest hRest
    by_cases hv : v.isNull = true
    · have hRead := h.slots n later rest hRest
      simp only [textFrom, hv, if_true, numbered, Site.alone,
        String.toList_append, List.append_assoc,
        List.cons_append, ← hRead]
      simp [slotsFrom, opensDerived, slot?, opens,
        List.isPrefixOf]
    · have hRead := h.slots (n + 1) later rest hRest
      have hApart := hDetached (n + 1) rest hRest
      simp only [textFrom, hv, numbered, Site.alone,
        Bool.false_eq_true, if_false, List.cons_append,
        ← hRead]
      rw [← slotsFrom_placeholder _ (n + 1) hApart]
      simp
  params := by
    by_cases hv : v.isNull = true
    · simp [params_cons, Piece.param?, present, Site.alone, hv,
        h.params]
    · simp [params_cons, Piece.param?, present, Site.alone, hv,
        h.params]

/- Spelled pieces, one list after the other. -/
theorem append
    (hp : Spells ps as xs)
    (hq : Spells qs bs ys)
    (hDetached : Detached qs) :
    Spells (ps ++ qs) (as ++ bs) (xs ++ ys) where
  slots := by
    intro n later rest hRest
    have hFirst :=
      hp.slots n (bs ++ later) _
        (hDetached (n + (Sql.params ps).length) rest hRest)
    have hSecond :=
      hq.slots (n + (Sql.params ps).length) later rest hRest
    rw [hSecond] at hFirst
    rw [textFrom_append, numbered_append, ← hp.params]
    simpa using hFirst
  params := by
    rw [params_append, present_append, hp.params, hq.params]

/- Spelled pieces with a quiet text between them. -/
theorem joined
    {α : Type}
    {s : String}
    (hQuiet : Quiet s.toList = true)
    (hBegins : beginsApart s = true)
    (pieces : α → List Piece)
    (sites : α → List Site)
    (h : ∀ a, Spells (pieces a) [] (sites a)) :
    ∀ items : List α,
      Spells (Sql.joined s (items.map pieces)) []
        (items.flatMap sites)
| [] => nil
| [a] => by simpa [Sql.joined] using h a
| a :: b :: rest => by
    have hRest := joined hQuiet hBegins pieces sites h (b :: rest)
    have hAll :=
      (h a).append (hRest.text hQuiet)
        (detached_text hBegins _)
    simpa [Sql.joined] using hAll

/- Pieces without values, with a quiet text between them. -/
theorem joined_plain
    {α : Type}
    {s : String}
    (hQuiet : Quiet s.toList = true)
    (hBegins : beginsApart s = true)
    (pieces : α → List Piece)
    (h : ∀ a, Spells (pieces a) [] [])
    (items : List α) :
    Spells (Sql.joined s (items.map pieces)) [] [] := by
  have hAll := joined hQuiet hBegins pieces (fun _ => []) h items
  have hNone : items.flatMap (fun _ => ([] : List Site)) = [] :=
    List.flatMap_eq_nil_iff.mpr fun _ _ => rfl
  rwa [hNone] at hAll

/- Spelled pieces that each begin apart, one after the other. -/
theorem flatMap
    {α : Type}
    (pieces : α → List Piece)
    (sources : α → List String)
    (hDetached : ∀ a, Detached (pieces a))
    (h : ∀ a, Spells (pieces a) (sources a) []) :
    ∀ items : List α,
      Detached (items.flatMap pieces) ∧
        Spells (items.flatMap pieces) (items.flatMap sources) []
| [] => ⟨detached_nil, nil⟩
| a :: rest => by
    rcases flatMap pieces sources hDetached h rest with
      ⟨hRestDetached, hRest⟩
    exact
      ⟨(hDetached a).append hRestDetached,
        (h a).append hRest hRestDetached⟩

end Spells

end Sql

end RelationalRest
