import RelationalRest.Proofs.Sql.Reading

/-
  This file defines the tokens of a statement's text and
  proves that the text of pieces is cut into the tokens of
  the pieces: no name, number or word of a piece runs into
  the next one, whatever characters a name is made of.

  Key definitions include:
    * `Sql.Token`
    * `Sql.tokensFrom`
    * `Sql.Statement.tokens`
    * `Sql.tokensOf`
    * `Sql.Lexes`

  Key theorems include:
    * `Sql.tokensFrom_append`
    * `Sql.Lexes.text`
    * `Sql.Lexes.name`
    * `Sql.Lexes.operand`
    * `Sql.Lexes.append`
-/

namespace RelationalRest

namespace Sql

------------------------------------------------------------
-- Tokens of a text
------------------------------------------------------------

/- A token: a sign is any single character that stands alone. -/
inductive Token where
| name (s : String)
| placeholder (number : Nat)
| word (s : String)
| opening
| closing
| comma
| sign (c : Char)
deriving DecidableEq, Repr

/- A character of a word or a number. -/
def inWord (c : Char) : Bool :=
  c.isAlphanum || c == '_'

/- The characters of a quoted name after its opening quote. -/
def unquoted : List Char → List Char
| [] => []
| '"' :: '"' :: rest => '"' :: unquoted rest
| '"' :: _ => []
| c :: rest => c :: unquoted rest

/-
  The token that a character opens, and how many of the later
  characters belong to it.  A blank opens none.
-/
def token?
    (c : Char)
    (rest : List Char) : Option (Token × Nat) :=
  if c = '"' then
    some (.name (String.ofList (unquoted rest)), nameLength rest)
  else if c = '$' then
    let digits := rest.takeWhile Char.isDigit
    (Text.natural? digits).map fun n =>
      (.placeholder n, digits.length)
  else if inWord c then
    let more := rest.takeWhile inWord
    some (.word (String.ofList (c :: more)), more.length)
  else if c = '(' then
    some (.opening, 0)
  else if c = ')' then
    some (.closing, 0)
  else if c = ',' then
    some (.comma, 0)
  else if c = ' ' then
    none
  else
    some (.sign c, 0)

/-
  The tokens of a text, with a count of characters to pass
  over first.
-/
def tokensFrom : Nat → List Char → List Token
| _, [] => []
| passed + 1, _ :: rest => tokensFrom passed rest
| 0, c :: rest =>
    match token? c rest with
    | some (token, length) => token :: tokensFrom length rest
    | none => tokensFrom 0 rest

/- The tokens of a statement. -/
def Statement.tokens (s : Statement) : List Token :=
  tokensFrom 0 s.sql.toList

/- Characters to pass over do not matter. -/
theorem tokensFrom_passed (cs rest : List Char) :
    tokensFrom cs.length (cs ++ rest) = tokensFrom 0 rest := by
  induction cs with
  | nil => rfl
  | cons c cs ih => simpa [tokensFrom] using ih

------------------------------------------------------------
-- Plain text
------------------------------------------------------------

/- A text without names and placeholders. -/
def Plain (cs : List Char) : Bool :=
  cs.all fun c => c != '"' && c != '$'

/- The last word of a text does not go on in what follows. -/
def Parted (cs rest : List Char) : Prop :=
  ∀ a ∈ cs.getLast?, ∀ b ∈ rest.head?,
    inWord a = true → inWord b = false

/- A text does not end in a word. -/
def endsClear (s : String) : Bool :=
  s.toList.getLast?.all fun c => !inWord c

/- A text that does not end in a word is parted from any rest. -/
theorem parted_of_endsClear
    {s : String}
    (hEnds : endsClear s = true)
    (rest : List Char) :
    Parted s.toList rest := by
  intro a ha b _ hWord
  have hLast : s.toList.getLast? = some a := ha
  simp [endsClear, hLast, hWord] at hEnds

/- What follows the whole text follows its later part. -/
theorem Parted.tail
    {c : Char}
    {cs rest : List Char}
    (h : Parted (c :: cs) rest) :
    Parted cs rest := by
  intro a ha
  cases cs with
  | nil => cases ha
  | cons d cs => exact h a (by simpa using ha)

/- A word of a text ends before what is parted from the text. -/
theorem takeWhile_parted
    {c : Char}
    {cs rest : List Char}
    (hc : inWord c = true)
    (h : Parted (c :: cs) rest) :
    (cs ++ rest).takeWhile inWord = cs.takeWhile inWord := by
  induction cs generalizing c with
  | nil =>
      cases rest with
      | nil => rfl
      | cons b rest =>
          have hb : inWord b = false :=
            h c (by simp) b (by simp) hc
          simp [hb]
  | cons d cs ih =>
      by_cases hd : inWord d = true
      · simp [hd, ih hd h.tail]
      · simp [hd]

/- Plain text opens the same tokens whatever follows it. -/
theorem token?_append
    {c : Char}
    {cs rest : List Char}
    (hPlain : Plain (c :: cs) = true)
    (h : Parted (c :: cs) rest) :
    token? c (cs ++ rest) = token? c cs := by
  have hc : c ≠ '"' ∧ c ≠ '$' := by
    have hHead := (Bool.and_eq_true_iff.mp hPlain).1
    simpa using hHead
  by_cases hWord : inWord c = true
  · simp [token?, hc.1, hc.2, hWord, takeWhile_parted hWord h]
  · simp [token?, hc.1, hc.2, hWord]

/- A token of plain text lies within the text. -/
theorem length_le_of_token?
    {c : Char}
    {cs : List Char}
    {token : Token}
    {length : Nat}
    (hPlain : Plain (c :: cs) = true)
    (h : token? c cs = some (token, length)) :
    length ≤ cs.length := by
  have hc : c ≠ '"' ∧ c ≠ '$' := by
    have hHead := (Bool.and_eq_true_iff.mp hPlain).1
    simpa using hHead
  by_cases hWord : inWord c = true
  · simp only [token?, hc.1, hc.2, hWord, if_true, if_false,
      Option.some.injEq, Prod.mk.injEq] at h
    rw [← h.2]
    exact (List.takeWhile_prefix inWord).length_le
  · have hAlone : length = 0 := by
      simp only [token?, hc.1, hc.2, hWord, if_false] at h
      grind
    rw [hAlone]
    exact Nat.zero_le _

/- Plain text is cut apart from what it is parted from. -/
theorem tokensFrom_append
    {cs rest : List Char}
    {passed : Nat}
    (hPlain : Plain cs = true)
    (hParted : Parted cs rest)
    (hPassed : passed ≤ cs.length) :
    tokensFrom passed (cs ++ rest) =
      tokensFrom passed cs ++ tokensFrom 0 rest := by
  induction cs generalizing passed with
  | nil =>
      have hNone : passed = 0 := Nat.le_zero.mp hPassed
      rw [hNone]
      rfl
  | cons c cs ih =>
      have hLater : Plain cs = true :=
        (Bool.and_eq_true_iff.mp hPlain).2
      -- a token that began before may reach into this text
      cases passed with
      | succ passed =>
          exact
            ih hLater hParted.tail
              (Nat.le_of_succ_le_succ hPassed)
      | zero =>
          have hSame := token?_append hPlain hParted
          cases hToken : token? c cs with
          | none =>
              simp [tokensFrom, hSame, hToken,
                ih hLater hParted.tail (Nat.zero_le _)]
          | some found =>
              obtain ⟨token, length⟩ := found
              have hLength := length_le_of_token? hPlain hToken
              simp [tokensFrom, hSame, hToken,
                ih hLater hParted.tail hLength]

------------------------------------------------------------
-- Names and placeholders
------------------------------------------------------------

/- A rest of a text that no name, number or word runs into. -/
def Clear (rest : List Char) : Prop :=
  ∀ c ∈ rest.head?, c ≠ '"' ∧ inWord c = false

/- What no word runs into, no number runs into. -/
theorem Clear.apart
    {rest : List Char}
    (h : Clear rest) :
    Apart rest := by
  intro c hc
  have hWord := (h c hc).2
  refine ⟨(h c hc).1, ?_⟩
  simp only [inWord, Char.isAlphanum, Bool.or_eq_false_iff] at hWord
  exact hWord.1.2

/- Plain text is parted from what no word runs into. -/
theorem Clear.parted
    {rest : List Char}
    (h : Clear rest)
    (cs : List Char) :
    Parted cs rest :=
  fun _ _ b hb _ => (h b hb).2

/- A character that is no quote belongs to the name. -/
theorem unquoted_cons_of_ne
    {c : Char}
    (hc : c ≠ '"')
    (rest : List Char) :
    unquoted (c :: rest) = c :: unquoted rest := by
  rw [unquoted]
  · intro _ h _
    exact hc h
  · exact hc

/- A quoted name is read back. -/
theorem unquoted_quotedChars
    (cs : List Char)
    {rest : List Char}
    (hRest : Apart rest) :
    unquoted (quotedChars cs ++ '"' :: rest) = cs := by
  induction cs with
  | nil =>
      cases rest with
      | nil => rfl
      | cons d rest =>
          have hd : d ≠ '"' := (hRest d (by simp)).1
          simp [quotedChars, unquoted, hd]
  | cons c cs ih =>
      by_cases hc : c = '"'
      · subst hc
        simpa [quotedChars, unquoted] using ih
      · simp only [quotedChars, List.flatMap_cons, hc, if_false,
          List.cons_append, List.nil_append] at ih ⊢
        rw [unquoted_cons_of_ne hc, ih]

/- A quoted name is one token. -/
theorem tokensFrom_quoted
    (s : String)
    {rest : List Char}
    (hRest : Apart rest) :
    tokensFrom 0 ((quoted s).toList ++ rest) =
      .name s :: tokensFrom 0 rest := by
  have hPassed :=
    tokensFrom_passed (quotedChars s.toList ++ ['"']) rest
  rw [← nameLength_quotedChars s.toList hRest] at hPassed
  simpa [quoted, tokensFrom, token?,
    unquoted_quotedChars s.toList hRest] using hPassed

/- A placeholder is one token. -/
theorem tokensFrom_placeholder
    (n : Nat)
    {rest : List Char}
    (hRest : Apart rest) :
    tokensFrom 0 ('$' :: ((toString n).toList ++ rest)) =
      .placeholder n :: tokensFrom 0 rest := by
  have hPassed := tokensFrom_passed (Nat.toDigits 10 n) rest
  simpa [tokensFrom, token?, Nat.repr, takeWhile_toDigits n hRest,
    Text.natural?_toDigits] using hPassed

------------------------------------------------------------
-- Tokens of pieces
------------------------------------------------------------

/-
  The tokens of a piece, when a count of operands has been
  numbered before it.
-/
def Piece.tokens
    (n : Nat) : Piece → List Token
| .text s => tokensFrom 0 s.toList
| .name s => [.name s]
| .derived source => tokensFrom 0 source.toList
| .operand v =>
    if v.isNull then [.word "NULL"] else [.placeholder (n + 1)]

/- The tokens of a text. -/
@[simp]
theorem Piece.tokens_text
    (n : Nat)
    (s : String) :
    (Piece.text s).tokens n = tokensFrom 0 s.toList :=
  rfl

/- The token of a name. -/
@[simp]
theorem Piece.tokens_name
    (n : Nat)
    (s : String) :
    (Piece.name s).tokens n = [.name s] :=
  rfl

/- The tokens of pieces, one after the other. -/
def tokensOf : Nat → List Piece → List Token
| _, [] => []
| n, p :: rest =>
    p.tokens n ++ tokensOf (n + p.param?.toList.length) rest

/- Later pieces are numbered after the earlier ones. -/
theorem tokensOf_append
    (n : Nat)
    (ps qs : List Piece) :
    tokensOf n (ps ++ qs) =
      tokensOf n ps ++ tokensOf (n + (params ps).length) qs := by
  induction ps generalizing n with
  | nil => simp [tokensOf, params]
  | cons p ps ih =>
      simp [tokensOf, params_cons, ih, Nat.add_assoc]

/- Pieces whose text no name, number or word runs into. -/
def Cleared (pieces : List Piece) : Prop :=
  ∀ (n : Nat) (rest : List Char),
    Clear rest → Clear ((textFrom n pieces).toList ++ rest)

/- No pieces leave the rest as it is. -/
theorem cleared_nil : Cleared [] := by
  intro n rest hRest
  simpa [textFrom] using hRest

/- A text begins with neither a quote nor a word. -/
def beginsClear (s : String) : Bool :=
  s.toList.head?.any fun c => c != '"' && !inWord c

/- Pieces are as clear as the text they begin with. -/
theorem cleared_text
    {s : String}
    (hBegins : beginsClear s = true)
    (pieces : List Piece) :
    Cleared (.text s :: pieces) := by
  intro n rest _ c hc
  cases hList : s.toList with
  | nil => simp [beginsClear, hList] at hBegins
  | cons d ds =>
      have hdc : d = c := by
        simpa [textFrom, hList] using hc
      subst hdc
      simpa [beginsClear, hList] using hBegins

/- The text of pieces is cut into the tokens of the pieces. -/
def Lexes (pieces : List Piece) : Prop :=
  ∀ (n : Nat) (rest : List Char),
    Clear rest →
      tokensFrom 0 ((textFrom n pieces).toList ++ rest) =
        tokensOf n pieces ++ tokensFrom 0 rest

namespace Lexes

variable {ps qs : List Piece}

/- No pieces have no tokens. -/
theorem nil : Lexes [] := by
  intro n rest _
  simp [textFrom, tokensOf]

/- Plain text that ends outside a word keeps to itself. -/
theorem text
    {s : String}
    (hPlain : Plain s.toList = true)
    (hEnds : endsClear s = true)
    (h : Lexes ps) :
    Lexes (.text s :: ps) := by
  intro n rest hRest
  have hParted :=
    parted_of_endsClear hEnds ((textFrom n ps).toList ++ rest)
  have hText := tokensFrom_append hPlain hParted (Nat.zero_le _)
  simpa [textFrom, tokensOf, Piece.tokens, Piece.param?,
    h n rest hRest] using hText

/- Plain text before clear pieces keeps to itself. -/
theorem word
    {s : String}
    (hPlain : Plain s.toList = true)
    (hCleared : Cleared ps)
    (h : Lexes ps) :
    Lexes (.text s :: ps) := by
  intro n rest hRest
  have hText :=
    tokensFrom_append hPlain
      ((hCleared n rest hRest).parted s.toList) (Nat.zero_le _)
  simpa [textFrom, tokensOf, Piece.tokens, Piece.param?,
    h n rest hRest] using hText

/- A name before clear pieces keeps to itself. -/
theorem name
    (s : String)
    (hCleared : Cleared ps)
    (h : Lexes ps) :
    Lexes (.name s :: ps) := by
  intro n rest hRest
  have hName := tokensFrom_quoted s (hCleared n rest hRest).apart
  simpa [textFrom, tokensOf, Piece.tokens, Piece.param?,
    h n rest hRest] using hName

/- An operand before clear pieces keeps to itself. -/
theorem operand
    (v : Value)
    (hCleared : Cleared ps)
    (h : Lexes ps) :
    Lexes (.operand v :: ps) := by
  intro n rest hRest
  by_cases hv : v.isNull = true
  · have hParted :=
      (hCleared n rest hRest).parted "NULL".toList
    have hPlain : Plain "NULL".toList = true := rfl
    have hWord := tokensFrom_append hPlain hParted (Nat.zero_le _)
    have hNull :
        tokensFrom 0 "NULL".toList = [.word "NULL"] := rfl
    rw [hNull, h n rest hRest] at hWord
    simpa [textFrom, tokensOf, Piece.tokens, Piece.param?, hv]
      using hWord
  · have hNumber :=
      tokensFrom_placeholder (n + 1)
        (hCleared (n + 1) rest hRest).apart
    rw [h (n + 1) rest hRest] at hNumber
    simpa [textFrom, tokensOf, Piece.tokens, Piece.param?, hv]
      using hNumber

/- Pieces before clear pieces keep to themselves. -/
theorem append
    (hp : Lexes ps)
    (hq : Lexes qs)
    (hCleared : Cleared qs) :
    Lexes (ps ++ qs) := by
  intro n rest hRest
  have hLater := hq (n + (params ps).length) rest hRest
  have hFirst :=
    hp n _ (hCleared (n + (params ps).length) rest hRest)
  rw [hLater] at hFirst
  simpa [textFrom_append, tokensOf_append] using hFirst

/- Pieces with a clear text between them keep to themselves. -/
theorem joined
    {α : Type}
    {s : String}
    (hPlain : Plain s.toList = true)
    (hBegins : beginsClear s = true)
    (hEnds : endsClear s = true)
    (pieces : α → List Piece)
    (h : ∀ a, Lexes (pieces a)) :
    ∀ items : List α, Lexes (Sql.joined s (items.map pieces))
| [] => nil
| [a] => by simpa [Sql.joined] using h a
| a :: b :: rest => by
    have hRest :=
      joined hPlain hBegins hEnds pieces h (b :: rest)
    have hAll :=
      (h a).append (hRest.text hPlain hEnds)
        (cleared_text hBegins _)
    simpa [Sql.joined] using hAll

/- The tokens of an assembled statement are those of its pieces. -/
theorem tokens_assemble
    (h : Lexes ps) :
    (assemble ps).tokens = tokensOf 0 ps := by
  have hEnd : Clear [] := by
    intro c hc
    cases hc
  simpa [Statement.tokens, assemble, tokensFrom] using h 0 [] hEnd

end Lexes

end Sql

end RelationalRest
