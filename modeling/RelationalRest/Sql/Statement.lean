import RelationalRest.Sql.Value

/-
  This file defines statements and how they are assembled.
  Whatever is to be sent is first a list of pieces: fixed
  text, names, the text of derived tables, and operands.  One
  pass from left to right then numbers the operands.

  An absent operand is written in place and is no parameter,
  so the parameters are the present operands in the order of
  the text, numbered from one.

  Key definitions include:
    * `Sql.Piece`
    * `Sql.quoted`
    * `Sql.Statement`
    * `Sql.assemble`
-/

namespace RelationalRest

namespace Sql

------------------------------------------------------------
-- Pieces
------------------------------------------------------------

/- A piece of a statement. -/
inductive Piece where
| text (s : String)
| name (s : String)
| derived (source : String)
| operand (v : Value)

/- The characters of a quoted name: a quote inside is doubled. -/
def quotedChars (cs : List Char) : List Char :=
  cs.flatMap fun c => if c = '"' then ['"', '"'] else [c]

/- The written form of a name. -/
def quoted (s : String) : String :=
  String.ofList ('"' :: quotedChars s.toList ++ ['"'])

/- Lists of pieces with a fixed text between them. -/
def joined
    (separator : String) : List (List Piece) → List Piece
| [] => []
| [ps] => ps
| ps :: rest => ps ++ .text separator :: joined separator rest

------------------------------------------------------------
-- Assembly
------------------------------------------------------------

/- A text with numbered placeholders, and the values for them. -/
structure Statement where
  sql : String
  params : List Value

/-
  The text of pieces, when a count of operands has been
  numbered before them.
-/
def textFrom : Nat → List Piece → String
| _, [] => ""
| n, .text s :: rest => s ++ textFrom n rest
| n, .name s :: rest => quoted s ++ textFrom n rest
| n, .derived source :: rest => source ++ textFrom n rest
| n, .operand v :: rest =>
    if v.isNull then
      "NULL" ++ textFrom n rest
    else
      "$" ++ toString (n + 1) ++ textFrom (n + 1) rest

/- The operand that a piece binds, if it binds one. -/
def Piece.param? : Piece → Option Value
| .operand v => if v.isNull then none else some v
| _ => none

/- The operands of pieces that are bound, in order. -/
def params (pieces : List Piece) : List Value :=
  pieces.filterMap Piece.param?

/- The statement of a list of pieces. -/
def assemble (pieces : List Piece) : Statement where
  sql := textFrom 0 pieces
  params := params pieces

/- No parameter is absent. -/
theorem isNull_of_mem_params
    {pieces : List Piece}
    {v : Value}
    (h : v ∈ params pieces) :
    v.isNull = false := by
  rcases List.mem_filterMap.mp h with ⟨p, _, hp⟩
  cases p with
  | operand w =>
      by_cases hw : w.isNull = true
      · simp [Piece.param?, hw] at hp
      · simp only [Piece.param?, hw, if_false,
          Option.some.injEq, Bool.false_eq_true] at hp
        subst hp
        simpa using hw
  | text _ => simp [Piece.param?] at hp
  | name _ => simp [Piece.param?] at hp
  | derived _ => simp [Piece.param?] at hp

/- A piece contributes the operand that it binds. -/
theorem params_cons
    (p : Piece)
    (rest : List Piece) :
    params (p :: rest) = p.param?.toList ++ params rest := by
  cases h : p.param? <;> simp [params, h]

/- The parameters of two lists of pieces, one after the other. -/
@[simp]
theorem params_append (ps qs : List Piece) :
    params (ps ++ qs) = params ps ++ params qs := by
  simp [params]

/- Later pieces are numbered after the earlier ones. -/
theorem textFrom_append
    (n : Nat)
    (ps qs : List Piece) :
    textFrom n (ps ++ qs) =
      textFrom n ps ++ textFrom (n + (params ps).length) qs := by
  induction ps generalizing n with
  | nil =>
      simp [textFrom, params]
  | cons p rest ih =>
      rw [params_cons]
      cases p with
      | operand v =>
          by_cases hv : v.isNull = true
          · simp [textFrom, Piece.param?, hv, ih,
              String.append_assoc]
          · have hShift :
                n + 1 + (params rest).length =
                  n + ((params rest).length + 1) := by
              omega
            simp [textFrom, Piece.param?, hv, ih,
              String.append_assoc, hShift]
      | text _ =>
          simp [textFrom, Piece.param?, ih,
            String.append_assoc]
      | name _ =>
          simp [textFrom, Piece.param?, ih,
            String.append_assoc]
      | derived _ =>
          simp [textFrom, Piece.param?, ih,
            String.append_assoc]

end Sql

end RelationalRest
