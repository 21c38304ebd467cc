import RelationalRest.Json.Basic
import RelationalRest.Text.Hex

/-
  This file defines the reading of JSON text from a list of
  characters.  A reader gives the value and the rest of the
  text, or the fault that keeps the text from beginning with
  a value.

  An object whose first member has a reserved name stands for
  another value: the one that the string in that member
  writes.  It has no other member.

  A number keeps the digits that fit a word of 64 bits; the
  later ones only scale it.  The kept digits are rounded once
  and scaled by one power of ten with one more rounding.

  Key definitions include:
    * `Json.scale?`
    * `Json.readNumber`
    * `Json.readString`
    * `Json.Fault`
    * `Json.readValue`
    * `Json.readStart`
    * `Json.read`
    * `Json.ofText?`
-/

namespace RelationalRest

namespace Json

------------------------------------------------------------
-- Numbers
------------------------------------------------------------

/-
  Extend a number by digits while it fits a word of 64 bits:
  the number, and the digits that no longer fit.
-/
def keepDigits : Nat → List Char → Nat × List Char
| n, [] => (n, [])
| n, c :: rest =>
    let next := 10 * n + (c.toNat - 48)
    if next < Nat.pow 2 64 then
      keepDigits next rest
    else
      (n, c :: rest)

/-
  Divide by a power of ten, in steps whose powers a
  floating-point number can hold.
-/
def scaleDown
    (x : Binary64)
    (power : Nat) : Binary64 :=
  if power ≤ 308 then
    x.div (Binary64.ofNat (Nat.pow 10 power))
  else if x.isZero then
    x
  else
    scaleDown (x.div (Binary64.ofNat (Nat.pow 10 308))) (power - 308)
termination_by power

/-
  A number scaled by a power of ten; a result beyond the
  range is refused.
-/
def scale?
    (digits : Nat)
    (power : Int) : Option Binary64 :=
  let x := Binary64.ofNat digits
  if power < 0 then
    some (scaleDown x (-power).toNat)
  else if digits = 0 then
    some x
  else if 308 < power then
    none
  else
    let y := x.mul (Binary64.ofNat (Nat.pow 10 power.toNat))
    if y.isFinite then some y else none

/-
  The greatest exponent that may be written; one beyond it
  makes a nonzero number too great or zero.
-/
def exponentLimit : Nat :=
  Nat.pow 2 31

/- The number of kept digits, a power and a written exponent. -/
def scaleBy?
    (digits : Nat)
    (power : Int)
    (down : Bool)
    (exponent : Nat) : Option Binary64 :=
  if exponent < exponentLimit then
    scale? digits
      (if down then power - exponent else power + exponent)
  else if digits = 0 ∨ down = true then
    some Binary64.zero
  else
    none

/- The part of a number after the letter of its exponent. -/
def readExponent
    (digits : Nat)
    (power : Int)
    (cs : List Char) : Option (Binary64 × List Char) :=
  let (down, cs) :=
    match cs with
    | '+' :: rest => (false, rest)
    | '-' :: rest => (true, rest)
    | _ => (false, cs)
  let written := cs.takeWhile Char.isDigit
  if written = [] then
    none
  else
    (scaleBy? digits power down (Text.digitsValue written)).map
      fun x => (x, cs.dropWhile Char.isDigit)

/- The end of a number that is not whole. -/
def readScale
    (digits : Nat)
    (power : Int)
    (cs : List Char) : Option (Binary64 × List Char) :=
  match cs with
  | 'e' :: rest => readExponent digits power rest
  | 'E' :: rest => readExponent digits power rest
  | _ => (scale? digits power).map fun x => (x, cs)

/- The part of a number after its point. -/
def readFraction
    (digits : Nat)
    (power : Int)
    (cs : List Char) : Option (Binary64 × List Char) :=
  let part := cs.takeWhile Char.isDigit
  if part = [] then
    none
  else
    let (kept, extra) := keepDigits digits part
    let places : Int := part.length - extra.length
    readScale kept (power - places) (cs.dropWhile Char.isDigit)

/- A whole number, or its floating-point form where it needs one. -/
def wholeNumber
    (negative : Bool)
    (digits : Nat) : Number :=
  if negative then
    if digits ≠ 0 ∧ digits ≤ Nat.pow 2 63 then
      .int (-(digits : Int))
    else
      .float (Binary64.ofNat digits).neg
  else
    .int digits

/- A number without its sign. -/
def readUnsigned
    (negative : Bool)
    (cs : List Char) : Option (Number × List Char) :=
  let signed (x : Binary64) : Number :=
    .float (if negative then x.neg else x)
  let written := cs.takeWhile Char.isDigit
  let rest := cs.dropWhile Char.isDigit
  if written = [] ∨ (written.head? = some '0' ∧
      1 < written.length) then
    none
  else
    let (digits, extra) := keepDigits 0 written
    let power : Int := extra.length
    match rest with
    | '.' :: after =>
        (readFraction digits power after).map
          fun (x, rest) => (signed x, rest)
    | _ =>
        if extra = [] ∧ rest.head? ≠ some 'e' ∧
            rest.head? ≠ some 'E' then
          some (wholeNumber negative digits, rest)
        else
          (readScale digits power rest).map
            fun (x, rest) => (signed x, rest)

/- A number. -/
def readNumber : List Char → Option (Number × List Char)
| '-' :: rest => readUnsigned true rest
| cs => readUnsigned false cs

------------------------------------------------------------
-- Strings
------------------------------------------------------------

/- Four hexadecimal digits. -/
def readUnit : List Char → Option (Nat × List Char)
| a :: b :: c :: d :: rest => do
    let a ← Text.hexValue? a
    let b ← Text.hexValue? b
    let c ← Text.hexValue? c
    let d ← Text.hexValue? d
    return (((a * 16 + b) * 16 + c) * 16 + d, rest)
| _ => none

/-
  A character given by one unit, or by two that form a
  surrogate pair.
-/
def readCoded (cs : List Char) : Option (Char × List Char) := do
  let (high, rest) ← readUnit cs
  if 0xd800 ≤ high ∧ high ≤ 0xdbff then
    match rest with
    | '\\' :: 'u' :: rest =>
        let (low, rest) ← readUnit rest
        if 0xdc00 ≤ low ∧ low ≤ 0xdfff then
          let code :=
            0x10000 + (high - 0xd800) * 0x400 + (low - 0xdc00)
          return (Char.ofNat code, rest)
        else
          none
    | _ => none
  else if 0xdc00 ≤ high ∧ high ≤ 0xdfff then
    none
  else
    return (Char.ofNat high, rest)

/- The character that a letter after a backslash stands for. -/
def escaped? : Char → Option Char
| '"' => some '"'
| '\\' => some '\\'
| '/' => some '/'
| 'b' => some '\x08'
| 'f' => some '\x0c'
| 'n' => some '\n'
| 'r' => some '\r'
| 't' => some '\t'
| _ => none

/-
  The characters up to the closing quote.  The fuel bounds
  the count of characters.
-/
def readCharacters :
    Nat → List Char → Option (List Char × List Char)
| 0, _ => none
| fuel + 1, cs =>
    match cs with
    | [] => none
    | '"' :: rest => some ([], rest)
    | '\\' :: 'u' :: rest => do
        let (c, rest) ← readCoded rest
        let (tail, rest) ← readCharacters fuel rest
        return (c :: tail, rest)
    | '\\' :: letter :: rest => do
        let c ← escaped? letter
        let (tail, rest) ← readCharacters fuel rest
        return (c :: tail, rest)
    | c :: rest =>
        if c.toNat < 0x20 ∨ c = '\\' then
          none
        else do
          let (tail, rest) ← readCharacters fuel rest
          return (c :: tail, rest)

/- A string after its opening quote. -/
def readString (cs : List Char) : Option (String × List Char) :=
  (readCharacters (cs.length + 1) cs).map
    fun (s, rest) => (String.ofList s, rest)

------------------------------------------------------------
-- Values
------------------------------------------------------------

/- The characters that may stand between the parts of a value. -/
def isSpace (c : Char) : Bool :=
  c == ' ' || c == '\n' || c == '\t' || c == '\r'

/- Drop the space at the start. -/
def skipSpace (cs : List Char) : List Char :=
  cs.dropWhile isSpace

/-
  Why a text writes no value: it has not the form of one, or
  an object in it stands for a value that is not there.
-/
inductive Fault where
| form
| content
deriving DecidableEq, Repr

/- A reader of some form. -/
abbrev Reader (α : Type) :=
  List Char → Except Fault (α × List Char)

/- What was found, or a fault of form. -/
def found
    {α : Type} : Option α → Except Fault α
| some a => .ok a
| none => .error .form

/- The rest of a text after space and a character. -/
def readMark
    (mark : Char)
    (cs : List Char) : Except Fault (List Char) :=
  match skipSpace cs with
  | c :: rest => if c = mark then .ok rest else .error .form
  | [] => .error .form

/- What follows a fixed word. -/
def readWord
    (word : String)
    (v : Json) : Reader Json :=
  fun cs =>
    (found (word.toList.isPrefixOf? cs)).map fun rest => (v, rest)

/- A value that is neither an array nor an object, after space. -/
def readScalar : Reader Json :=
  fun cs =>
    match skipSpace cs with
    | 'n' :: rest => readWord "ull" .null rest
    | 't' :: rest => readWord "rue" (.bool true) rest
    | 'f' :: rest => readWord "alse" (.bool false) rest
    | '"' :: rest =>
        (found (readString rest)).map
          fun (s, rest) => (.string s, rest)
    | rest =>
        (found (readNumber rest)).map
          fun (n, rest) => (.number n, rest)

/-
  The items of an array up to its closing bracket, at least
  one.  The fuel bounds their count.
-/
def readItems
    (read : Reader Json) : Nat → Reader (List Json)
| 0, _ => .error .form
| fuel + 1, cs => do
    let (v, rest) ← read cs
    match skipSpace rest with
    | ']' :: rest => return ([v], rest)
    | ',' :: rest =>
        let (vs, rest) ← readItems read fuel rest
        return (v :: vs, rest)
    | _ => .error .form

/- The name of a member, up to its colon. -/
def readName : Reader String :=
  fun cs => do
    let rest ← readMark '"' cs
    found (readString rest)

/- A member of an object. -/
def readMember
    (read : Reader Json) : Reader (String × Json) :=
  fun cs => do
    let (name, rest) ← readName cs
    let rest ← readMark ':' rest
    let (v, rest) ← read rest
    return ((name, v), rest)

/-
  The members of an object up to its closing brace, at least
  one.  The fuel bounds their count.
-/
def readMembers
    (read : Reader Json) : Nat → Reader (List (String × Json))
| 0, _ => .error .form
| fuel + 1, cs => do
    let (m, rest) ← readMember read cs
    match skipSpace rest with
    | '\x7d' :: rest => return ([m], rest)
    | ',' :: rest =>
        let (ms, rest) ← readMembers read fuel rest
        return (m :: ms, rest)
    | _ => .error .form

/- The reserved name of a member that holds the text of a value. -/
def textName : String :=
  "$serde_json::private::RawValue"

/-
  The value that an object stands for, from the colon after
  the reserved name on.  A member that is no string, or whose
  string writes no value, is a fault of content.
-/
def readStanding
    (valueOf : List Char → Except Fault Json) : Reader Json :=
  fun cs => do
    let rest ← readMark ':' cs
    match skipSpace rest with
    | '"' :: rest =>
        let (text, rest) ← found (readString rest)
        match valueOf text.toList with
        | .ok v =>
            let rest ← readMark '\x7d' rest
            return (v, rest)
        | .error _ => .error .content
    | '[' :: _ => .error .content
    | '\x7b' :: _ => .error .content
    | rest =>
        let _ ← readScalar rest
        .error .content

/-
  A value at the start of a text, after space.  Arrays and
  objects may be nested to the given depth, and the texts in
  them give their values by the given function.
-/
def readValue
    (valueOf : List Char → Except Fault Json) : Nat → Reader Json
| depth, cs =>
    match skipSpace cs with
    | '[' :: rest =>
        match depth with
        | 0 => .error .form
        | depth + 1 =>
            match skipSpace rest with
            | ']' :: rest => .ok (.array [], rest)
            | rest => do
                let (vs, rest) ←
                  readItems (readValue valueOf depth) rest.length
                    rest
                return (.array vs, rest)
    | '\x7b' :: rest =>
        match depth with
        | 0 => .error .form
        | depth + 1 =>
            match skipSpace rest with
            | '\x7d' :: rest => .ok (.object [], rest)
            | rest => do
                let (name, after) ← readName rest
                if name = textName then
                  readStanding valueOf after
                else
                  let (ms, rest) ←
                    readMembers (readValue valueOf depth)
                      rest.length rest
                  return (.object (Fields.ofList ms), rest)
    | rest => readScalar rest

/- The depth to which arrays and objects may be nested. -/
def depthLimit : Nat :=
  127

/-
  The value that a whole text writes.  The fuel bounds how
  many texts stand one within the other; each is shorter than
  the one around it.
-/
def valueOfText : Nat → List Char → Except Fault Json
| 0, _ => .error .form
| fuel + 1, cs => do
    let (v, rest) ← readValue (valueOfText fuel) depthLimit cs
    if skipSpace rest = [] then .ok v else .error .form

/- The value that a whole text writes, or its fault. -/
def read (s : String) : Except Fault Json :=
  valueOfText (s.length + 1) s.toList

/- The value at the start of a text, whatever follows it. -/
def readStart (s : String) : Except Fault Json :=
  (readValue (valueOfText s.length) depthLimit s.toList).map
    Prod.fst

/- The value that a whole text writes, if there is one. -/
def ofText? (s : String) : Option Json :=
  (read s).toOption

end Json

end RelationalRest
