import RelationalRest.Calendar.Timestamp
import RelationalRest.Text.Blank
import RelationalRest.Text.Numeral

/-
  This file defines the reading of points in time.

  The first form is strict: every number has its full width,
  and the text ends with an offset from UTC.  The other forms
  have no offset and mean UTC; their numbers may be shorter
  and may follow blanks.

  Key definitions include:
    * `Timestamp.readZoned?`
    * `Timestamp.readLocal?`
    * `Timestamp.read?`
-/

namespace RelationalRest

namespace Calendar

------------------------------------------------------------
-- Parts
------------------------------------------------------------

/-
  A number of at least `least` and at most `most` digits, and
  the rest of the text.
-/
def digits
    (least most : Nat)
    (cs : List Char) : Option (Nat × List Char) :=
  let written := (cs.take most).takeWhile Char.isDigit
  if written.length < least then
    none
  else
    some (Text.digitsValue written, cs.drop written.length)

/- What follows a fixed character. -/
def expect
    (c : Char) : List Char → Option (List Char)
| [] => none
| d :: rest => if d = c then some rest else none

/-
  The nanoseconds of a fraction: nothing, or a point and
  digits, of which the first nine count.
-/
def fraction : List Char → Option (Nat × List Char)
| '.' :: rest =>
    let written := rest.takeWhile Char.isDigit
    let kept := written.take 9
    if written = [] then
      none
    else
      some
        (Text.digitsValue kept * Nat.pow 10 (9 - kept.length),
          rest.dropWhile Char.isDigit)
| cs => some (0, cs)

/- The seconds by which an offset from UTC is ahead. -/
def offset? : List Char → Option Int
| ['Z'] => some 0
| ['z'] => some 0
| sign :: rest => do
    let ahead ←
      if sign = '+' then some true
      else if sign = '-' ∨ sign = '\u2212' then some false
      else none
    let (hours, rest) ← digits 2 2 rest
    let rest ← expect ':' rest
    let (minutes, rest) ← digits 2 2 rest
    if rest = [] ∧ hours < 24 ∧ minutes < 60 then
      let seconds : Int := (hours * 60 + minutes) * 60
      some (if ahead then seconds else -seconds)
    else
      none
| [] => none

------------------------------------------------------------
-- Parts that may follow blanks
------------------------------------------------------------

/- A number of one or two digits after blanks. -/
def pair (cs : List Char) : Option (Nat × List Char) :=
  digits 1 2 (Text.trimStart cs)

/-
  A year after blanks: a sign and any count of digits, or up
  to four digits.
-/
def year (cs : List Char) : Option (Int × List Char) :=
  match Text.trimStart cs with
  | '-' :: rest =>
      (digits 1 rest.length rest).map
        fun (n, rest) => (-(n : Int), rest)
  | '+' :: rest =>
      (digits 1 rest.length rest).map
        fun (n, rest) => ((n : Int), rest)
  | cs => (digits 1 4 cs).map fun (n, rest) => ((n : Int), rest)

/- A date whose numbers may follow blanks. -/
def date (cs : List Char) : Option (Date × List Char) := do
  let (year, cs) ← Calendar.year cs
  let cs ← expect '-' cs
  let (month, cs) ← pair cs
  let cs ← expect '-' cs
  let (day, cs) ← pair cs
  return ({ year, month, day }, cs)

/- How a date and a time of day are set apart. -/
inductive Separator where
| letter
| blanks
deriving DecidableEq, Repr

/- What follows a separator; blanks may be absent. -/
def Separator.skip
    (s : Separator)
    (cs : List Char) : Option (List Char) :=
  match s with
  | .letter => expect 'T' cs
  | .blanks => some (Text.trimStart cs)

end Calendar

open Calendar

namespace Timestamp

------------------------------------------------------------
-- Whole forms
------------------------------------------------------------

/-
  The form with an offset: a date, a time of day to the
  second, an optional fraction, and the offset.  The result
  is in UTC.
-/
def readZoned? (cs : List Char) : Option Timestamp := do
  let (year, cs) ← digits 4 4 cs
  let cs ← expect '-' cs
  let (month, cs) ← digits 2 2 cs
  let cs ← expect '-' cs
  let (day, cs) ← digits 2 2 cs
  let cs ←
    match cs with
    | c :: rest =>
        if c = 'T' ∨ c = 't' ∨ c = ' ' then some rest else none
    | [] => none
  let (hour, cs) ← digits 2 2 cs
  let cs ← expect ':' cs
  let (minute, cs) ← digits 2 2 cs
  let cs ← expect ':' cs
  let (second, cs) ← digits 2 2 cs
  let (nano, cs) ← fraction cs
  let ahead ← offset? cs
  let t ← ofFields? { year, month, day } hour minute second nano
  return t.shift (-ahead)

/- The form without an offset, to the second. -/
def readLocal?
    (separator : Separator)
    (cs : List Char) : Option Timestamp := do
  let (d, cs) ← Calendar.date cs
  let cs ← separator.skip cs
  let (hour, cs) ← pair cs
  let cs ← expect ':' cs
  let (minute, cs) ← pair cs
  let cs ← expect ':' cs
  let (second, cs) ← pair cs
  let (nano, cs) ← fraction cs
  if cs = [] then
    ofFields? d hour minute second nano
  else
    none

/- The form without an offset, to the minute. -/
def readMinutes?
    (separator : Separator)
    (cs : List Char) : Option Timestamp := do
  let (d, cs) ← Calendar.date cs
  let cs ← separator.skip cs
  let (hour, cs) ← pair cs
  let cs ← expect ':' cs
  let (minute, cs) ← pair cs
  if cs = [] then
    ofFields? d hour minute 0 0
  else
    none

/- A date alone, which means its midnight. -/
def readDate? (cs : List Char) : Option Timestamp := do
  let (d, cs) ← Calendar.date cs
  if cs = [] then
    ofFields? d 0 0 0 0
  else
    none

/-
  The point in time that a text writes, in the first form
  that fits; blanks around it are ignored.
-/
def read? (s : String) : Option Timestamp :=
  let cs := Text.trim s.toList
  readZoned? cs
    <|> readLocal? .letter cs
    <|> readLocal? .blanks cs
    <|> readMinutes? .letter cs
    <|> readMinutes? .blanks cs
    <|> readDate? cs

end Timestamp

end RelationalRest
