import RelationalRest.Calendar.Timestamp

/-
  This file defines the texts of dates and points in time.
  A year from 0 to 9999 has four digits; any other has a sign
  and at least four.

  Key definitions include:
    * `Date.text`
    * `Timestamp.text`
    * `Timestamp.utcText`
-/

namespace RelationalRest

namespace Calendar

/- A number with zeros before it up to a width. -/
def padded
    (width n : Nat) : List Char :=
  let digits := Nat.toDigits 10 n
  List.replicate (width - digits.length) '0' ++ digits

/- The text of a year. -/
def yearText (year : Int) : List Char :=
  if 0 ≤ year ∧ year ≤ 9999 then
    padded 4 year.natAbs
  else
    (if year < 0 then '-' else '+') :: padded 4 year.natAbs

/-
  The text of a fraction of a second: nothing for none, and
  otherwise a point and the fewest of three, six or nine
  digits that give it exactly.
-/
def fractionText (nano : Nat) : List Char :=
  if nano = 0 then
    []
  else if nano % 1000000 = 0 then
    '.' :: padded 3 (nano / 1000000)
  else if nano % 1000 = 0 then
    '.' :: padded 6 (nano / 1000)
  else
    '.' :: padded 9 nano

end Calendar

open Calendar

/- The characters of a date. -/
def Date.chars (d : Date) : List Char :=
  yearText d.year ++ '-' :: padded 2 d.month ++
    '-' :: padded 2 d.day

/- The text of a date. -/
def Date.text (d : Date) : String :=
  String.ofList d.chars

namespace Timestamp

/- The characters of a point in time; a leap second is written 60. -/
def chars (t : Timestamp) : List Char :=
  let leap := t.nano / nanosPerSecond
  t.date.chars ++ 'T' :: padded 2 t.hour ++
    ':' :: padded 2 t.minute ++
    ':' :: padded 2 (t.secondOfMinute + leap) ++
    fractionText (t.nano % nanosPerSecond)

/- The text of a point in time without a zone. -/
def text (t : Timestamp) : String :=
  String.ofList t.chars

/- The text of a point in time with the offset of UTC. -/
def utcText (t : Timestamp) : String :=
  String.ofList (t.chars ++ "+00:00".toList)

end Timestamp

end RelationalRest
