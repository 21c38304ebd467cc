import RelationalRest.Proofs.Calendar.Parts

/-
  How the forms in which a point in time may be written read
  a date that is followed by a time of day: which of them fit
  such a text, and which cannot, whatever comes after it.

  Key definitions include:
    * `Calendar.WrittenDate`
    * `Calendar.Clock`
    * `Calendar.Clock.on?`

  Main declarations:
    * `Calendar.WrittenDate.readZoned?_eq`
    * `Calendar.Clock.readLocal?_eq`
    * `Calendar.Clock.read?_eq`
-/

namespace RelationalRest

namespace Calendar

open Text (Stops stops_cons)
open Timestamp (readZoned? readLocal? readMinutes? readDate? read?)

------------------------------------------------------------
-- Separators
------------------------------------------------------------

namespace Separator

/- The character that sets a date and a time of day apart. -/
def char : Separator → Char
| .letter => 'T'
| .blanks => ' '

/- No separator goes on with the digits of a date. -/
theorem stops_char
    (s : Separator)
    (rest : List Char) :
    Stops (s.char :: rest) := by
  cases s with
  | letter => exact stops_cons.mpr rfl
  | blanks => exact stops_cons.mpr rfl

/- A separator is skipped before a number. -/
theorem skip_char
    (s : Separator)
    {width : Nat}
    (n : Numeral width)
    (hWidth : 0 < width)
    (rest : List Char) :
    s.skip (s.char :: (n.chars ++ rest)) =
      some (n.chars ++ rest) := by
  cases s with
  | letter => rfl
  | blanks =>
      have hStart :
          Text.trimStart (' ' :: (n.chars ++ rest)) =
            Text.trimStart (n.chars ++ rest) :=
        rfl
      unfold skip char
      dsimp only
      rw [hStart, n.trimStart_append hWidth]

/- The other separator is absent, or leaves no number to be read. -/
theorem skip_other
    {s other : Separator}
    (h : other ≠ s)
    (rest : List Char) :
    other.skip (s.char :: rest) = none ∨
      ∃ cs, other.skip (s.char :: rest) = some cs ∧ pair cs = none := by
  cases s with
  | letter =>
      cases other with
      | letter => exact absurd rfl h
      | blanks =>
          have hLetter : Stops ('T' :: rest) := stops_cons.mpr rfl
          exact
            .inr ⟨'T' :: rest, rfl, digits_eq_none (by decide) hLetter⟩
  | blanks =>
      cases other with
      | letter => exact .inl rfl
      | blanks => exact absurd rfl h

end Separator

------------------------------------------------------------
-- Times of day
------------------------------------------------------------

/-
  A time of day as it is written: hours, minutes and seconds
  in two digits each, and the digits of a fraction.
-/
structure Clock where
  hour : Numeral 2
  minute : Numeral 2
  second : Numeral 2
  fraction : List Char
  hFraction : ∀ c ∈ fraction, c.isDigit = true

namespace Clock

variable {s : Separator} {c : Clock} {d : Date}
variable {cs rest : List Char}

/- The characters of a time of day. -/
def chars (c : Clock) : List Char :=
  c.hour.chars ++ ':' :: (c.minute.chars ++
    ':' :: (c.second.chars ++ pointed c.fraction))

/- The point in time on a date, if there is one. -/
def on?
    (c : Clock)
    (d : Date) : Option Timestamp :=
  Timestamp.ofFields? d c.hour.value c.minute.value c.second.value
    (nanosOf c.fraction)

/- The characters of a time of day, before what follows it. -/
theorem chars_append
    (c : Clock)
    (rest : List Char) :
    c.chars ++ rest =
      c.hour.chars ++ ':' :: (c.minute.chars ++
        ':' :: (c.second.chars ++ (pointed c.fraction ++ rest))) := by
  unfold chars
  simp only [List.append_assoc, List.cons_append]

/- A time of day has no blanks. -/
theorem isBlank_of_mem
    {a : Char}
    (h : a ∈ c.chars) :
    Text.isBlank a = false := by
  unfold chars at h
  simp only [List.mem_append, List.mem_cons] at h
  rcases h with h | h | h | h | h | h
  · exact c.hour.isBlank_of_mem h
  · rw [h]
    rfl
  · exact c.minute.isBlank_of_mem h
  · rw [h]
    rfl
  · exact c.second.isBlank_of_mem h
  · exact isBlank_of_mem_pointed c.hFraction h

/- A form to the second reads the time of day after its separator. -/
theorem readLocal?_eq
    (hDate : date cs = some (d, s.char :: (c.chars ++ rest)))
    (hEnds : Ends rest) :
    readLocal? s cs = if rest = [] then c.on? d else none := by
  rw [chars_append] at hDate
  unfold readLocal? on?
  simp [hDate, s.skip_char, expect, Numeral.pair_append,
    c.second.pair_append (stops_pointed hEnds.stops),
    fraction_pointed c.hFraction hEnds]

/- The forms with the other separator cannot read it. -/
theorem other_refused
    (hDate : date cs = some (d, s.char :: (c.chars ++ rest)))
    (other : Separator)
    (h : other ≠ s) :
    readLocal? other cs = none ∧ readMinutes? other cs = none := by
  unfold readLocal? readMinutes?
  rcases Separator.skip_other h (c.chars ++ rest) with
    hNone | ⟨after, hSkip, hPair⟩
  · simp [hDate, hNone]
  · simp [hDate, hSkip, hPair]

/- A form to the minute does not go on to the second. -/
theorem readMinutes?_eq
    (hDate : date cs = some (d, s.char :: (c.chars ++ rest))) :
    readMinutes? s cs = none := by
  rw [chars_append] at hDate
  unfold readMinutes?
  simp [hDate, s.skip_char, expect, Numeral.pair_append]

/- A date alone is not followed by a time of day. -/
theorem readDate?_eq
    (hDate : date cs = some (d, s.char :: (c.chars ++ rest))) :
    readDate? cs = none := by
  unfold readDate?
  simp [hDate]

/-
  Only two forms matter to a date and a time of day: the one
  with an offset, and the one without to the second.
-/
theorem read?_eq
    (hTrim : Text.trim cs = cs)
    (hDate : date cs = some (d, s.char :: (c.chars ++ rest)))
    (hEnds : Ends rest) :
    read? (String.ofList cs) =
      (readZoned? cs <|> if rest = [] then c.on? d else none) := by
  have hLocal := readLocal?_eq hDate hEnds
  have hMinutes := readMinutes?_eq hDate
  have hOther := other_refused hDate
  unfold read?
  dsimp only
  rw [String.toList_ofList, hTrim, readDate?_eq hDate]
  cases s with
  | letter =>
      rcases hOther .blanks nofun with ⟨hBlanks, hShort⟩
      rw [hLocal, hMinutes, hBlanks, hShort]
      simp
  | blanks =>
      rcases hOther .letter nofun with ⟨hLetter, hShort⟩
      rw [hLocal, hMinutes, hLetter, hShort]
      simp

end Clock

------------------------------------------------------------
-- Dates
------------------------------------------------------------

/-
  A date as it is written: a year in four digits, and a month
  and a day in two.
-/
structure WrittenDate where
  year : Numeral 4
  month : Numeral 2
  day : Numeral 2

namespace WrittenDate

variable {rest : List Char}

/- The characters of a date. -/
def chars (d : WrittenDate) : List Char :=
  d.year.chars ++ '-' :: (d.month.chars ++ '-' :: d.day.chars)

/- The date that is written, whether or not it exists. -/
def date (d : WrittenDate) : Date :=
  { year := d.year.value
    month := d.month.value
    day := d.day.value }

/- The characters of a date, before what follows it. -/
theorem chars_append
    (d : WrittenDate)
    (rest : List Char) :
    d.chars ++ rest =
      d.year.chars ++ '-' :: (d.month.chars ++
        '-' :: (d.day.chars ++ rest)) := by
  unfold chars
  simp only [List.append_assoc, List.cons_append]

/- A written date is read. -/
theorem date_append
    (d : WrittenDate)
    (hStops : Stops rest) :
    Calendar.date (d.chars ++ rest) = some (d.date, rest) := by
  rw [chars_append]
  unfold Calendar.date
  simp [Numeral.year_append, Numeral.pair_append, expect, hStops]
  rfl

/- The form with an offset reads a date and a time of day. -/
theorem readZoned?_eq
    (d : WrittenDate)
    (s : Separator)
    (c : Clock)
    (hEnds : Ends rest) :
    readZoned? (d.chars ++ s.char :: (c.chars ++ rest)) =
      (offset? rest).bind fun ahead =>
        (c.on? d.date).map (·.shift (-ahead)) := by
  have hSeparator :
      s.char = 'T' ∨ s.char = 't' ∨ s.char = ' ' := by
    cases s with
    | letter => exact .inl rfl
    | blanks => exact .inr (.inr rfl)
  have hShift (ahead : Int) (read : Option Timestamp) :
      read.map (·.shift (-ahead)) =
        read.bind fun t => some (t.shift (-ahead)) :=
    Option.map_eq_bind
  rw [chars_append, c.chars_append]
  unfold readZoned? Clock.on? date
  simp [Numeral.digits_append, expect, s.stops_char, hSeparator,
    c.second.digits_append (Nat.le_refl 2) (stops_pointed hEnds.stops),
    fraction_pointed c.hFraction hEnds, hShift]

end WrittenDate

end Calendar

end RelationalRest
