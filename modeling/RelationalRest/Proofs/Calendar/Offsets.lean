import RelationalRest.Proofs.Calendar.Forms
import RelationalRest.Proofs.Calendar.Succession

/-
  What an offset from UTC does to the text of a point in time.

  A text without an offset means UTC, so that the letter Z
  after it changes nothing.  Any other offset moves the point
  in time towards UTC, into the day before or after where it
  has to, and keeps the fraction and a leap second.  Whether
  the text is accepted does not depend on the offset, although
  different forms read it with and without one.

  Key definitions include:
    * `Calendar.Zoneless`
    * `Calendar.Offset`
    * `Timestamp.Carried`
    * `Timestamp.Moved`

  Main declarations:
    * `Calendar.Zoneless.read?_append`
    * `Calendar.Offset.offset?_chars`
    * `Timestamp.moved_shift`
    * `Timestamp.zoneless_means_utc`
-/

namespace RelationalRest

namespace Calendar

open Text (stops_nil stops_cons)
open Timestamp (read?)

------------------------------------------------------------
-- Texts without an offset
------------------------------------------------------------

/- A date and a time of day as they are written, without an offset. -/
structure Zoneless where
  date : WrittenDate
  separator : Separator
  clock : Clock

namespace Zoneless

variable {rest : List Char}

/- The characters of the text. -/
def chars (w : Zoneless) : List Char :=
  w.date.chars ++ w.separator.char :: w.clock.chars

/- The text. -/
def text (w : Zoneless) : String :=
  String.ofList w.chars

/- The point in time that is written, in UTC. -/
def meaning? (w : Zoneless) : Option Timestamp :=
  w.clock.on? w.date.date

/- The characters of a text, before what follows it. -/
theorem chars_append
    (w : Zoneless)
    (rest : List Char) :
    w.chars ++ rest =
      w.date.chars ++ w.separator.char :: (w.clock.chars ++ rest) := by
  unfold chars
  rw [List.append_assoc, List.cons_append]

/- There are no blanks at the ends of such a text. -/
theorem trim_append
    (w : Zoneless)
    (hBlank : ∀ c ∈ rest, Text.isBlank c = false) :
    Text.trim (w.chars ++ rest) = w.chars ++ rest := by
  have hTail : ∀ c ∈ w.clock.chars ++ rest, Text.isBlank c = false := by
    intro c hc
    rcases List.mem_append.mp hc with hClock | hRest
    · exact w.clock.isBlank_of_mem hClock
    · exact hBlank c hRest
  rcases w.date.year.exists_chars_eq_cons (by decide) with
    ⟨digit, digits, hYear, hDigit⟩
  rw [chars_append]
  -- The separator may be a blank, so only the ends can be argued about.
  apply Text.trim_eq_self
  · intro c hc
    rw [w.date.chars_append, hYear] at hc
    cases hc
    exact Text.isBlank_of_isDigit hDigit
  · intro c hc
    have hColon : ':' ∈ w.clock.chars ++ rest := by
      simp [Clock.chars]
    rw [List.append_cons, List.getLast?_append] at hc
    cases hLast : (w.clock.chars ++ rest).getLast? with
    | none =>
        rw [List.getLast?_eq_none_iff.mp hLast] at hColon
        cases hColon
    | some last =>
        rw [hLast, Option.some_or] at hc
        cases hc
        exact hTail c (List.mem_of_getLast? hLast)

/-
  A text is read by the form with an offset if one follows,
  and otherwise by the form without.
-/
theorem read?_append
    (w : Zoneless)
    (hEnds : Ends rest)
    (hBlank : ∀ c ∈ rest, Text.isBlank c = false) :
    read? (String.ofList (w.chars ++ rest)) =
      (((offset? rest).bind fun ahead =>
          w.meaning?.map (·.shift (-ahead)))
        <|> if rest = [] then w.meaning? else none) := by
  have hDate :
      Calendar.date (w.chars ++ rest) =
        some (w.date.date, w.separator.char :: (w.clock.chars ++ rest)) := by
    rw [w.chars_append]
    exact w.date.date_append (w.separator.stops_char _)
  rw [w.clock.read?_eq (w.trim_append hBlank) hDate hEnds,
    w.chars_append, w.date.readZoned?_eq w.separator w.clock hEnds]
  rfl

end Zoneless

------------------------------------------------------------
-- Offsets
------------------------------------------------------------

/- The signs of an offset: two of them are minus signs. -/
inductive Sign where
| plus
| hyphen
| minus
deriving DecidableEq, Repr

/- The character of a sign. -/
def Sign.char : Sign → Char
| .plus => '+'
| .hyphen => '-'
| .minus => '\u2212'

/- An offset from UTC as it is written, of less than a day. -/
structure Offset where
  sign : Sign
  hours : Numeral 2
  minutes : Numeral 2
  hHours : hours.value ≤ 23
  hMinutes : minutes.value ≤ 59

namespace Offset

/- The characters of an offset. -/
def chars (o : Offset) : List Char :=
  o.sign.char :: (o.hours.chars ++ ':' :: o.minutes.chars)

/- The text of an offset. -/
def text (o : Offset) : String :=
  String.ofList o.chars

/- The seconds that an offset writes, whatever its sign. -/
def seconds (o : Offset) : Int :=
  (o.hours.value * 60 + o.minutes.value) * 60

/- The seconds by which a clock with the offset is ahead of UTC. -/
def ahead (o : Offset) : Int :=
  match o.sign with
  | .plus => o.seconds
  | .hyphen => -o.seconds
  | .minus => -o.seconds

/- An offset is read. -/
theorem offset?_chars (o : Offset) :
    offset? o.chars = some o.ahead := by
  have hHours := o.hHours
  have hMinutes := o.hMinutes
  have hLast := o.minutes.digits_append (Nat.le_refl 2) stops_nil
  rw [List.append_nil] at hLast
  have hBounds : o.hours.value < 24 ∧ o.minutes.value < 60 := by
    omega
  unfold offset? chars ahead seconds
  cases o.sign
  all_goals
    simp [Sign.char, Numeral.digits_append, expect, hLast, hBounds]

/- An offset may follow a time of day. -/
theorem ends_chars (o : Offset) :
    Ends o.chars := by
  unfold chars
  constructor
  · apply stops_cons.mpr
    cases o.sign with
    | plus => rfl
    | hyphen => rfl
    | minus => rfl
  · cases o.sign with
    | plus => nofun
    | hyphen => nofun
    | minus => nofun

/- An offset has no blanks. -/
theorem isBlank_of_mem
    (o : Offset)
    {c : Char}
    (h : c ∈ o.chars) :
    Text.isBlank c = false := by
  unfold chars at h
  simp only [List.mem_cons, List.mem_append] at h
  rcases h with h | h | h | h
  · rw [h]
    cases o.sign with
    | plus => rfl
    | hyphen => rfl
    | minus => rfl
  · exact o.hours.isBlank_of_mem h
  · rw [h]
    rfl
  · exact o.minutes.isBlank_of_mem h

/- An offset is a count of minutes, less than a day. -/
theorem ahead_bounds (o : Offset) :
    (-86400 < o.ahead ∧ o.ahead < 86400) ∧ o.ahead % 60 = 0 := by
  have hHours := o.hHours
  have hMinutes := o.hMinutes
  unfold ahead seconds
  cases o.sign with
  | plus =>
      dsimp only
      omega
  | hyphen =>
      dsimp only
      omega
  | minus =>
      dsimp only
      omega

end Offset

end Calendar

open Calendar

namespace Timestamp

------------------------------------------------------------
-- Moves within a day
------------------------------------------------------------

/- How the time of day is carried over midnight by a move. -/
inductive Carried
    (seconds : Int)
    (t t' : Timestamp) : Prop
| within
    (hDate : t'.date = t.date)
    (hSecond : (t'.second : Int) = t.second + seconds)
| after
    (hDate : t'.date = t.date.next)
    (hSecond :
      (t'.second : Int) + secondsPerDay = t.second + seconds)
| before
    (hDate : t'.date.next = t.date)
    (hSecond :
      (t'.second : Int) = t.second + seconds + secondsPerDay)

/-
  A point in time is another one moved by some seconds, less
  than a day.  The fraction is kept, and with it a leap second;
  the time of day is that of the same date, of the next or of
  the one before.
-/
structure Moved
    (seconds : Int)
    (t t' : Timestamp) : Prop where
  valid : t'.Valid
  nano_eq : t'.nano = t.nano
  carried : Carried seconds t t'

/- A move by less than a day is carried into a day beside it. -/
theorem carried_shift
    {t : Timestamp}
    {seconds : Int}
    (h : t.second < secondsPerDay)
    (hDay : -86400 < seconds ∧ seconds < 86400) :
    Carried seconds t (t.shift seconds) := by
  have hDate :
      (t.shift seconds).date =
        Date.ofDayNumber
          (t.day + (t.second + seconds) / secondsPerDay) :=
    rfl
  have hClock :
      (t.shift seconds).second =
        ((t.second + seconds) % secondsPerDay).toNat :=
    rfl
  unfold secondsPerDay at h hDate hClock
  have hDays :
      (t.second + seconds) / (86400 : Nat) = 0 ∨
        (t.second + seconds) / (86400 : Nat) = 1 ∨
        (t.second + seconds) / (86400 : Nat) = -1 := by
    omega
  rcases hDays with hSame | hNext | hBefore
  · rw [hSame, Int.add_zero] at hDate
    refine .within hDate ?_
    omega
  · rw [hNext, Date.ofDayNumber_succ] at hDate
    refine .after hDate ?_
    unfold secondsPerDay
    omega
  · refine .before ?_ ?_
    · rw [hDate, hBefore, ← Date.ofDayNumber_succ,
        Int.neg_add_cancel_right]
      rfl
    · unfold secondsPerDay
      omega

/- A move by whole minutes stays in the calendar. -/
theorem moved_shift
    {t : Timestamp}
    {seconds : Int}
    (h : t.Valid)
    (hYear : FourDigits t.date.year)
    (hDay : -86400 < seconds ∧ seconds < 86400)
    (hMinutes : seconds % 60 = 0) :
    Moved seconds t (t.shift seconds) := by
  rcases h with ⟨_, hSecond, hNano, hLeap⟩
  have hCarried := carried_shift hSecond hDay
  have hRange : Date.YearInRange (t.shift seconds).date.year := by
    have hNext := t.date.year_next
    have hBefore := (t.shift seconds).date.year_next
    unfold FourDigits at hYear
    unfold Date.YearInRange
    cases hCarried with
    | within hDate _ =>
        rw [hDate]
        omega
    | after hDate _ =>
        rw [hDate]
        omega
    | before hDate _ =>
        rw [hDate] at hBefore
        omega
  have hClock :
      (t.shift seconds).second < secondsPerDay ∧
        (t.shift seconds).secondOfMinute = t.secondOfMinute := by
    unfold secondOfMinute shift secondsPerDay
    dsimp only
    omega
  refine ⟨⟨Date.valid_ofDayNumber hRange, hClock.1, hNano, ?_⟩, rfl,
    hCarried⟩
  rw [hClock.2]
  exact hLeap

/- Fields give a second of their minute, which may be a leap second. -/
theorem ofFields?_eq_some
    {d : Date}
    {hour minute second nano : Nat}
    {t : Timestamp}
    (hNano : nano < nanosPerSecond)
    (h : ofFields? d hour minute second nano = some t) :
    d.Valid ∧ hour < 24 ∧ minute < 60 ∧
      ∃ s < 60, ∃ n < 2 * nanosPerSecond,
        (nanosPerSecond ≤ n → s = 59) ∧
          t = ⟨d.dayNumber, (hour * 60 + minute) * 60 + s, n⟩ := by
  unfold ofFields? at h
  split at h
  · next hFields =>
      rcases hFields with ⟨hDate, hHour, hMinute, hSecond⟩
      refine ⟨hDate, hHour, hMinute, ?_⟩
      by_cases hLeap : second = 60
      · rw [if_pos hLeap] at h
        cases h
        exact
          ⟨59, by omega, nano + nanosPerSecond, by omega,
            fun _ => rfl, rfl⟩
      · rw [if_neg hLeap] at h
        cases h
        exact ⟨second, by omega, nano, by omega, by omega, rfl⟩
  · cases h

/- Fields give a point in time on their date. -/
theorem valid_of_ofFields?
    {d : Date}
    {hour minute second nano : Nat}
    {t : Timestamp}
    (hNano : nano < nanosPerSecond)
    (h : ofFields? d hour minute second nano = some t) :
    t.Valid ∧ t.date = d := by
  rcases ofFields?_eq_some hNano h with
    ⟨hDate, hHour, hMinute, s, hSecond, n, hBound, hLeap, rfl⟩
  have hBack : Date.ofDayNumber d.dayNumber = d :=
    Date.ofDayNumber_dayNumber hDate.2
  unfold Valid secondOfMinute Timestamp.date secondsPerDay
  rw [hBack]
  dsimp only
  exact ⟨⟨hDate, by omega, hBound, by omega⟩, rfl⟩

/- What a text without an offset means lies in its own year. -/
theorem valid_of_meaning?
    {w : Zoneless}
    {t : Timestamp}
    (h : w.meaning? = some t) :
    t.Valid ∧ FourDigits t.date.year := by
  have hYear := w.date.year.value_lt
  rcases valid_of_ofFields? (nanosOf_lt w.clock.hFraction) h with
    ⟨hValid, hDate⟩
  refine ⟨hValid, ?_⟩
  rw [hDate]
  unfold FourDigits WrittenDate.date
  dsimp only
  omega

------------------------------------------------------------
-- Texts with and without an offset
------------------------------------------------------------

/- A text without an offset is read as what it means. -/
theorem read?_zoneless (w : Zoneless) :
    read? w.text = w.meaning? := by
  have hEnds : Ends [] := ⟨Text.stops_nil, nofun⟩
  have hRead := w.read?_append hEnds nofun
  rw [List.append_nil] at hRead
  exact hRead

/- An offset after it moves the point in time. -/
theorem read?_zoned
    (w : Zoneless)
    {zone : List Char}
    {ahead : Int}
    (hZone : offset? zone = some ahead)
    (hEnds : Ends zone)
    (hBlank : ∀ c ∈ zone, Text.isBlank c = false) :
    read? (w.text ++ String.ofList zone) =
      w.meaning?.map (·.shift (-ahead)) := by
  have hSome : zone ≠ [] := by
    intro hNone
    rw [hNone] at hZone
    cases hZone
  unfold Zoneless.text
  rw [← String.ofList_append, w.read?_append hEnds hBlank, hZone,
    if_neg hSome]
  simp

/- The letter for UTC after it changes nothing. -/
theorem read?_utc (w : Zoneless) :
    read? (w.text ++ "Z") = w.meaning? := by
  have hEnds : Ends ['Z'] := ⟨Text.stops_cons.mpr rfl, nofun⟩
  have hRead :
      read? (w.text ++ "Z") = w.meaning?.map (·.shift (-0)) :=
    read?_zoned w rfl hEnds (List.forall_mem_singleton.mpr rfl)
  rw [hRead, Int.neg_zero]
  cases hMeaning : w.meaning? with
  | none => rfl
  | some t =>
      rw [Option.map_some, shift_zero (valid_of_meaning? hMeaning).1.2.1]

/- Blanks around a text change nothing. -/
theorem read?_surrounded
    {before after : List Char}
    (hBefore : ∀ c ∈ before, Text.isBlank c = true)
    (s : String)
    (hAfter : ∀ c ∈ after, Text.isBlank c = true) :
    read? (String.ofList before ++ s ++ String.ofList after) =
      read? s := by
  unfold read?
  dsimp only
  rw [String.toList_append, String.toList_append, String.toList_ofList,
    String.toList_ofList, Text.trim_surrounded hBefore s.toList hAfter]

/-
  A text without an offset is accepted exactly if it is with
  the letter for UTC, and means the same.  It is accepted
  exactly if it is with any other offset, which moves the
  point in time towards UTC.  Blanks around these texts
  change nothing.
-/
theorem zoneless_means_utc (w : Zoneless) :
    read? (w.text ++ "Z") = read? w.text ∧
      (∀ o : Offset,
        Option.Rel (Moved (-o.ahead)) (read? w.text)
          (read? (w.text ++ o.text))) ∧
      ∀ before after zone,
        (∀ c ∈ before, Text.isBlank c = true) →
          (∀ c ∈ after, Text.isBlank c = true) →
            read?
                (String.ofList before ++ (w.text ++ zone) ++
                  String.ofList after) =
              read? (w.text ++ zone) := by
  refine ⟨?_, ?_, ?_⟩
  · rw [read?_utc, read?_zoneless]
  · intro o
    have hRead :
        read? (w.text ++ o.text) =
          w.meaning?.map (·.shift (-o.ahead)) :=
      read?_zoned w o.offset?_chars o.ends_chars
        fun _ hc => o.isBlank_of_mem hc
    rw [hRead, read?_zoneless]
    cases hMeaning : w.meaning? with
    | none => exact .none
    | some t =>
        rcases valid_of_meaning? hMeaning with ⟨hValid, hYear⟩
        rcases o.ahead_bounds with ⟨hDay, hMinutes⟩
        exact
          .some (moved_shift hValid hYear (by omega) (by omega))
  · intro before after zone hBefore hAfter
    exact read?_surrounded hBefore (w.text ++ zone) hAfter

/- The leap second at the end of the year 2016, and a half. -/
def lastLeapSecond : Zoneless where
  date :=
    { year := ⟨"2016".toList, rfl, List.all_eq_true.mp rfl⟩
      month := ⟨"12".toList, rfl, List.all_eq_true.mp rfl⟩
      day := ⟨"31".toList, rfl, List.all_eq_true.mp rfl⟩ }
  separator := .letter
  clock :=
    { hour := ⟨"23".toList, rfl, List.all_eq_true.mp rfl⟩
      minute := ⟨"59".toList, rfl, List.all_eq_true.mp rfl⟩
      second := ⟨"60".toList, rfl, List.all_eq_true.mp rfl⟩
      fraction := "5".toList
      hFraction := List.all_eq_true.mp rfl }

/- Half past one hour behind UTC. -/
def behind : Offset where
  sign := .minus
  hours := ⟨"01".toList, rfl, List.all_eq_true.mp rfl⟩
  minutes := ⟨"30".toList, rfl, List.all_eq_true.mp rfl⟩
  hHours := by decide
  hMinutes := by decide

/- An offset carries that leap second into the next year. -/
theorem zoneless_means_utc_sample :
    read? lastLeapSecond.text =
        some { day := 6209, second := 86399, nano := 1500000000 } ∧
      read? (lastLeapSecond.text ++ behind.text) =
        some { day := 6210, second := 5399, nano := 1500000000 } ∧
      Option.Rel (Moved 5400) (read? lastLeapSecond.text)
        (read? (lastLeapSecond.text ++ behind.text)) ∧
      read?
          (String.ofList ['\t'] ++ (lastLeapSecond.text ++ "Z") ++
            String.ofList [' ', '\n']) =
        read? (lastLeapSecond.text ++ "Z") := by
  rcases zoneless_means_utc lastLeapSecond with
    ⟨_, hOffsets, hBlanks⟩
  refine ⟨by decide, by decide, hOffsets behind, ?_⟩
  exact hBlanks ['\t'] [' ', '\n'] "Z" (List.all_eq_true.mp rfl)
    (List.all_eq_true.mp rfl)

end Timestamp

end RelationalRest
