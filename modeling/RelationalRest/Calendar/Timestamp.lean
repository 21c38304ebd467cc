import RelationalRest.Calendar.Date

/-
  This file defines points in time without a zone: a day, a
  second of that day and nanoseconds.  In a leap second the
  nanoseconds reach from one to two milliards.

  Key definitions include:
    * `Timestamp`
    * `Timestamp.ofFields?`
    * `Timestamp.shift`
    * `Timestamp.nanosSinceEpoch`
    * `Timestamp.ofMicros?`
-/

namespace RelationalRest

/- A point in time. -/
structure Timestamp where
  day : Int
  second : Nat
  nano : Nat
deriving DecidableEq, Repr

namespace Timestamp

/- The seconds of a day. -/
def secondsPerDay : Nat :=
  86400

/- The nanoseconds of a second. -/
def nanosPerSecond : Nat :=
  1000000000

/- The date on which a point in time falls. -/
def date (t : Timestamp) : Date :=
  Date.ofDayNumber t.day

/- The hour of the day. -/
def hour (t : Timestamp) : Nat :=
  t.second / 3600

/- The minute of the hour. -/
def minute (t : Timestamp) : Nat :=
  t.second / 60 % 60

/- The second of the minute. -/
def secondOfMinute (t : Timestamp) : Nat :=
  t.second % 60

/-
  A point in time that exists: the date is in range, the
  second belongs to the day, and only the last second of a
  minute may be a leap second.
-/
def Valid (t : Timestamp) : Prop :=
  t.date.Valid ∧ t.second < secondsPerDay ∧
    t.nano < 2 * nanosPerSecond ∧
    (nanosPerSecond ≤ t.nano → t.secondOfMinute = 59)

instance (t : Timestamp) : Decidable t.Valid := by
  unfold Valid
  infer_instance

/-
  The point in time of a date, an hour, a minute, a second
  and nanoseconds.  Second 60 is the leap second after 59.
-/
def ofFields?
    (d : Date)
    (hour minute second nano : Nat) : Option Timestamp :=
  if d.Valid ∧ hour < 24 ∧ minute < 60 ∧ second ≤ 60 then
    let (second, nano) :=
      if second = 60 then (59, nano + nanosPerSecond)
      else (second, nano)
    some
      { day := d.dayNumber
        second := (hour * 60 + minute) * 60 + second
        nano }
  else
    none

/- Midnight at the start of a date. -/
def midnight (d : Date) : Timestamp :=
  { day := d.dayNumber, second := 0, nano := 0 }

/- Move by whole seconds, keeping the fraction. -/
def shift
    (t : Timestamp)
    (seconds : Int) : Timestamp :=
  let total := t.second + seconds
  { day := t.day + total / secondsPerDay
    second := (total % secondsPerDay).toNat
    nano := t.nano }

/- The nanoseconds since the start of the year 2000. -/
def nanosSinceEpoch (t : Timestamp) : Int :=
  (t.day * secondsPerDay + t.second) * nanosPerSecond + t.nano

/-
  The microseconds since the start of the year 2000, dropping
  the part of a microsecond.
-/
def microsSinceEpoch (t : Timestamp) : Int :=
  Int.tdiv t.nanosSinceEpoch 1000

/- The point in time of microseconds, if its year is in range. -/
def ofMicros? (micros : Int) : Option Timestamp :=
  let seconds := micros / 1000000
  let t : Timestamp :=
    { day := seconds / secondsPerDay
      second := (seconds % secondsPerDay).toNat
      nano := (micros % 1000000).toNat * 1000 }
  if Date.YearInRange t.date.year then some t else none

end Timestamp

end RelationalRest
