/-
  This file defines dates of the proleptic Gregorian calendar
  and their numbering by days since the first of January 2000.

  A period of 400 years has 146097 days.  Within it years are
  counted from the first of March, so that a leap day is the
  last day of its year.

  Key definitions include:
    * `Date`
    * `Date.Valid`
    * `Date.dayNumber`
    * `Date.ofDayNumber`
-/

namespace RelationalRest

/- A date. -/
structure Date where
  year : Int
  month : Nat
  day : Nat
deriving DecidableEq, Repr

namespace Date

/- The years that dates may have. -/
def YearInRange (year : Int) : Prop :=
  -262143 ≤ year ∧ year ≤ 262142

instance (year : Int) : Decidable (YearInRange year) := by
  unfold YearInRange
  infer_instance

/- A year with a leap day. -/
def IsLeapYear (year : Int) : Prop :=
  year % 4 = 0 ∧ (year % 100 ≠ 0 ∨ year % 400 = 0)

instance (year : Int) : Decidable (IsLeapYear year) := by
  unfold IsLeapYear
  infer_instance

/- The count of days in a month. -/
def monthLength
    (year : Int)
    (month : Nat) : Nat :=
  match month with
  | 2 => if IsLeapYear year then 29 else 28
  | 4 | 6 | 9 | 11 => 30
  | _ => 31

/- A date that exists, with a year in range. -/
def Valid (d : Date) : Prop :=
  YearInRange d.year ∧ 1 ≤ d.month ∧ d.month ≤ 12 ∧
    1 ≤ d.day ∧ d.day ≤ monthLength d.year d.month

instance (d : Date) : Decidable d.Valid := by
  unfold Valid
  infer_instance

/- The days from the first of March of year 0 to the epoch. -/
def epochOffset : Int :=
  730425

/- The count of days since the first of January 2000. -/
def dayNumber (d : Date) : Int :=
  let month : Int := d.month
  let year := if month ≤ 2 then d.year - 1 else d.year
  let marchMonth := if month ≤ 2 then month + 9 else month - 3
  let dayOfYear := (153 * marchMonth + 2) / 5 + d.day - 1
  let yearOfEra := year % 400
  let dayOfEra :=
    yearOfEra * 365 + yearOfEra / 4 - yearOfEra / 100 + dayOfYear
  year / 400 * 146097 + dayOfEra - epochOffset

/- The date of a day number. -/
def ofDayNumber (n : Int) : Date :=
  let shifted := n + epochOffset
  let era := shifted / 146097
  let dayOfEra := shifted % 146097
  let yearOfEra :=
    (dayOfEra - dayOfEra / 1460 + dayOfEra / 36524 -
      dayOfEra / 146096) / 365
  let dayOfYear :=
    dayOfEra -
      (365 * yearOfEra + yearOfEra / 4 - yearOfEra / 100)
  let marchMonth := (5 * dayOfYear + 2) / 153
  let day := dayOfYear - (153 * marchMonth + 2) / 5 + 1
  let month :=
    if marchMonth < 10 then marchMonth + 3 else marchMonth - 9
  let year :=
    yearOfEra + era * 400 + (if month ≤ 2 then 1 else 0)
  { year, month := month.toNat, day := day.toNat }

end Date

end RelationalRest
