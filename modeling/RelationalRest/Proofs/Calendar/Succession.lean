import Mathlib.Tactic.IntervalCases
import RelationalRest.Proofs.Calendar.DayNumber

/-
  Day numbers follow the calendar: every proper date is found
  again under its own number, and the number after it is that
  of the next day, across the ends of months and years.

  Key definitions include:
    * `Date.next`

  Main declarations:
    * `Date.ofDayNumber_dayNumber`
    * `Date.dayNumber_next`
    * `Date.ofDayNumber_succ`
-/

namespace RelationalRest

namespace Date

variable {d : Date}

------------------------------------------------------------
-- Dates found by their numbers
------------------------------------------------------------

/- The days of a period are fewer than its length. -/
theorem PeriodDay.dayOfPeriod_bounds (p : PeriodDay) :
    0 ≤ p.dayOfPeriod ∧ p.dayOfPeriod < 146097 := by
  have hCentury := p.hCentury
  have hSpan := p.hSpan
  have hYear := p.hYear
  have hDay := p.hDay
  have hLeap := p.hLeap
  unfold dayOfPeriod
  omega

/- The period and the day within it are found from the number. -/
theorem ofDayNumber_period
    (era : Int)
    (p : PeriodDay) :
    ofDayNumber (era * 146097 + p.dayOfPeriod - epochOffset) =
      ofMarch (p.yearOfPeriod + era * 400) p.day := by
  rcases exists_ofMarch
      (era * 146097 + p.dayOfPeriod - epochOffset) with
    ⟨era', p', hNumber, hDate⟩
  have hBounds := p.dayOfPeriod_bounds
  have hBounds' := p'.dayOfPeriod_bounds
  have hEra : era' = era := by omega
  have hPeriod : p'.dayOfPeriod = p.dayOfPeriod := by omega
  have hYear : p'.yearOfPeriod = p.yearOfPeriod := by
    rw [← yearOfPeriod_dayOfPeriod, hPeriod,
      yearOfPeriod_dayOfPeriod]
  have hDay : p'.day = p.day := by
    rw [p.dayOfPeriod_eq, p'.dayOfPeriod_eq, hYear] at hPeriod
    omega
  rw [hDate, hEra, hYear, hDay]

/- Every day of a year that begins in March lies in a period. -/
theorem exists_periodDay
    {year day : Int}
    (hYear : 0 ≤ year ∧ year < 400)
    (hDay : 0 ≤ day ∧ day ≤ 365)
    (hLeap : day = 365 → IsLeapYear (year + 1)) :
    ∃ p : PeriodDay, p.yearOfPeriod = year ∧ p.day = day := by
  unfold IsLeapYear at hLeap
  refine
    ⟨⟨year / 100, year % 100 / 4, year % 4, day, ?_, ?_, ?_, hDay,
      ?_⟩, ?_, rfl⟩
  · omega
  · omega
  · omega
  · omega
  · unfold PeriodDay.yearOfPeriod
    dsimp only
    omega

/- The year, begun in March, to which a date belongs. -/
def marchYear (d : Date) : Int :=
  if d.month ≤ 2 then d.year - 1 else d.year

/- The month of a date, counted from 0 for March. -/
def monthFromMarch (d : Date) : Int :=
  if d.month ≤ 2 then d.month + 9 else d.month - 3

/- The day of a date within the year that begins in March. -/
def dayFromMarch (d : Date) : Int :=
  (153 * d.monthFromMarch + 2) / 5 + d.day - 1

/- January and February belong to the year that began before. -/
theorem march_cases (d : Date) :
    (d.month ≤ 2 ∧ d.marchYear = d.year - 1 ∧
        d.monthFromMarch = d.month + 9) ∨
      (2 < d.month ∧ d.marchYear = d.year ∧
        d.monthFromMarch = d.month - 3) := by
  by_cases h : d.month ≤ 2
  · exact .inl ⟨h, if_pos h, if_pos h⟩
  · exact .inr ⟨Nat.lt_of_not_le h, if_neg h, if_neg h⟩

/- A day number counts periods, years and days. -/
theorem dayNumber_eq (d : Date) :
    d.dayNumber =
      d.marchYear / 400 * 146097 +
        (daysBeforeYear (d.marchYear % 400) + d.dayFromMarch) -
        epochOffset := by
  unfold dayNumber dayFromMarch daysBeforeYear
  dsimp only
  rcases d.march_cases with
    ⟨h, hYear, hMonth⟩ | ⟨h, hYear, hMonth⟩
  · have hEarly : (d.month : Int) ≤ 2 := by omega
    rw [hYear, hMonth, if_pos hEarly, if_pos hEarly]
    omega
  · have hLate : ¬ (d.month : Int) ≤ 2 := by omega
    rw [hYear, hMonth, if_neg hLate, if_neg hLate]
    omega

/- The day of a proper date fits the month and the year. -/
theorem bounds_of_proper
    (h : d.Proper) :
    (1 ≤ d.month ∧ d.month ≤ 12) ∧ (1 ≤ d.day ∧ d.day ≤ 31) ∧
      (d.month ∈ [4, 6, 9, 11] → d.day ≤ 30) ∧
      (d.month = 2 → d.day ≤ 29) ∧
      (d.month = 2 → d.day = 29 → IsLeapYear d.year) := by
  rcases h with ⟨hFirst, hLast, hLow, hHigh⟩
  unfold monthLength at hHigh
  grind

/- A day of a month, counted from March, is a day of the month. -/
theorem marchMonth_eq
    {month day : Int}
    (hMonth : 0 ≤ month ∧ month ≤ 11)
    (hDay : 1 ≤ day ∧ day ≤ 31)
    (hShort : month ∈ [1, 3, 6, 8] → day ≤ 30)
    (hFebruary : month = 11 → day ≤ 29) :
    marchMonth ((153 * month + 2) / 5 + day - 1) = month := by
  rcases hMonth with ⟨hFirst, hLast⟩
  unfold marchMonth
  simp only [List.mem_cons, List.not_mem_nil, or_false] at hShort
  interval_cases month
  all_goals omega

/- The day of a year falls in the month and on the day. -/
theorem marchMonth_dayFromMarch
    (h : d.Proper) :
    marchMonth d.dayFromMarch = d.monthFromMarch ∧
      dayOfMonth d.dayFromMarch = d.day := by
  rcases bounds_of_proper h with
    ⟨hMonth, hDay, hShort, hFebruary, _⟩
  simp only [List.mem_cons, List.not_mem_nil, or_false] at hShort
  have hFound : marchMonth d.dayFromMarch = d.monthFromMarch := by
    unfold dayFromMarch
    apply marchMonth_eq
    · rcases d.march_cases with ⟨_, _, hFrom⟩ | ⟨_, _, hFrom⟩ <;> omega
    · omega
    · simp only [List.mem_cons, List.not_mem_nil, or_false]
      rcases d.march_cases with ⟨_, _, hFrom⟩ | ⟨_, _, hFrom⟩ <;> omega
    · rcases d.march_cases with ⟨_, _, hFrom⟩ | ⟨_, _, hFrom⟩ <;> omega
  refine ⟨hFound, ?_⟩
  unfold dayOfMonth
  rw [hFound]
  unfold dayFromMarch
  omega

/- The day of a year leads back to the date. -/
theorem ofMarch_dayFromMarch
    (h : d.Proper) :
    ofMarch d.marchYear d.dayFromMarch = d := by
  have hMonth := (bounds_of_proper h).1
  rcases marchMonth_dayFromMarch h with ⟨hFound, hDayFound⟩
  have hFields :
      ∀ {year : Int} {month day : Nat},
        year = d.year → month = d.month → day = d.day →
          (⟨year, month, day⟩ : Date) = d := by
    rintro _ _ _ rfl rfl rfl
    rfl
  rcases d.march_cases with
    ⟨hEarly, hYear, hFrom⟩ | ⟨hLate, hYear, hFrom⟩
  · rw [ofMarch_of_ge (by omega) (by omega)]
    exact hFields (by omega) (by omega) (by omega)
  · rw [ofMarch_of_lt (by omega) (by omega)]
    exact hFields (by omega) (by omega) (by omega)

/- The days of a year that begins in March; only a leap day is the last. -/
theorem dayFromMarch_bounds
    (h : d.Proper) :
    (0 ≤ d.dayFromMarch ∧ d.dayFromMarch ≤ 365) ∧
      (d.dayFromMarch = 365 → IsLeapYear (d.marchYear + 1)) := by
  rcases bounds_of_proper h with
    ⟨hMonth, hDay, hShort, hFebruary, hLeap⟩
  simp only [List.mem_cons, List.not_mem_nil, or_false] at hShort
  unfold IsLeapYear at hLeap ⊢
  unfold dayFromMarch
  rcases d.march_cases with
    ⟨hEarly, hYear, hFrom⟩ | ⟨hLate, hYear, hFrom⟩
  · rw [hYear, hFrom]
    omega
  · rw [hYear, hFrom]
    omega

/- A proper date is that of its own number. -/
theorem ofDayNumber_dayNumber
    (h : d.Proper) :
    ofDayNumber d.dayNumber = d := by
  rcases dayFromMarch_bounds h with ⟨hBounds, hLast⟩
  have hRest : 0 ≤ d.marchYear % 400 ∧ d.marchYear % 400 < 400 := by
    omega
  have hLeap :
      d.dayFromMarch = 365 → IsLeapYear (d.marchYear % 400 + 1) := by
    intro hSame
    have hYear := hLast hSame
    unfold IsLeapYear at hYear ⊢
    omega
  rcases exists_periodDay hRest hBounds hLeap with ⟨p, hYear, hDay⟩
  have hPeriod :
      daysBeforeYear (d.marchYear % 400) + d.dayFromMarch =
        p.dayOfPeriod := by
    rw [p.dayOfPeriod_eq, hYear, hDay]
  have hBack :
      d.marchYear % 400 + d.marchYear / 400 * 400 = d.marchYear := by
    omega
  rw [dayNumber_eq, hPeriod, ofDayNumber_period, hYear, hDay, hBack,
    ofMarch_dayFromMarch h]

------------------------------------------------------------
-- The next day
------------------------------------------------------------

/- The day after a date. -/
def next (d : Date) : Date :=
  if d.day < monthLength d.year d.month then
    { d with day := d.day + 1 }
  else if d.month < 12 then
    { d with month := d.month + 1, day := 1 }
  else
    { year := d.year + 1, month := 1, day := 1 }

/- The first of March follows the last day of February. -/
theorem dayNumber_march (year : Int) :
    dayNumber { year, month := 3, day := 1 } =
      dayNumber { year, month := 2, day := monthLength year 2 } + 1 := by
  by_cases hLeap : IsLeapYear year
  · have hLength : monthLength year 2 = 29 := if_pos hLeap
    unfold IsLeapYear at hLeap
    unfold dayNumber
    rw [hLength]
    dsimp only
    omega
  · have hLength : monthLength year 2 = 28 := if_neg hLeap
    unfold IsLeapYear at hLeap
    unfold dayNumber
    rw [hLength]
    dsimp only
    omega

/- The first day of a month follows the last day of the one before. -/
theorem dayNumber_monthEnd
    (year : Int)
    {month : Nat}
    (hFirst : 1 ≤ month)
    (hLast : month < 12) :
    dayNumber { year, month := month + 1, day := 1 } =
      dayNumber { year, month, day := monthLength year month } + 1 := by
  by_cases hFebruary : month = 2
  · rw [hFebruary]
    exact dayNumber_march year
  · unfold dayNumber monthLength
    interval_cases month
    all_goals
      simp only [Nat.cast_ofNat, Nat.cast_one, Int.reduceLE, reduceIte]
    all_goals omega

/- The day after a proper date has the next number. -/
theorem dayNumber_next
    (h : d.Proper) :
    d.next.dayNumber = d.dayNumber + 1 := by
  rcases h with ⟨hFirst, hLast, _, hLength⟩
  unfold next
  split
  · unfold dayNumber
    dsimp only
    omega
  · have hEnd : d.day = monthLength d.year d.month := by omega
    split
    · next hMonth =>
        rw [dayNumber_monthEnd d.year hFirst hMonth, ← hEnd]
    · have hDecember : d.month = 12 := by omega
      have hLong : d.day = 31 := by
        rw [hEnd, hDecember]
        rfl
      unfold dayNumber
      rw [hDecember, hLong]
      dsimp only
      omega

/- Every month has a first day. -/
theorem one_le_monthLength
    (year : Int)
    (month : Nat) :
    1 ≤ monthLength year month := by
  unfold monthLength
  grind

/- The day after a proper date is one. -/
theorem proper_next
    (h : d.Proper) :
    d.next.Proper := by
  rcases h with ⟨hFirst, hLast, hDay, hLength⟩
  unfold next
  split
  · next hSame =>
      exact ⟨hFirst, hLast, Nat.le_succ_of_le hDay, hSame⟩
  · split
    · next hMonth =>
        exact
          ⟨Nat.le_succ_of_le hFirst, hMonth, Nat.le_refl 1,
            one_le_monthLength _ _⟩
    · exact
        ⟨Nat.le_refl 1, (by decide : 1 ≤ 12), Nat.le_refl 1,
          one_le_monthLength _ _⟩

/- The next day may be in the next year. -/
theorem year_next (d : Date) :
    d.next.year = d.year ∨ d.next.year = d.year + 1 := by
  unfold next
  split
  · exact .inl rfl
  · split
    · exact .inl rfl
    · exact .inr rfl

/- The date of the next number is the next day. -/
theorem ofDayNumber_succ (n : Int) :
    ofDayNumber (n + 1) = (ofDayNumber n).next := by
  have hDate := proper_ofDayNumber n
  rw [← ofDayNumber_dayNumber (proper_next hDate),
    dayNumber_next hDate, dayNumber_ofDayNumber]

end Date

end RelationalRest
