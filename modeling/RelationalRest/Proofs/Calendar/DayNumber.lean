import RelationalRest.Calendar.Timestamp

/-
  How a day number is turned into a date: the month and the
  day belong to its year, so that the date exists if its year
  is in range, and its own day number is the one that it was
  made from.

  The year of a day is found by a division that is corrected
  for the leap days before it.  The day is therefore taken
  apart into centuries, spans of four years, years and days,
  where only the last year of a span, and only the last span
  of a period, may be longer than the others.

  Key definitions include:
    * `Date.PeriodDay`
    * `Date.ofMarch`
    * `Date.Proper`

  Main declarations:
    * `Date.yearOfPeriod_dayOfPeriod`
    * `Date.exists_ofMarch`
    * `Date.dayNumber_ofDayNumber`
    * `Date.proper_ofDayNumber`
-/

namespace RelationalRest

namespace Date

------------------------------------------------------------
-- Days of a period
------------------------------------------------------------

/- The days of a period before one of its years. -/
def daysBeforeYear (yearOfPeriod : Int) : Int :=
  365 * yearOfPeriod + yearOfPeriod / 4 - yearOfPeriod / 100

/- The year of a period to which one of its days belongs. -/
def yearOfPeriod (dayOfPeriod : Int) : Int :=
  (dayOfPeriod - dayOfPeriod / 1460 + dayOfPeriod / 36524 -
    dayOfPeriod / 146096) / 365

/-
  A day of a period.  The day that only a leap year has is the
  last one of its span, and a span that ends a century has it
  only if it ends the period.
-/
structure PeriodDay where
  century : Int
  span : Int
  year : Int
  day : Int
  hCentury : 0 ≤ century ∧ century ≤ 3
  hSpan : 0 ≤ span ∧ span ≤ 24
  hYear : 0 ≤ year ∧ year ≤ 3
  hDay : 0 ≤ day ∧ day ≤ 365
  hLeap : day = 365 → year = 3 ∧ (span = 24 → century = 3)

namespace PeriodDay

/- The year of the period. -/
def yearOfPeriod (p : PeriodDay) : Int :=
  100 * p.century + 4 * p.span + p.year

/- The number of the day within the period. -/
def dayOfPeriod (p : PeriodDay) : Int :=
  36524 * p.century + 1461 * p.span + 365 * p.year + p.day

/- The year of a day lies within the period. -/
theorem yearOfPeriod_bounds (p : PeriodDay) :
    0 ≤ p.yearOfPeriod ∧ p.yearOfPeriod < 400 := by
  have hCentury := p.hCentury
  have hSpan := p.hSpan
  have hYear := p.hYear
  unfold yearOfPeriod
  omega

/- A day is the days before its year and its day of the year. -/
theorem dayOfPeriod_eq (p : PeriodDay) :
    p.dayOfPeriod = daysBeforeYear p.yearOfPeriod + p.day := by
  have hCentury := p.hCentury
  have hSpan := p.hSpan
  have hYear := p.hYear
  unfold dayOfPeriod daysBeforeYear yearOfPeriod
  omega

/- Only a year that ends in a leap day has 366 days. -/
theorem isLeapYear_of_day_eq
    (p : PeriodDay)
    (h : p.day = 365) :
    IsLeapYear (p.yearOfPeriod + 1) := by
  have hCentury := p.hCentury
  have hSpan := p.hSpan
  have hLeap := p.hLeap h
  unfold IsLeapYear yearOfPeriod
  omega

end PeriodDay

/- The corrected division finds the year of a day. -/
theorem yearOfPeriod_dayOfPeriod (p : PeriodDay) :
    yearOfPeriod p.dayOfPeriod = p.yearOfPeriod := by
  rcases p with
    ⟨century, span, year, day, hCentury, hSpan, hYear, hDay, hLeap⟩
  unfold yearOfPeriod PeriodDay.dayOfPeriod PeriodDay.yearOfPeriod
  dsimp only
  generalize hn :
    36524 * century + 1461 * span + 365 * year + day = n
  have hLow : 36524 * century ≤ n := by omega
  have hLast : n ≤ 146096 := by omega
  -- The last day of the period would begin a fifth century.
  have hCenturies : n / 36524 - n / 146096 = century := by
    by_cases hEnd : n = 146096
    · omega
    · have hHigh : n < 36524 * century + 36524 := by omega
      have hQuotient : n / 36524 = century := by omega
      omega
  have hSpans :
      n / 1460 = 25 * century + span ∨
        n / 1460 = 25 * century + span + 1 ∧
          year = 3 ∧ 269 ≤ day := by
    omega
  omega

/- Every number below the length of a period is a day of it. -/
theorem exists_dayOfPeriod_eq
    {n : Int}
    (h : 0 ≤ n ∧ n < 146097) :
    ∃ p : PeriodDay, p.dayOfPeriod = n := by
  obtain ⟨century, hCentury⟩ :
      ∃ century, century = min (n / 36524) 3 := ⟨_, rfl⟩
  obtain ⟨span, hSpan⟩ :
      ∃ span, span = (n - 36524 * century) / 1461 := ⟨_, rfl⟩
  obtain ⟨year, hYear⟩ :
      ∃ year,
        year = min ((n - 36524 * century - 1461 * span) / 365) 3 :=
    ⟨_, rfl⟩
  let day := n - 36524 * century - 1461 * span - 365 * year
  refine
    ⟨⟨century, span, year, day, ?_, ?_, ?_, ?_, ?_⟩, ?_⟩
  · omega
  · omega
  · omega
  · omega
  · omega
  · dsimp only [PeriodDay.dayOfPeriod, day]
    omega

------------------------------------------------------------
-- Years that begin in March
------------------------------------------------------------

/- The month, from 0 for March, in which a day of a year falls. -/
def marchMonth (dayOfYear : Int) : Int :=
  (5 * dayOfYear + 2) / 153

/- The day of the month on which a day of a year falls. -/
def dayOfMonth (dayOfYear : Int) : Int :=
  dayOfYear - (153 * marchMonth dayOfYear + 2) / 5 + 1

/- The date of a day of a year that begins in March. -/
def ofMarch
    (year dayOfYear : Int) : Date :=
  let m := marchMonth dayOfYear
  let month := if m < 10 then m + 3 else m - 9
  { year := year + (if month ≤ 2 then 1 else 0)
    month := month.toNat
    day := (dayOfMonth dayOfYear).toNat }

/- Months begin at their days, and only February may be short. -/
theorem dayOfMonth_bounds
    {d : Int}
    (h : 0 ≤ d ∧ d ≤ 365) :
    (0 ≤ marchMonth d ∧ marchMonth d ≤ 11) ∧
      (1 ≤ dayOfMonth d ∧ dayOfMonth d ≤ 31) ∧
      (marchMonth d ∈ [1, 3, 6, 8] → dayOfMonth d ≤ 30) ∧
      (marchMonth d = 11 →
        dayOfMonth d ≤ 29 ∧ (d ≠ 365 → dayOfMonth d ≤ 28)) := by
  have hUnfold : dayOfMonth d = d - (153 * marchMonth d + 2) / 5 + 1 :=
    rfl
  have hMonth : marchMonth d = (5 * d + 2) / 153 := rfl
  generalize marchMonth d = m at hUnfold hMonth ⊢
  simp only [List.mem_cons, List.not_mem_nil, or_false]
  omega

/- The month and the day of a date belong to its year. -/
def Proper (d : Date) : Prop :=
  1 ≤ d.month ∧ d.month ≤ 12 ∧
    1 ≤ d.day ∧ d.day ≤ monthLength d.year d.month

/- A date is proper if no month of its length excludes its day. -/
theorem proper_mk
    {year : Int}
    {month day : Nat}
    (hMonth : 1 ≤ month ∧ month ≤ 12)
    (hDay : 1 ≤ day ∧ day ≤ 31)
    (hShort : month ∈ [4, 6, 9, 11] → day ≤ 30)
    (hFebruary : month = 2 → day ≤ 29)
    (hCommon : month = 2 → ¬ IsLeapYear year → day ≤ 28) :
    Proper { year, month, day } := by
  refine ⟨hMonth.1, hMonth.2, hDay.1, ?_⟩
  dsimp only
  unfold monthLength
  split
  · split
    · exact hFebruary rfl
    · next hLeap => exact hCommon rfl hLeap
  · exact hShort (by simp)
  · exact hShort (by simp)
  · exact hShort (by simp)
  · exact hShort (by simp)
  · exact hDay.2

/- From March to December the year is the one that began. -/
theorem ofMarch_of_lt
    {year d : Int}
    (hMonth : 0 ≤ marchMonth d)
    (h : marchMonth d < 10) :
    ofMarch year d =
      { year
        month := (marchMonth d + 3).toNat
        day := (dayOfMonth d).toNat } := by
  have hLate : ¬ marchMonth d + 3 ≤ 2 := by omega
  simp only [ofMarch, if_pos h, if_neg hLate, Int.add_zero]

/- January and February belong to the year after. -/
theorem ofMarch_of_ge
    {year d : Int}
    (hMonth : marchMonth d ≤ 11)
    (h : ¬ marchMonth d < 10) :
    ofMarch year d =
      { year := year + 1
        month := (marchMonth d - 9).toNat
        day := (dayOfMonth d).toNat } := by
  have hEarly : marchMonth d - 9 ≤ 2 := by omega
  simp only [ofMarch, if_neg h, if_pos hEarly]

/- A day of a year that begins in March is a proper date. -/
theorem proper_ofMarch
    {year d : Int}
    (hDay : 0 ≤ d ∧ d ≤ 365)
    (hLeap : d = 365 → IsLeapYear (year + 1)) :
    (ofMarch year d).Proper := by
  rcases dayOfMonth_bounds hDay with
    ⟨hMonth, hBounds, hShort, hFebruary⟩
  simp only [List.mem_cons, List.not_mem_nil, or_false] at hShort
  by_cases h : marchMonth d < 10
  · rw [ofMarch_of_lt hMonth.1 h]
    refine proper_mk ?_ ?_ ?_ ?_ ?_
    · omega
    · omega
    · simp only [List.mem_cons, List.not_mem_nil, or_false]
      omega
    · omega
    · omega
  · rw [ofMarch_of_ge hMonth.2 h]
    refine proper_mk ?_ ?_ ?_ ?_ ?_
    · omega
    · omega
    · simp only [List.mem_cons, List.not_mem_nil, or_false]
      omega
    · omega
    · intro hSecond hCommon
      have hNotLast : d ≠ 365 := fun hLast => hCommon (hLeap hLast)
      omega

/- The number of a date, by its year of a period and its day. -/
theorem dayNumber_ofMarch
    {era year d : Int}
    (hYear : 0 ≤ year ∧ year < 400)
    (hDay : 0 ≤ d ∧ d ≤ 365) :
    (ofMarch (year + era * 400) d).dayNumber =
      era * 146097 + (daysBeforeYear year + d) - epochOffset := by
  rcases dayOfMonth_bounds hDay with ⟨hMonth, hBounds, _, _⟩
  have hUnfold :
      dayOfMonth d = d - (153 * marchMonth d + 2) / 5 + 1 :=
    rfl
  have hEra : (year + era * 400) / 400 = era := by omega
  have hRest : (year + era * 400) % 400 = year := by omega
  by_cases h : marchMonth d < 10
  · rw [ofMarch_of_lt hMonth.1 h]
    have hBack : ((marchMonth d + 3).toNat : Int) = marchMonth d + 3 := by
      omega
    have hLate : ¬ marchMonth d + 3 ≤ 2 := by omega
    have hSame : marchMonth d + 3 - 3 = marchMonth d := by omega
    have hDayBack : ((dayOfMonth d).toNat : Int) = dayOfMonth d := by
      omega
    unfold dayNumber
    simp only [hBack, if_neg hLate, hSame, hDayBack, hEra, hRest]
    unfold daysBeforeYear
    omega
  · rw [ofMarch_of_ge hMonth.2 h]
    have hBack : ((marchMonth d - 9).toNat : Int) = marchMonth d - 9 := by
      omega
    have hEarly : marchMonth d - 9 ≤ 2 := by omega
    have hSame : marchMonth d - 9 + 9 = marchMonth d := by omega
    have hSameYear : year + era * 400 + 1 - 1 = year + era * 400 := by
      omega
    have hDayBack : ((dayOfMonth d).toNat : Int) = dayOfMonth d := by
      omega
    unfold dayNumber
    simp only [hBack, if_pos hEarly, hSame, hSameYear, hDayBack,
      hEra, hRest]
    unfold daysBeforeYear
    omega

------------------------------------------------------------
-- Day numbers
------------------------------------------------------------

/- The date of a number is found from its period and its day. -/
theorem exists_ofMarch (n : Int) :
    ∃ (era : Int) (p : PeriodDay),
      n = era * 146097 + p.dayOfPeriod - epochOffset ∧
        ofDayNumber n =
          ofMarch (p.yearOfPeriod + era * 400) p.day := by
  have hBounds :
      0 ≤ (n + epochOffset) % 146097 ∧
        (n + epochOffset) % 146097 < 146097 := by
    omega
  rcases exists_dayOfPeriod_eq hBounds with ⟨p, hDay⟩
  refine ⟨(n + epochOffset) / 146097, p, ?_, ?_⟩
  · omega
  · have hYear := yearOfPeriod_dayOfPeriod p
    have hRest : p.day = p.dayOfPeriod - daysBeforeYear p.yearOfPeriod := by
      have := p.dayOfPeriod_eq
      omega
    rw [hRest, ← hYear, hDay]
    rfl

/- A date of a number has that number. -/
theorem dayNumber_ofDayNumber (n : Int) :
    (ofDayNumber n).dayNumber = n := by
  rcases exists_ofMarch n with ⟨era, p, hNumber, hDate⟩
  rw [hDate, dayNumber_ofMarch p.yearOfPeriod_bounds p.hDay,
    ← p.dayOfPeriod_eq]
  exact hNumber.symm

/- A date of a number is proper. -/
theorem proper_ofDayNumber (n : Int) :
    (ofDayNumber n).Proper := by
  rcases exists_ofMarch n with ⟨era, p, _, hDate⟩
  rw [hDate]
  refine proper_ofMarch p.hDay ?_
  intro hLast
  have hLeap := p.isLeapYear_of_day_eq hLast
  unfold IsLeapYear at hLeap ⊢
  omega

/- A date of a number exists if its year is in range. -/
theorem valid_ofDayNumber
    {n : Int}
    (hRange : YearInRange (ofDayNumber n).year) :
    (ofDayNumber n).Valid :=
  ⟨hRange, proper_ofDayNumber n⟩

end Date

end RelationalRest
