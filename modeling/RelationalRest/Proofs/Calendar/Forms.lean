import RelationalRest.Proofs.Calendar.DayNumber
import RelationalRest.Proofs.Calendar.Written

/-
  How the forms in which a point in time may be written deal
  with the texts of points in time and of dates: which of them
  read such a text, and which cannot.

  Key definitions include:
    * `Timestamp.Representable`
    * `Timestamp.settled`

  Main declarations:
    * `Timestamp.written_cases`
    * `Timestamp.ofFields?_fields`
    * `Timestamp.exists_clock`
    * `Timestamp.readZoned?_of_fourDigits`
    * `Timestamp.readZoned?_of_not_fourDigits`
    * `Timestamp.readDate?_date`
-/

namespace RelationalRest

open Calendar
open Text (Stops stops_nil)

------------------------------------------------------------
-- Points in time
------------------------------------------------------------

namespace Timestamp

/-
  A point in time that can be held: the year is in range, and
  the nanoseconds may reach into a leap second at the end of
  any second.
-/
def Representable (t : Timestamp) : Prop :=
  Date.YearInRange t.date.year ∧ t.second < secondsPerDay ∧
    t.nano < 2 * nanosPerSecond

instance (t : Timestamp) : Decidable t.Representable := by
  unfold Representable
  infer_instance

/- The second that is written, where a leap second counts. -/
def writtenSecond (t : Timestamp) : Nat :=
  t.secondOfMinute + t.nano / nanosPerSecond

/-
  The point in time with its leap second, unless it stands at
  the end of a minute, counted as the second after.
-/
def settled (t : Timestamp) : Timestamp :=
  if nanosPerSecond ≤ t.nano ∧ t.secondOfMinute ≠ 59 then
    { t with
      second := t.second + 1
      nano := t.nano - nanosPerSecond }
  else
    t

/- A point in time and its settled form are the same instant. -/
theorem nanosSinceEpoch_settled (t : Timestamp) :
    t.settled.nanosSinceEpoch = t.nanosSinceEpoch := by
  unfold settled
  split
  · next hLeap =>
      have hNano := hLeap.1
      unfold nanosSinceEpoch
      unfold nanosPerSecond at hNano ⊢
      dsimp only
      omega
  · rfl

/- A point in time of the calendar is settled. -/
theorem settled_of_valid
    {t : Timestamp}
    (h : t.Valid) :
    t.settled = t := by
  refine if_neg ?_
  intro hLeap
  exact hLeap.2 (h.2.2.2 hLeap.1)

/- The settled form stays within the day. -/
theorem second_settled_lt
    {t : Timestamp}
    (h : t.Representable) :
    t.settled.second < secondsPerDay := by
  have hSecond := h.2.1
  unfold settled
  split
  · next hLeap =>
      have hMinute := hLeap.2
      unfold secondOfMinute at hMinute
      unfold secondsPerDay at hSecond ⊢
      dsimp only
      omega
  · exact hSecond

/- The date of a point in time exists. -/
theorem valid_date
    {t : Timestamp}
    (h : t.Representable) :
    t.date.Valid :=
  Date.valid_ofDayNumber h.1

/- A move by nothing leaves a point in time where it is. -/
theorem shift_zero
    {t : Timestamp}
    (h : t.second < secondsPerDay) :
    t.shift 0 = t := by
  have hDay : ((t.second : Int) + 0) / secondsPerDay = 0 := by
    unfold secondsPerDay at h ⊢
    omega
  have hSecond :
      (((t.second : Int) + 0) % secondsPerDay).toNat = t.second := by
    unfold secondsPerDay at h ⊢
    omega
  unfold shift
  dsimp only
  rw [hDay, hSecond, Int.add_zero]

/-
  What is written is either the leap second of a minute, or
  the second and the fraction of the settled form.
-/
theorem written_cases
    {t : Timestamp}
    (hNano : t.nano < 2 * nanosPerSecond) :
    t.writtenSecond = 60 ∧ t.secondOfMinute = 59 ∧
        t.nano % nanosPerSecond + nanosPerSecond = t.nano ∧
        t.settled = t ∨
      t.writtenSecond < 60 ∧
        t.settled =
          { day := t.day
            second := (t.hour * 60 + t.minute) * 60 + t.writtenSecond
            nano := t.nano % nanosPerSecond } := by
  have hMinute : t.secondOfMinute < 60 := Nat.mod_lt _ (by decide)
  have hSecond :
      (t.hour * 60 + t.minute) * 60 + t.secondOfMinute = t.second := by
    unfold hour minute secondOfMinute
    omega
  unfold writtenSecond settled
  by_cases hLeap : nanosPerSecond ≤ t.nano
  · have hOne : t.nano / nanosPerSecond = 1 :=
      Nat.div_eq_of_lt_le (by omega) hNano
    have hRest : t.nano % nanosPerSecond = t.nano - nanosPerSecond := by
      rw [Nat.mod_eq_sub_mod hLeap]
      exact Nat.mod_eq_of_lt (by omega)
    rw [hOne, hRest]
    by_cases hLast : t.secondOfMinute = 59
    · left
      refine ⟨by omega, hLast, Nat.sub_add_cancel hLeap, ?_⟩
      exact if_neg fun hNot => hNot.2 hLast
    · right
      refine ⟨by omega, ?_⟩
      rw [if_pos ⟨hLeap, hLast⟩, ← Nat.add_assoc, hSecond]
  · have hBelow : t.nano < nanosPerSecond := Nat.lt_of_not_le hLeap
    right
    rw [Nat.div_eq_of_lt hBelow, Nat.mod_eq_of_lt hBelow,
      if_neg fun hNot => hLeap hNot.1, Nat.add_zero, hSecond]
    exact ⟨hMinute, rfl⟩

/- The fields of a point in time give its settled form. -/
theorem ofFields?_fields
    {t : Timestamp}
    (h : t.Representable) :
    ofFields? t.date t.hour t.minute t.writtenSecond
        (t.nano % nanosPerSecond) =
      some t.settled := by
  rcases h with ⟨hYear, hSecond, hNano⟩
  have hHour : t.hour < 24 := by
    unfold hour
    unfold secondsPerDay at hSecond
    omega
  have hMinute : t.minute < 60 := Nat.mod_lt _ (by decide)
  have hDay : t.date.dayNumber = t.day :=
    Date.dayNumber_ofDayNumber t.day
  unfold ofFields?
  rcases written_cases hNano with
    ⟨hSixty, hLast, hRest, hSettled⟩ | ⟨hBelow, hSettled⟩
  · have hFields :
        t.date.Valid ∧ t.hour < 24 ∧ t.minute < 60 ∧
          t.writtenSecond ≤ 60 :=
      ⟨Date.valid_ofDayNumber hYear, hHour, hMinute, by omega⟩
    rw [if_pos hFields, hSettled, if_pos hSixty, hDay, hRest]
    have hWhole : (t.hour * 60 + t.minute) * 60 + 59 = t.second := by
      unfold hour minute
      unfold secondOfMinute at hLast
      omega
    dsimp only
    rw [hWhole]
  · have hFields :
        t.date.Valid ∧ t.hour < 24 ∧ t.minute < 60 ∧
          t.writtenSecond ≤ 60 :=
      ⟨Date.valid_ofDayNumber hYear, hHour, hMinute, by omega⟩
    have hNotSixty : t.writtenSecond ≠ 60 := by omega
    rw [if_pos hFields, hSettled, if_neg hNotSixty, hDay]

------------------------------------------------------------
-- Times of day
------------------------------------------------------------

/- The hours and minutes of a day have two digits. -/
theorem clock_bounds
    {t : Timestamp}
    (h : t.Representable) :
    t.hour < 100 ∧ t.minute < 100 ∧ t.writtenSecond < 100 := by
  rcases h with ⟨_, hSecond, hNano⟩
  unfold hour minute writtenSecond secondOfMinute
  unfold secondsPerDay at hSecond
  unfold nanosPerSecond at hNano ⊢
  omega

/- The nanoseconds within a second. -/
theorem nano_mod_lt (t : Timestamp) :
    t.nano % nanosPerSecond < nanosPerSecond :=
  Nat.mod_lt _ (by decide)

/- A point in time is written as a date and a time of day. -/
theorem exists_clock
    {t : Timestamp}
    (h : t.Representable) :
    ∃ c : Clock,
      (∀ rest,
        t.chars ++ rest = t.date.chars ++ 'T' :: (c.chars ++ rest)) ∧
        c.on? t.date = some t.settled := by
  rcases clock_bounds h with ⟨hHour, hMinute, hSecond⟩
  rcases exists_pointed t.nano_mod_lt with
    ⟨written, hDigits, hText, hNano⟩
  refine
    ⟨⟨.ofNat (by decide) hHour, .ofNat (by decide) hMinute,
      .ofNat (by decide) hSecond, written, hDigits⟩, ?_, ?_⟩
  · intro rest
    unfold chars Clock.chars
    rw [hText]
    simp only [List.append_assoc, List.cons_append]
    rfl
  · unfold Clock.on?
    simp only [Numeral.value_ofNat, hNano]
    exact ofFields?_fields h

/- A date with a year of four digits is written in full. -/
theorem exists_writtenDate
    {d : Date}
    (hDate : d.Valid)
    (hFour : FourDigits d.year) :
    ∃ w : WrittenDate, w.chars = d.chars ∧ w.date = d := by
  rcases two_digits_of_valid hDate with ⟨hMonth, hDay⟩
  have hSigned : (d.year.natAbs : Int) = d.year :=
    Int.natAbs_of_nonneg hFour.1
  refine
    ⟨⟨.ofNat (by decide) hFour.natAbs_lt, .ofNat (by decide) hMonth,
      .ofNat (by decide) hDay⟩, ?_, ?_⟩
  · unfold Date.chars
    rw [yearText_of_fourDigits hFour, List.append_assoc]
    rfl
  · unfold WrittenDate.date
    simp only [Numeral.value_ofNat, hSigned]

/- The form with an offset reads a year of four digits. -/
theorem readZoned?_of_fourDigits
    {t : Timestamp}
    (h : t.Representable)
    (hFour : FourDigits t.date.year)
    {rest : List Char}
    (hEnds : Ends rest) :
    readZoned? (t.chars ++ rest) =
      (offset? rest).map fun ahead => t.settled.shift (-ahead) := by
  rcases exists_clock h with ⟨c, hText, hRead⟩
  rcases exists_writtenDate (valid_date h) hFour with
    ⟨w, hChars, hDate⟩
  have hZoned := w.readZoned?_eq .letter c hEnds
  rw [hChars, hDate, hRead] at hZoned
  rw [hText, Option.map_eq_bind]
  exact hZoned

/- The form with an offset takes no year with a sign. -/
theorem readZoned?_of_not_fourDigits
    {d : Date}
    (hFour : ¬ FourDigits d.year)
    (rest : List Char) :
    readZoned? (d.chars ++ rest) = none := by
  have hSign : Stops (d.chars ++ rest) := by
    unfold Date.chars
    rw [yearText_of_not_fourDigits hFour]
    split
    · simp
    · simp
  unfold readZoned?
  rw [digits_eq_none (by decide) hSign]
  rfl

/- So it does not read a point in time with such a year. -/
theorem readZoned?_chars_eq_none
    {t : Timestamp}
    (hFour : ¬ FourDigits t.date.year)
    (rest : List Char) :
    readZoned? (t.chars ++ rest) = none := by
  unfold chars
  simp only [List.append_assoc]
  exact readZoned?_of_not_fourDigits hFour _

/- The form with an offset needs a time of day. -/
theorem readZoned?_date
    {d : Date}
    (hDate : d.Valid) :
    readZoned? d.chars = none := by
  by_cases hFour : FourDigits d.year
  · rcases exists_writtenDate hDate hFour with ⟨w, hChars, _⟩
    have hLast := w.day.digits_append (Nat.le_refl 2) stops_nil
    rw [List.append_nil] at hLast
    rw [← hChars]
    unfold readZoned? WrittenDate.chars
    simp [Numeral.digits_append, hLast, expect]
  · have hNone := readZoned?_of_not_fourDigits hFour []
    rwa [List.append_nil] at hNone

------------------------------------------------------------
-- Forms that a text does not have
------------------------------------------------------------

/- A date alone has no time of day after either separator. -/
theorem date_refused
    {d : Date}
    (hDate : d.Valid)
    (separator : Separator) :
    readLocal? separator d.chars = none ∧
      readMinutes? separator d.chars = none := by
  have hRead := date_chars hDate stops_nil
  rw [List.append_nil] at hRead
  have hNone : pair [] = none := rfl
  unfold readLocal? readMinutes?
  cases separator with
  | letter => simp [hRead, Separator.skip, expect]
  | blanks => simp [hRead, Separator.skip, Text.trimStart, hNone]

/- A date alone is read as its midnight. -/
theorem readDate?_date
    {d : Date}
    (hDate : d.Valid) :
    readDate? d.chars = some (midnight d) := by
  have hRead := date_chars hDate stops_nil
  rw [List.append_nil] at hRead
  unfold readDate?
  simp [hRead, ofFields?, hDate, midnight]

end Timestamp

end RelationalRest
