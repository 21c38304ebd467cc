import RelationalRest.Postgres.Cell
import RelationalRest.Proofs.Calendar.Forms

/-
  What becomes of the text of a date-time cell when it is sent
  back as a point in time.

  The text of a cell without a zone, or of a date, is always
  read as the same point in time.  That of a cell with a zone
  is so exactly if its year has four digits, since only the
  first form has an offset and it takes no other year.

  Key definitions include:
    * `Timestamp.Writes`
    * `Postgres.Emits`
    * `Postgres.CellType.instant?`

  Main declarations:
    * `Timestamp.writes_text`
    * `Timestamp.writes_utcText`
    * `Timestamp.read?_utcText_eq_none`
    * `Timestamp.read?_date`
    * `Postgres.exists_emits_of_read?`
    * `Postgres.Emits.writes_iff`
    * `Postgres.CellType.times_read_back`
-/

namespace RelationalRest

open Calendar

namespace Timestamp

------------------------------------------------------------
-- Whole texts
------------------------------------------------------------

/-
  A text is read as a point in time.  One that no calendar
  writes may be read as another one for the same instant.
-/
def Writes
    (s : String)
    (t : Timestamp) : Prop :=
  ∃ t',
    read? s = some t' ∧
      t'.nanosSinceEpoch = t.nanosSinceEpoch ∧ (t.Valid → t' = t)

/- What is read as the settled form is read as the point in time. -/
theorem writes_of_settled
    {s : String}
    {t : Timestamp}
    (h : read? s = some t.settled) :
    Writes s t :=
  ⟨t.settled, h, nanosSinceEpoch_settled t, settled_of_valid⟩

/- No digit of a padded number is blank. -/
theorem isBlank_of_mem_padded
    {width n : Nat}
    {c : Char}
    (h : c ∈ padded width n) :
    Text.isBlank c = false :=
  Text.isBlank_of_isDigit (isDigit_of_mem_padded h)

/- No character of a date is blank. -/
theorem isBlank_of_mem_date
    {d : Date}
    {c : Char}
    (h : c ∈ d.chars) :
    Text.isBlank c = false := by
  have hYear : ∀ c ∈ yearText d.year, Text.isBlank c = false := by
    intro c hc
    unfold yearText at hc
    split at hc
    · exact isBlank_of_mem_padded hc
    · rcases List.mem_cons.mp hc with hSign | hDigit
      · rw [hSign]
        split <;> rfl
      · exact isBlank_of_mem_padded hDigit
  unfold Date.chars at h
  simp only [List.mem_append, List.mem_cons] at h
  rcases h with (h | h | h) | h | h
  · exact hYear c h
  · rw [h]
    rfl
  · exact isBlank_of_mem_padded h
  · rw [h]
    rfl
  · exact isBlank_of_mem_padded h

/-
  Only two forms matter to the text of a point in time: the
  one with an offset, and the one without to the second.
-/
theorem read?_chars
    {t : Timestamp}
    (h : t.Representable)
    {rest : List Char}
    (hEnds : Ends rest)
    (hBlank : ∀ c ∈ rest, Text.isBlank c = false) :
    read? (String.ofList (t.chars ++ rest)) =
      (readZoned? (t.chars ++ rest)
        <|> if rest = [] then some t.settled else none) := by
  rcases exists_clock h with ⟨c, hText, hRead⟩
  have hTrim : Text.trim (t.chars ++ rest) = t.chars ++ rest := by
    refine Text.trim_of_forall fun a ha => ?_
    rw [hText] at ha
    simp only [List.mem_append, List.mem_cons] at ha
    rcases ha with ha | ha | ha | ha
    · exact isBlank_of_mem_date ha
    · rw [ha]
      rfl
    · exact c.isBlank_of_mem ha
    · exact hBlank a ha
  have hDate :
      Calendar.date (t.chars ++ rest) =
        some (t.date, Separator.letter.char :: (c.chars ++ rest)) := by
    rw [hText]
    exact date_chars (valid_date h) (Separator.letter.stops_char _)
  rw [c.read?_eq hTrim hDate hEnds, hRead]

/- A text without a zone is read as its point in time. -/
theorem writes_text
    {t : Timestamp}
    (h : t.Representable) :
    Writes t.text t := by
  apply writes_of_settled
  have hEnds : Ends [] := ⟨Text.stops_nil, by simp⟩
  have hRead := read?_chars h hEnds (by simp)
  have hZoned : readZoned? (t.chars ++ []) = none := by
    by_cases hFour : FourDigits t.date.year
    · rw [readZoned?_of_fourDigits h hFour hEnds]
      rfl
    · exact readZoned?_chars_eq_none hFour []
  rw [hZoned, List.append_nil] at hRead
  exact hRead

/- The offset of UTC may follow a time of day. -/
theorem ends_offset : Ends "+00:00".toList := by
  constructor
  · intro c hc
    cases hc
    rfl
  · intro hPoint
    cases hPoint

/- The offset of UTC has no blanks. -/
theorem isBlank_of_mem_offset
    {c : Char}
    (h : c ∈ "+00:00".toList) :
    Text.isBlank c = false := by
  have hAll :
      "+00:00".toList.all (fun c => !Text.isBlank c) = true := rfl
  simpa using List.all_eq_true.mp hAll c h

/- A text with a zone is read as its point in time. -/
theorem writes_utcText
    {t : Timestamp}
    (h : t.Representable)
    (hFour : FourDigits t.date.year) :
    Writes t.utcText t := by
  apply writes_of_settled
  unfold utcText
  rw [read?_chars h ends_offset fun _ hc => isBlank_of_mem_offset hc,
    readZoned?_of_fourDigits h hFour ends_offset]
  have hOffset : offset? "+00:00".toList = some 0 := rfl
  rw [hOffset, Option.map_some, Int.neg_zero,
    shift_zero (second_settled_lt h)]
  rfl

/- A text with a zone and another year is not read at all. -/
theorem read?_utcText_eq_none
    {t : Timestamp}
    (h : t.Representable)
    (hFour : ¬ FourDigits t.date.year) :
    read? t.utcText = none := by
  unfold utcText
  rw [read?_chars h ends_offset fun _ hc => isBlank_of_mem_offset hc,
    readZoned?_chars_eq_none hFour]
  rfl

/- The text of a date is read as its midnight. -/
theorem read?_date
    {d : Date}
    (hDate : d.Valid) :
    read? d.text = some (midnight d) := by
  have hTrim : Text.trim d.chars = d.chars :=
    Text.trim_of_forall fun c hc => isBlank_of_mem_date hc
  unfold read? Date.text
  dsimp only
  rw [String.toList_ofList, hTrim, readZoned?_date hDate,
    (date_refused hDate .letter).1, (date_refused hDate .blanks).1,
    (date_refused hDate .letter).2, (date_refused hDate .blanks).2,
    readDate?_date hDate]
  rfl

end Timestamp

namespace Postgres

------------------------------------------------------------
-- Cells
------------------------------------------------------------

/- A cell of a type shows a point in time as a text. -/
inductive Emits : CellType → Timestamp → String → Prop
| zoned
    {t : Timestamp}
    (h : t.Representable) :
    Emits .timestamptz t t.utcText
| zoneless
    {t : Timestamp}
    (h : t.Representable) :
    Emits .timestamp t t.text
| date
    {d : Date}
    (h : d.Valid) :
    Emits .date (Timestamp.midnight d) d.text

/- The nanoseconds since the epoch for which a cell stands. -/
def CellType.instant?
    (type : CellType)
    (bytes : List UInt8) : Option Int :=
  match type with
  | .timestamptz => (Octets.integer? 8 bytes).map (· * 1000)
  | .timestamp => (Octets.integer? 8 bytes).map (· * 1000)
  | .date =>
      (Octets.integer? 4 bytes).map
        (· * (Timestamp.secondsPerDay * Timestamp.nanosPerSecond))
  | _ => none

/- A point in time of microseconds has a place in the calendar. -/
theorem representable_of_ofMicros?
    {micros : Int}
    {t : Timestamp}
    (h : Timestamp.ofMicros? micros = some t) :
    t.Representable ∧ t.nanosSinceEpoch = micros * 1000 := by
  unfold Timestamp.ofMicros? at h
  dsimp only at h
  split at h
  · next hYear =>
      have hSame := Option.some.inj h
      subst hSame
      unfold Timestamp.nanosSinceEpoch
      refine ⟨⟨hYear, ?_, ?_⟩, ?_⟩
      · unfold Timestamp.secondsPerDay
        dsimp only
        omega
      · unfold Timestamp.nanosPerSecond
        dsimp only
        omega
      · unfold Timestamp.secondsPerDay Timestamp.nanosPerSecond
        dsimp only
        omega
  · cases h

/- A cell of microseconds shows the point in time it stands for. -/
theorem exists_timestamp
    {bytes : List UInt8}
    {v : Json}
    {i : Int}
    {text : Timestamp → String}
    (hInstant : (Octets.integer? 8 bytes).map (· * 1000) = some i)
    (hRead : (timestamp? bytes).map (.string <| text ·) = some v) :
    ∃ t : Timestamp,
      v = .string (text t) ∧ t.Representable ∧
        t.nanosSinceEpoch = i := by
  rcases Option.map_eq_some_iff.mp hInstant with
    ⟨micros, hMicros, hScaled⟩
  rcases Option.map_eq_some_iff.mp hRead with ⟨t, hTime, hText⟩
  have hMade : Timestamp.ofMicros? micros = some t := by
    unfold timestamp? at hTime
    rwa [hMicros, Option.bind_some] at hTime
  rcases representable_of_ofMicros? hMade with ⟨hHeld, hNanos⟩
  exact ⟨t, hText.symm, hHeld, hNanos.trans hScaled⟩

/- A cell of days shows the date whose midnight it stands for. -/
theorem exists_date
    {bytes : List UInt8}
    {v : Json}
    {i : Int}
    (hInstant : CellType.date.instant? bytes = some i)
    (hRead : CellType.date.read? bytes = some v) :
    ∃ d : Date,
      v = .string d.text ∧ d.Valid ∧
        (Timestamp.midnight d).nanosSinceEpoch = i := by
  rcases Option.map_eq_some_iff.mp hInstant with
    ⟨days, hDays, hScaled⟩
  rcases Option.map_eq_some_iff.mp hRead with ⟨d, hDate, hText⟩
  unfold date? at hDate
  rw [hDays, Option.bind_some] at hDate
  dsimp only at hDate
  split at hDate
  · next hYear =>
      have hSame := Option.some.inj hDate
      subst hSame
      refine ⟨_, hText.symm, Date.valid_ofDayNumber hYear, ?_⟩
      unfold Timestamp.midnight Timestamp.nanosSinceEpoch
      rw [Date.dayNumber_ofDayNumber, ← hScaled]
      dsimp only
      rw [Int.natCast_zero, Int.add_zero, Int.add_zero, Int.mul_assoc]
  · cases hDate

/- The cells of the three types show what they stand for. -/
theorem exists_emits_of_read?
    {type : CellType}
    {bytes : List UInt8}
    {v : Json}
    {i : Int}
    (hInstant : type.instant? bytes = some i)
    (hRead : type.read? bytes = some v) :
    ∃ t s,
      v = .string s ∧ Emits type t s ∧ t.nanosSinceEpoch = i := by
  cases type with
  | timestamptz =>
      rcases exists_timestamp hInstant hRead with
        ⟨t, hText, hHeld, hNanos⟩
      exact ⟨t, _, hText, .zoned hHeld, hNanos⟩
  | timestamp =>
      rcases exists_timestamp hInstant hRead with
        ⟨t, hText, hHeld, hNanos⟩
      exact ⟨t, _, hText, .zoneless hHeld, hNanos⟩
  | date =>
      rcases exists_date hInstant hRead with
        ⟨d, hText, hDate, hNanos⟩
      exact ⟨_, _, hText, .date hDate, hNanos⟩
  | _ => cases hInstant

------------------------------------------------------------
-- What is read back
------------------------------------------------------------

/-
  What a cell shows is read as the same point in time, or not
  at all; the latter exactly if the cell has a zone and its
  year does not have four digits.
-/
theorem Emits.writes_iff
    {type : CellType}
    {t : Timestamp}
    {s : String}
    (h : Emits type t s) :
    (Timestamp.Writes s t ∨ Timestamp.read? s = none) ∧
      (Timestamp.Writes s t ↔
        (type = .timestamptz → FourDigits t.date.year)) := by
  have hRead :
      Timestamp.Writes s t →
        (type = .timestamptz → FourDigits t.date.year) →
          (Timestamp.Writes s t ∨ Timestamp.read? s = none) ∧
            (Timestamp.Writes s t ↔
              (type = .timestamptz → FourDigits t.date.year)) := by
    intro hWrites hYear
    exact ⟨.inl hWrites, fun _ => hYear, fun _ => hWrites⟩
  cases h with
  | zoned hHeld =>
      by_cases hFour : FourDigits t.date.year
      · exact hRead (Timestamp.writes_utcText hHeld hFour)
          fun _ => hFour
      · have hNone := Timestamp.read?_utcText_eq_none hHeld hFour
        refine ⟨.inr hNone, ?_, ?_⟩
        · intro hWrites
          rcases hWrites with ⟨t', hSome, _⟩
          rw [hNone] at hSome
          cases hSome
        · intro hYear
          exact absurd (hYear rfl) hFour
  | zoneless hHeld =>
      exact hRead (Timestamp.writes_text hHeld) nofun
  | date hDate =>
      exact hRead ⟨_, Timestamp.read?_date hDate, rfl, fun _ => rfl⟩
        nofun

/-
  Cells of the three types show points in time; and whatever
  point in time such a cell may show, it is read back as the
  same instant, or not at all.  The latter happens exactly if
  the cell has a zone and its year does not have four digits.
-/
theorem CellType.times_read_back (type : CellType) :
    (∀ bytes v i,
        type.instant? bytes = some i →
          type.read? bytes = some v →
            ∃ t s,
              v = .string s ∧ Emits type t s ∧
                t.nanosSinceEpoch = i) ∧
      ∀ t s, Emits type t s →
        (Timestamp.Writes s t ∨ Timestamp.read? s = none) ∧
          (Timestamp.Writes s t ↔
            (type = .timestamptz → FourDigits t.date.year)) := by
  constructor
  · intro bytes v i hInstant hRead
    exact exists_emits_of_read? hInstant hRead
  · intro t s hShown
    exact hShown.writes_iff

/- The start of the year 10000, shown by a cell with a zone. -/
theorem CellType.times_read_back_sample :
    ∃ t s,
      CellType.timestamptz.read? [3, 128, 231, 11, 145, 59, 128, 0] =
          some (.string s) ∧
        Emits .timestamptz t s ∧
        t.nanosSinceEpoch = 252455616000000000000 ∧
        (Timestamp.Writes s t ∨ Timestamp.read? s = none) ∧
        (Timestamp.Writes s t ↔
          (CellType.timestamptz = .timestamptz →
            FourDigits t.date.year)) := by
  rcases CellType.times_read_back .timestamptz with ⟨hCells, hBack⟩
  rcases hCells [3, 128, 231, 11, 145, 59, 128, 0] _ _ rfl rfl with
    ⟨t, s, hText, hShown, hInstant⟩
  exact ⟨t, s, congrArg some hText, hShown, hInstant, hBack t s hShown⟩

/-
  The text of that cell is refused, while the same octets as a
  cell without a zone give a text that is accepted.
-/
theorem CellType.not_read_back :
    CellType.timestamptz.read? [3, 128, 231, 11, 145, 59, 128, 0] =
        some (.string "+10000-01-01T00:00:00+00:00") ∧
      Timestamp.read? "+10000-01-01T00:00:00+00:00" = none ∧
      CellType.timestamp.read? [3, 128, 231, 11, 145, 59, 128, 0] =
        some (.string "+10000-01-01T00:00:00") ∧
      Timestamp.read? "+10000-01-01T00:00:00" =
        some (Timestamp.midnight
          { year := 10000, month := 1, day := 1 }) := by
  refine ⟨?_, ?_, ?_, ?_⟩
  · rfl
  · rfl
  · rfl
  · rfl

end Postgres

end RelationalRest
