import RelationalRest.Kind.Basic
import RelationalRest.Proofs.Http.Uri

/-
  The characters of texts that are read as numbers, truth
  values or points in time.  None of them ends a segment of a
  path or is changed by its decoding.

  Main declarations:
    * `Text.inert_of_integer?`
    * `Decimal.inert_of_read?`
    * `Timestamp.inert_of_read?`
    * `Kind.inert_of_acceptsText`
-/

namespace RelationalRest

open Uri (Inert)

------------------------------------------------------------
-- Inert characters
------------------------------------------------------------

namespace Uri

variable {c : Char}
variable {cs ds : List Char}

/- Characters in a row are inert if each part is. -/
theorem inert_append :
    Inert (cs ++ ds) ↔ Inert cs ∧ Inert ds :=
  List.forall_mem_append

/- A character before others is inert if it is none of four. -/
theorem inert_cons :
    Inert (c :: cs) ↔ c ∉ ['/', '?', '#', '%'] ∧ Inert cs :=
  List.forall_mem_cons

/- Digits are inert. -/
theorem inert_of_isDigit
    (h : ∀ c ∈ cs, c.isDigit = true) :
    Inert cs := by
  intro c hc hMem
  have hDigit := h c hc
  simp only [List.mem_cons, List.not_mem_nil, or_false] at hMem
  rcases hMem with rfl | rfl | rfl | rfl <;> cases hDigit

/- Blanks are inert. -/
theorem inert_of_isBlank
    (h : ∀ c ∈ cs, Text.isBlank c = true) :
    Inert cs := by
  intro c hc hMem
  have hBlank := h c hc
  simp only [List.mem_cons, List.not_mem_nil, or_false] at hMem
  rcases hMem with rfl | rfl | rfl | rfl <;> cases hBlank

/- Digits at the start and what follows them. -/
theorem inert_of_dropWhile_isDigit
    (h : Inert (cs.dropWhile Char.isDigit)) :
    Inert cs := by
  rw [← List.takeWhile_append_dropWhile (p := Char.isDigit)
    (l := cs), inert_append]
  exact
    ⟨inert_of_isDigit fun c hc =>
      List.all_eq_true.mp List.all_takeWhile c hc, h⟩

/- Blanks at the start and what follows them. -/
theorem inert_of_trimStart
    (h : Inert (Text.trimStart cs)) :
    Inert cs := by
  rw [← List.takeWhile_append_dropWhile (p := Text.isBlank)
    (l := cs), inert_append]
  exact
    ⟨inert_of_isBlank fun c hc =>
      List.all_eq_true.mp List.all_takeWhile c hc, h⟩

/- The order of characters does not matter. -/
theorem inert_reverse :
    Inert cs.reverse ↔ Inert cs := by
  simp [Inert]

/- Blanks at both ends and what is between them. -/
theorem inert_of_trim
    (h : Inert (Text.trim cs)) :
    Inert cs := by
  unfold Text.trim at h
  rw [inert_reverse] at h
  exact inert_of_trimStart
    (inert_reverse.mp (inert_of_trimStart h))

end Uri

open Uri

------------------------------------------------------------
-- Numbers
------------------------------------------------------------

/- A list of digits is inert. -/
theorem Text.inert_of_natural?
    {cs : List Char}
    {n : Nat}
    (h : natural? cs = some n) :
    Inert cs :=
  inert_of_isDigit
    (List.all_eq_true.mp (all_isDigit_of_natural? h).2.1)

/- A whole number is inert. -/
theorem Text.inert_of_integer?
    {cs : List Char}
    {i : Int}
    (h : integer? cs = some i) :
    Inert cs := by
  unfold integer? at h
  split at h
  · rcases Option.map_eq_some_iff.mp h with ⟨n, hRead, _⟩
    exact inert_cons.mpr ⟨by decide, inert_of_natural? hRead⟩
  · next rest =>
      refine inert_cons.mpr ⟨by decide, ?_⟩
      cases hRead : natural? rest with
      | none => simp [hRead] at h
      | some n => exact inert_of_natural? hRead
  · rcases Option.map_eq_some_iff.mp h with ⟨n, hRead, _⟩
    exact inert_of_natural? hRead

namespace Decimal

variable {cs : List Char}

/- An exponent is inert. -/
theorem inert_of_exponent?
    {e : Int}
    (h : exponent? cs = some e) :
    Inert cs := by
  cases cs with
  | nil => exact inert_nil
  | cons c rest =>
      rw [exponent?] at h
      split at h
      · next hLetter =>
          refine inert_cons.mpr
            ⟨?_, Text.inert_of_integer? h⟩
          rcases hLetter with rfl | rfl <;> decide
      · cases h

/- A decimal without a sign is inert. -/
theorem inert_of_readUnsigned?
    {negative : Bool}
    {d : Decimal}
    (h : readUnsigned? negative cs = some d) :
    Inert cs := by
  refine inert_of_dropWhile_isDigit ?_
  unfold readUnsigned? at h
  dsimp only at h
  split at h
  · next rest hPoint =>
      split at h
      · cases h
      rcases Option.map_eq_some_iff.mp h with ⟨e, hExponent, _⟩
      rw [hPoint, inert_cons]
      exact
        ⟨by decide,
          inert_of_dropWhile_isDigit
            (inert_of_exponent? hExponent)⟩
  · split at h
    · cases h
    rcases Option.map_eq_some_iff.mp h with ⟨e, hExponent, _⟩
    exact inert_of_exponent? hExponent

/- A decimal is inert. -/
theorem inert_of_read?
    {d : Decimal}
    (h : read? cs = some d) :
    Inert cs := by
  unfold read? at h
  split at h
  · exact inert_cons.mpr ⟨by decide, inert_of_readUnsigned? h⟩
  · exact inert_cons.mpr ⟨by decide, inert_of_readUnsigned? h⟩
  · exact inert_of_readUnsigned? h

end Decimal

------------------------------------------------------------
-- Points in time
------------------------------------------------------------

namespace Calendar

variable {cs rest : List Char}

/- Digits and what follows them. -/
theorem inert_of_digits
    {least most n : Nat}
    (h : digits least most cs = some (n, rest))
    (hRest : Inert rest) :
    Inert cs := by
  unfold digits at h
  dsimp only at h
  split at h
  · cases h
  · cases h
    have hPrefix :
        (cs.take most).takeWhile Char.isDigit <+: cs :=
      (List.takeWhile_prefix _).trans (List.take_prefix _ _)
    rw [← List.take_append_drop
        ((cs.take most).takeWhile Char.isDigit).length cs,
      ← List.prefix_iff_eq_take.mp hPrefix, inert_append]
    exact
      ⟨inert_of_isDigit fun c hc =>
        List.all_eq_true.mp List.all_takeWhile c hc, hRest⟩

/- A fixed character and what follows it. -/
theorem inert_of_expect
    {c : Char}
    (h : expect c cs = some rest)
    (hOwn : c ∉ ['/', '?', '#', '%'])
    (hRest : Inert rest) :
    Inert cs := by
  cases cs with
  | nil => cases h
  | cons d later =>
      rw [expect] at h
      split at h
      · next hSame =>
          subst hSame
          cases h
          exact inert_cons.mpr ⟨hOwn, hRest⟩
      · cases h

/- A fraction and what follows it. -/
theorem inert_of_fraction
    {n : Nat}
    (h : fraction cs = some (n, rest))
    (hRest : Inert rest) :
    Inert cs := by
  unfold fraction at h
  split at h
  · dsimp only at h
    split at h
    · cases h
    · cases h
      exact inert_cons.mpr
        ⟨by decide, inert_of_dropWhile_isDigit hRest⟩
  · cases h
    exact hRest

/- Hours and minutes are inert. -/
theorem inert_of_clock
    {hours minutes : Nat}
    {afterHours beforeMinutes last : List Char}
    (hHours : digits 2 2 cs = some (hours, afterHours))
    (hColon : expect ':' afterHours = some beforeMinutes)
    (hMinutes : digits 2 2 beforeMinutes = some (minutes, last))
    (hLast : last = []) :
    Inert cs :=
  inert_of_digits hHours
    (inert_of_expect hColon (by decide)
      (inert_of_digits hMinutes (hLast ▸ inert_nil)))

/- An offset is inert. -/
theorem inert_of_offset?
    {ahead : Int}
    (h : offset? cs = some ahead) :
    Inert cs := by
  unfold offset? at h
  split at h
  · simp [Inert]
  · simp [Inert]
  · next sign rest _ _ =>
      dsimp only at h
      split at h
      · next hPlus =>
          simp only [Option.bind_eq_bind, Option.bind_some,
            Option.bind_eq_some_iff, Prod.exists] at h
          rcases h with
            ⟨_, _, hHours, _, hColon, _, _, hMinutes, hEnd⟩
          split at hEnd
          · next hAll =>
              refine inert_cons.mpr
                ⟨?_, inert_of_clock hHours hColon hMinutes hAll.1⟩
              rw [hPlus]
              decide
          · cases hEnd
      split at h
      · next hMinus =>
          simp only [Option.bind_eq_bind, Option.bind_some,
            Option.bind_eq_some_iff, Prod.exists] at h
          rcases h with
            ⟨_, _, hHours, _, hColon, _, _, hMinutes, hEnd⟩
          split at hEnd
          · next hAll =>
              refine inert_cons.mpr
                ⟨?_, inert_of_clock hHours hColon hMinutes hAll.1⟩
              rcases hMinus with rfl | rfl <;> decide
          · cases hEnd
      · cases h
  · cases h

/- One or two digits after blanks, and what follows them. -/
theorem inert_of_pair
    {n : Nat}
    (h : pair cs = some (n, rest))
    (hRest : Inert rest) :
    Inert cs :=
  inert_of_trimStart (inert_of_digits h hRest)

/- A year after blanks, and what follows it. -/
theorem inert_of_year
    {n : Int}
    (h : year cs = some (n, rest))
    (hRest : Inert rest) :
    Inert cs := by
  refine inert_of_trimStart ?_
  unfold year at h
  split at h
  · next later hSign =>
      rcases Option.map_eq_some_iff.mp h with ⟨pair, hPair, hEq⟩
      cases hEq
      rw [hSign, inert_cons]
      exact ⟨by decide, inert_of_digits hPair hRest⟩
  · next later hSign =>
      rcases Option.map_eq_some_iff.mp h with ⟨pair, hPair, hEq⟩
      cases hEq
      rw [hSign, inert_cons]
      exact ⟨by decide, inert_of_digits hPair hRest⟩
  · rcases Option.map_eq_some_iff.mp h with ⟨pair, hPair, hEq⟩
    cases hEq
    exact inert_of_digits hPair hRest

/- A date and what follows it. -/
theorem inert_of_date
    {d : Date}
    (h : date cs = some (d, rest))
    (hRest : Inert rest) :
    Inert cs := by
  unfold date at h
  simp only [Option.bind_eq_bind, Option.bind_eq_some_iff,
    Prod.exists] at h
  rcases h with
    ⟨y, afterYear, hYear, beforeMonth, hDash, month, afterMonth,
      hMonth, beforeDay, hSecond, day, afterDay, hDay, hEq⟩
  cases hEq
  exact inert_of_year hYear
    (inert_of_expect hDash (by decide)
      (inert_of_pair hMonth
        (inert_of_expect hSecond (by decide)
          (inert_of_pair hDay hRest))))

/- What sets a date and a time apart, and what follows it. -/
theorem inert_of_skip
    {s : Separator}
    (h : s.skip cs = some rest)
    (hRest : Inert rest) :
    Inert cs := by
  cases s with
  | letter => exact inert_of_expect h (by decide) hRest
  | blanks =>
      cases h
      exact inert_of_trimStart hRest

end Calendar

open Calendar

namespace Timestamp

variable {cs : List Char}
variable {t : Timestamp}

/- A point in time with an offset is inert. -/
theorem inert_of_readZoned?
    (h : readZoned? cs = some t) :
    Inert cs := by
  unfold readZoned? at h
  rcases Option.bind_eq_some_iff.mp h with ⟨⟨y, c1⟩, hYear, h⟩
  rcases Option.bind_eq_some_iff.mp h with ⟨c2, hDash, h⟩
  rcases Option.bind_eq_some_iff.mp h with
    ⟨⟨month, c3⟩, hMonth, h⟩
  rcases Option.bind_eq_some_iff.mp h with ⟨c4, hSecond, h⟩
  rcases Option.bind_eq_some_iff.mp h with
    ⟨⟨day, c5⟩, hDay, hRest⟩
  dsimp only at hRest
  refine inert_of_digits hYear
    (inert_of_expect hDash (by decide)
      (inert_of_digits hMonth
        (inert_of_expect hSecond (by decide)
          (inert_of_digits hDay ?_))))
  split at hRest
  · split at hRest
    · next letter c6 hLetter =>
        simp only [Option.bind_eq_bind, Option.bind_some,
          Option.bind_eq_some_iff, Prod.exists] at hRest
        rcases hRest with
          ⟨hour, c7, hHour, c8, hColon, minute, c9, hMinute, c10,
            hLast, second, c11, hSeconds, nano, c12, hFraction,
            ahead, hOffset, _⟩
        refine inert_cons.mpr
          ⟨?_,
            inert_of_digits hHour
              (inert_of_expect hColon (by decide)
                (inert_of_digits hMinute
                  (inert_of_expect hLast (by decide)
                    (inert_of_digits hSeconds
                      (inert_of_fraction hFraction
                        (inert_of_offset? hOffset))))))⟩
        rcases hLetter with rfl | rfl | rfl <;> decide
    · cases hRest
  · cases hRest

/- A point in time without an offset is inert. -/
theorem inert_of_readLocal?
    {s : Separator}
    (h : readLocal? s cs = some t) :
    Inert cs := by
  unfold readLocal? at h
  simp only [Option.bind_eq_bind, Option.bind_eq_some_iff,
    Prod.exists] at h
  rcases h with
    ⟨d, c1, hDate, c2, hSkip, hour, c3, hHour, c4, hColon, minute,
      c5, hMinute, c6, hLast, second, c7, hSecond, nano, c8,
      hFraction, hEnd⟩
  split at hEnd
  · next hNil =>
      exact inert_of_date hDate
        (inert_of_skip hSkip
          (inert_of_pair hHour
            (inert_of_expect hColon (by decide)
              (inert_of_pair hMinute
                (inert_of_expect hLast (by decide)
                  (inert_of_pair hSecond
                    (inert_of_fraction hFraction
                      (hNil ▸ inert_nil))))))))
  · cases hEnd

/- A point in time to the minute is inert. -/
theorem inert_of_readMinutes?
    {s : Separator}
    (h : readMinutes? s cs = some t) :
    Inert cs := by
  unfold readMinutes? at h
  simp only [Option.bind_eq_bind, Option.bind_eq_some_iff,
    Prod.exists] at h
  rcases h with
    ⟨d, c1, hDate, c2, hSkip, hour, c3, hHour, c4, hColon, minute,
      c5, hMinute, hEnd⟩
  split at hEnd
  · next hNil =>
      exact inert_of_date hDate
        (inert_of_skip hSkip
          (inert_of_pair hHour
            (inert_of_expect hColon (by decide)
              (inert_of_pair hMinute (hNil ▸ inert_nil)))))
  · cases hEnd

/- A date alone is inert. -/
theorem inert_of_readDate?
    (h : readDate? cs = some t) :
    Inert cs := by
  unfold readDate? at h
  simp only [Option.bind_eq_bind, Option.bind_eq_some_iff,
    Prod.exists] at h
  rcases h with ⟨d, c1, hDate, hEnd⟩
  split at hEnd
  · next hNil => exact inert_of_date hDate (hNil ▸ inert_nil)
  · cases hEnd

/- A point in time is inert, whichever form it has. -/
theorem inert_of_read?
    {s : String}
    (h : read? s = some t) :
    Inert s.toList := by
  refine inert_of_trim ?_
  unfold read? at h
  simp only [Option.orElse_eq_orElse, Option.orElse_eq_or,
    Option.or_eq_some_iff] at h
  rcases h with
    h | ⟨_, h | ⟨_, h | ⟨_, h | ⟨_, h | ⟨_, h⟩⟩⟩⟩⟩
  · exact inert_of_readZoned? h
  · exact inert_of_readLocal? h
  · exact inert_of_readLocal? h
  · exact inert_of_readMinutes? h
  · exact inert_of_readMinutes? h
  · exact inert_of_readDate? h

end Timestamp

------------------------------------------------------------
-- Kinds
------------------------------------------------------------

namespace Kind

variable {s : String}

/- A number is inert. -/
theorem inert_of_number?
    {v : Sql.Value}
    (h : number? s = some v) :
    Inert s.toList := by
  refine inert_of_trim ?_
  unfold number? at h
  dsimp only at h
  split at h
  · next i hRead =>
      rcases Option.filter_eq_some_iff.mp hRead with ⟨hRead, _⟩
      exact Text.inert_of_integer? hRead
  · rcases Option.map_eq_some_iff.mp h with ⟨x, hRead, _⟩
    rcases Option.filter_eq_some_iff.mp hRead with ⟨hRead, _⟩
    rcases Option.map_eq_some_iff.mp hRead with ⟨d, hRead, _⟩
    exact Decimal.inert_of_read? hRead

/- A truth value is inert. -/
theorem inert_of_boolean?
    {b : Bool}
    (h : boolean? s = some b) :
    Inert s.toList := by
  intro c hc hMem
  have hLower : c.toLower ∈ s.toList.map Char.toLower :=
    List.mem_map_of_mem hc
  have hSame : c.toLower ∈ ['/', '?', '#', '%'] := by
    simp only [List.mem_cons, List.not_mem_nil, or_false] at hMem
    rcases hMem with rfl | rfl | rfl | rfl <;> decide
  have hWords :
      ∀ word ∈ ["1", "true", "0", "false"],
        ∀ d ∈ word.toList, d ∉ ['/', '?', '#', '%'] := by
    simp
  unfold boolean? at h
  dsimp only at h
  split at h
  · next hWord =>
      rcases hWord with hWord | hWord
      · exact hWords "1" (by simp) _ (hWord ▸ hLower) hSame
      · exact hWords "true" (by simp) _ (hWord ▸ hLower) hSame
  split at h
  · next hWord =>
      rcases hWord with hWord | hWord
      · exact hWords "0" (by simp) _ (hWord ▸ hLower) hSame
      · exact hWords "false" (by simp) _ (hWord ▸ hLower) hSame
  · cases h

/-
  Numbers, truth values and points in time are inert, so only
  strings may have characters that end a segment or are decoded.
-/
theorem inert_of_acceptsText
    {kind : Kind}
    (hKind : kind = .integer ∨ kind = .boolean ∨ kind = .timestamp)
    (h : kind.acceptsText s = true) :
    Inert s.toList := by
  rcases hKind with rfl | rfl | rfl
  · rcases Option.isSome_iff_exists.mp h with ⟨v, hRead⟩
    exact inert_of_number? hRead
  · rcases Option.isSome_iff_exists.mp h with ⟨b, hRead⟩
    exact inert_of_boolean? hRead
  · rcases Option.isSome_iff_exists.mp h with ⟨t, hRead⟩
    exact Timestamp.inert_of_read? hRead

end Kind

end RelationalRest
