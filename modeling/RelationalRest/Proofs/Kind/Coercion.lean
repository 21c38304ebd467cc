import RelationalRest.Proofs.Kind.Operator
import RelationalRest.Proofs.Kind.Presence

/-
  What columns make of JSON values.  Which values a kind
  accepts and what they stand for is written down as one
  relation, beside the two functions that decide it.  What an
  accepted value stands for is of the column's own sort of
  values, and a text is never replaced by another value for
  want of a reading.

  Key definitions include:
    * `Kind.Holds`
    * `Kind.Makes`
    * `Kind.Coerces`

  Main declarations:
    * `Kind.makes_iff`
    * `Kind.acceptsJson_iff_coerces`
-/

namespace RelationalRest

/- A number is whole if it is written so and fits a signed word. -/
theorem Json.Number.int64?_eq_some_iff
    {n : Json.Number}
    {i : Int} :
    n.int64? = some i ↔ n = .int i ∧ Text.InInt64 i := by
  cases n with
  | float x => simp [int64?]
  | int j =>
      simp only [int64?, Option.ite_none_right_eq_some,
        Option.some.injEq, Number.int.injEq]
      constructor
      · rintro ⟨hFits, rfl⟩
        exact ⟨rfl, hFits⟩
      · rintro ⟨rfl, hFits⟩
        exact ⟨hFits, rfl⟩

namespace Kind

variable {k : Kind}
variable {v : Json}
variable {w : Sql.Value}

------------------------------------------------------------
-- Values of columns
------------------------------------------------------------

/- The values that columns of a kind hold, beside the absent one. -/
inductive Holds : Kind → Sql.Value → Prop
| whole
    {i : Int}
    (hFits : Text.InInt64 i) :
    Holds .integer (.int i)
| float (x : Binary64) : Holds .integer (.float x)
| truth (b : Bool) : Holds .boolean (.bool b)
| text (s : String) : Holds .string (.string s)
| time (t : Timestamp) : Holds .timestamp (.timestamp t)
| listed
    {values : List String}
    {s : String}
    (hListed : s ∈ values) :
    Holds (.oneOf values) (.string s)

/- A column does not hold the absent value. -/
theorem Holds.ne_null (h : k.Holds w) : w ≠ .null := by
  cases h <;> simp

/- What a text stands for is a value of columns of the kind. -/
theorem StandsFor.holds
    {op : FilterOperator}
    {s : String}
    (h : k.StandsFor op s w) :
    k.Holds w := by
  cases h with
  | whole hRead =>
      have hFits := (Option.filter_eq_some_iff.mp hRead).2
      exact .whole (of_decide_eq_true hFits)
  | float hWhole hRead => exact .float _
  | truth hRead => exact .truth _
  | time hRead => exact .time _
  | pattern hContains hSome => exact .text _
  | text hContains hSome => exact .text _
  | listed hListed => exact .listed hListed

------------------------------------------------------------
-- Values made of JSON values
------------------------------------------------------------

/-
  What a kind makes of a JSON value: the absent one is kept by
  every kind, a string is read as the operand of a filter
  without an operator is, and few of the others are accepted.
-/
inductive Makes : Kind → Json → Sql.Value → Prop
| absent {k : Kind} : Makes k .null .null
| read
    {k : Kind}
    {s : String}
    {w : Sql.Value}
    (hRead : k.StandsFor k.defaultOperator s w) :
    Makes k (.string s) w
| whole
    {i : Int}
    (hFits : Text.InInt64 i) :
    Makes .integer (.number (.int i)) (.int i)
| float
    {n : Json.Number}
    (hNone : n.int64? = none) :
    Makes .integer (.number n) (.float n.toBinary64)
| truth {b : Bool} : Makes .boolean (.bool b) (.bool b)
| zero : Makes .boolean (.number (.int 0)) (.bool false)
| one : Makes .boolean (.number (.int 1)) (.bool true)
| numberText {n : Json.Number} :
    Makes .string (.number n) (.string n.text)
| truthText {b : Bool} :
    Makes .string (.bool b) (.string (toString b))

/- Without an operator the operand is what the text stands for. -/
theorem operand_defaultOperator
    (k : Kind)
    (s : String) :
    k.operand k.defaultOperator s = k.ofText s := by
  cases k <;> rfl

/- A kind makes of a string what the string stands for. -/
theorem makes_string_iff
    {s : String} :
    k.Makes (.string s) w ↔
      k.acceptsJson (.string s) = true ∧
        k.ofJson (.string s) = w := by
  obtain ⟨hAccepts, hValue⟩ := acceptsJson_string k s
  rw [hAccepts, hValue, ← operand_defaultOperator, ← standsFor_iff]
  constructor
  · intro h
    cases h with
    | read hRead => exact hRead
  · exact .read

/- Columns of whole numbers take every number. -/
theorem makes_number_iff
    {n : Json.Number} :
    k.Makes (.number n) w ↔
      k.acceptsJson (.number n) = true ∧
        k.ofJson (.number n) = w := by
  constructor
  · intro h
    cases h with
    | whole hFits =>
        have hWhole := Json.Number.int64?_eq_some_iff.mpr ⟨rfl, hFits⟩
        simp [acceptsJson, ofJson, Sql.Value.ofJson,
          Sql.Value.ofNumber, hWhole]
    | float hNone =>
        simp [acceptsJson, ofJson, Sql.Value.ofJson,
          Sql.Value.ofNumber, hNone]
    | zero => exact ⟨rfl, rfl⟩
    | one => exact ⟨rfl, rfl⟩
    | numberText => exact ⟨rfl, rfl⟩
  · rintro ⟨hAccepts, rfl⟩
    cases k with
    | integer =>
        simp only [ofJson, Sql.Value.ofJson, Sql.Value.ofNumber]
        cases hWhole : n.int64? with
        | none => exact .float hWhole
        | some i =>
            obtain ⟨rfl, hFits⟩ :=
              Json.Number.int64?_eq_some_iff.mp hWhole
            exact .whole hFits
    | boolean =>
        simp only [acceptsJson, Bool.or_eq_true, beq_iff_eq,
          Json.Number.int64?_eq_some_iff] at hAccepts
        rcases hAccepts with ⟨rfl, _⟩ | ⟨rfl, _⟩
        · exact .zero
        · exact .one
    | string => exact .numberText
    | timestamp => cases hAccepts
    | oneOf values => cases hAccepts

/-
  A kind makes a value of a JSON value exactly if it accepts
  that and the value is the one it stands for.
-/
theorem makes_iff :
    k.Makes v w ↔ k.acceptsJson v = true ∧ k.ofJson v = w := by
  cases v with
  | null =>
      constructor
      · intro h
        cases h with
        | absent => cases k <;> exact ⟨rfl, rfl⟩
      · rintro ⟨_, rfl⟩
        cases k <;> exact .absent
  | bool b =>
      constructor
      · intro h
        cases h with
        | truth => exact ⟨rfl, rfl⟩
        | truthText => exact ⟨rfl, rfl⟩
      · rintro ⟨hAccepts, rfl⟩
        cases k with
        | boolean => exact .truth
        | string => exact .truthText
        | integer => cases hAccepts
        | timestamp => cases hAccepts
        | oneOf values => cases hAccepts
  | number n => exact makes_number_iff
  | string s => exact makes_string_iff
  | array items =>
      constructor
      · intro h
        cases h
      · rintro ⟨hAccepts, _⟩
        cases k <;> cases hAccepts
  | object members =>
      constructor
      · intro h
        cases h
      · rintro ⟨hAccepts, _⟩
        cases k <;> cases hAccepts

/- What is made of a value that is present is held by columns. -/
theorem Makes.holds
    (h : k.Makes v w)
    (hPresent : v ≠ .null) :
    k.Holds w := by
  cases h with
  | absent => exact absurd rfl hPresent
  | read hRead => exact hRead.holds
  | whole hFits => exact .whole hFits
  | float hNone => exact .float _
  | truth => exact .truth _
  | zero => exact .truth _
  | one => exact .truth _
  | numberText => exact .text _
  | truthText => exact .text _

/- Only the absent JSON value is made the absent value. -/
theorem Makes.eq_null_iff (h : k.Makes v w) :
    w = .null ↔ v = .null := by
  constructor
  · intro hNull
    by_cases hPresent : v = .null
    · exact hPresent
    · exact absurd hNull (h.holds hPresent).ne_null
  · intro hNull
    subst hNull
    cases h with
    | absent => rfl

------------------------------------------------------------
-- Coercions
------------------------------------------------------------

/-
  A column coerces a JSON value to a value of its own: it is
  the one that the kind makes of it and no other; it is absent
  exactly if the JSON value is; it is else of the sort that
  columns of the kind hold; and a string is one that has a
  reading, which the value is.
-/
structure Coerces
    (k : Kind)
    (v : Json)
    (w : Sql.Value) : Prop where
  made : ∀ other, k.Makes v other ↔ other = w
  absent : w = .null ↔ v = .null
  held : v ≠ .null → k.Holds w
  read :
    ∀ s, v = .string s → k.StandsFor k.defaultOperator s w

/-
  A kind accepts exactly the JSON values that it coerces, each
  to the value that it stands for.
-/
theorem acceptsJson_iff_coerces
    (k : Kind)
    (v : Json) :
    k.acceptsJson v = true ↔ k.Coerces v (k.ofJson v) := by
  constructor
  · intro hAccepts
    have hMade : k.Makes v (k.ofJson v) :=
      makes_iff.mpr ⟨hAccepts, rfl⟩
    refine ⟨?_, hMade.eq_null_iff, hMade.holds, ?_⟩
    · intro other
      rw [makes_iff, and_iff_right hAccepts]
      exact eq_comm
    · rintro s rfl
      cases hMade with
      | read hRead => exact hRead
  · intro hCoerces
    have hMade := (hCoerces.made (k.ofJson v)).mpr rfl
    exact (makes_iff.mp hMade).1

/- A number beyond the signed words becomes the nearest float. -/
example :
    Kind.integer.ofJson (.number (.int (2 ^ 63))) =
      .float (Binary64.ofInt (2 ^ 63)) :=
  rfl

end Kind

end RelationalRest
