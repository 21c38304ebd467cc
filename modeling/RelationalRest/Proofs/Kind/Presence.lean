import RelationalRest.Kind.Basic

/-
  Accepted texts and JSON values stand for values that are
  present.  Only the absent JSON value, which every kind
  accepts, stands for the absent value.

  Main declarations:
    * `Kind.acceptsJson_string`
    * `Kind.isNull_ofText`
    * `Kind.isNull_ofJson_iff`
-/

namespace RelationalRest

namespace Kind

variable {k : Kind}

/- A string is accepted, and stands for a value, as its text. -/
theorem acceptsJson_string
    (k : Kind)
    (s : String) :
    k.acceptsJson (.string s) = k.acceptsText s ∧
      k.ofJson (.string s) = k.ofText s := by
  cases k <;> exact ⟨rfl, rfl⟩

/- A number that a text writes is present. -/
theorem isNull_of_number?
    {s : String}
    {v : Sql.Value}
    (h : number? s = some v) :
    v.isNull = false := by
  unfold number? at h
  dsimp only at h
  split at h
  · cases h
    rfl
  · rcases Option.map_eq_some_iff.mp h with ⟨x, _, rfl⟩
    rfl

/- An accepted text stands for a value that is present. -/
theorem isNull_ofText
    {s : String}
    (h : k.acceptsText s = true) :
    (k.ofText s).isNull = false := by
  cases k with
  | integer =>
      rcases Option.isSome_iff_exists.mp h with ⟨v, hRead⟩
      simpa [ofText, hRead] using isNull_of_number? hRead
  | timestamp =>
      rcases Option.isSome_iff_exists.mp h with ⟨t, hRead⟩
      simp [ofText, hRead, Sql.Value.isNull]
  | boolean => rfl
  | string => rfl
  | oneOf values => rfl

/-
  An accepted JSON value stands for the absent value exactly
  if it is the absent one.
-/
theorem isNull_ofJson_iff
    {v : Json}
    (h : k.acceptsJson v = true) :
    (k.ofJson v).isNull = true ↔ v = .null := by
  cases v with
  | null => cases k <;> simp [ofJson, Sql.Value.isNull]
  | string s =>
      obtain ⟨hAccepts, hValue⟩ := acceptsJson_string k s
      rw [hAccepts] at h
      simp [hValue, isNull_ofText h]
  | number n =>
      cases k with
      | integer =>
          simpa [ofJson] using
            Sql.Value.isNull_ofJson_iff (v := .number n)
      | boolean => simp [ofJson, Sql.Value.isNull]
      | string => simp [ofJson, Sql.Value.isNull]
      | _ => cases h
  | bool b =>
      cases k with
      | boolean => simp [ofJson, Sql.Value.ofJson, Sql.Value.isNull]
      | string => simp [ofJson, Sql.Value.isNull]
      | _ => cases h
  | array items => cases k <;> cases h
  | object members => cases k <;> cases h

end Kind

end RelationalRest
