import RelationalRest.Proofs.Binary64.DecimalText
import RelationalRest.Proofs.Kind.Characters
import RelationalRest.Proofs.Kind.Presence

/-
  The plain text of a JSON value that a kind accepts.  The kind
  accepts the text as well, and both stand for the same value;
  unless it is a string of a kind that holds strings, the text
  stands for itself in a path.

  Key definitions include:
    * `Json.Number.Fits`

  Main declarations:
    * `Kind.number?_text`
    * `Kind.ofText_plainText`
    * `Kind.isSegment_plainText`
-/

namespace RelationalRest

------------------------------------------------------------
-- Numbers
------------------------------------------------------------

namespace Json.Number

variable {n : Number}

/-
  A number that JSON data holds: a whole one of 64 bits with or
  without a sign, or a finite one.
-/
def Fits : Number → Prop
| .int i => -(2 ^ 63) ≤ i ∧ i < 2 ^ 64
| .float x => x.isFinite = true

/- The characters of the text of a number. -/
theorem mem_text
    (h : n.Fits)
    {c : Char}
    (hc : c ∈ n.text.toList) :
    c.isDigit = true ∨ c ∈ ['.', 'e', '+', '-'] := by
  cases n with
  | int i =>
      cases i with
      | ofNat m =>
          rw [Number.text, Text.toList_toString_ofNat] at hc
          exact .inl
            (Text.isDigit_of_mem_toDigits hc)
      | negSucc m =>
          rw [Number.text, Text.toList_toString_negSucc] at hc
          rcases List.mem_cons.mp hc with rfl | hc
          · exact .inr (by simp)
          · exact .inl
              (Text.isDigit_of_mem_toDigits hc)
  | float x =>
      have hFinite : x.isFinite = true := h
      rw [Number.text, if_pos hFinite] at hc
      exact Binary64.mem_decimalText hc

/- The text of a number stands for itself in a path. -/
theorem inert_text (h : n.Fits) :
    Uri.Inert n.text.toList := by
  intro c hc hMem
  have hMarks :
      ∀ d ∈ ['.', 'e', '+', '-'], d ∉ ['/', '?', '#', '%'] := by
    simp
  rcases mem_text h hc with hDigit | hMark
  · have hInert : Uri.Inert [c] :=
      Uri.inert_of_isDigit (by simpa using hDigit)
    exact hInert c (by simp) hMem
  · exact hMarks c hMark hMem

/- The text of a number has no blanks. -/
theorem trim_text (h : n.Fits) :
    Text.trim n.text.toList = n.text.toList := by
  have hMarks :
      ∀ d ∈ ['.', 'e', '+', '-'], Text.isBlank d = false := by
    simp [Text.isBlank]
  refine Text.trim_of_forall fun c hc => ?_
  rcases mem_text h hc with hDigit | hMark
  · exact Text.isBlank_of_isDigit hDigit
  · exact hMarks c hMark

end Json.Number

namespace Kind

variable {n : Json.Number}

/-
  A whole number beyond the signed words is written without a
  sign and read as the nearest number.
-/
theorem finite?_toString
    {i : Int}
    (h : (Json.Number.int i).Fits)
    (hLarge : ¬ Text.InInt64 i) :
    Binary64.finite? (toString i).toList =
      some (Binary64.ofInt i) := by
  rcases h with ⟨hLow, hHigh⟩
  have hPow : Nat.pow 2 63 = 2 ^ 63 := rfl
  unfold Text.InInt64 at hLarge
  rw [hPow] at hLarge
  cases i with
  | ofNat m =>
      have hCast : Int.ofNat m = (m : Int) := rfl
      rw [hCast] at hLow hHigh hLarge
      have hSome : 0 < m := by omega
      have hSize : m < 2 ^ 64 := by omega
      have hSign : decide ((m : Int) < 0) = false := by
        rw [decide_eq_false_iff_not]
        omega
      rw [Text.toList_toString_ofNat,
        Binary64.finite?_toDigits hSome hSize, hCast,
        Binary64.ofInt, hSign, Int.natAbs_natCast]
      rfl
  | negSucc m =>
      omega

/- The text of a number writes the value of the number. -/
theorem number?_text (h : n.Fits) :
    number? n.text = some (Sql.Value.ofNumber n) := by
  unfold number?
  dsimp only
  rw [Json.Number.trim_text h]
  cases n with
  | int i =>
      rw [Json.Number.text]
      by_cases hSigned : Text.InInt64 i
      · rw [Text.int64?_toString hSigned]
        simp [Sql.Value.ofNumber, Json.Number.int64?, hSigned]
      · have hNone : Text.int64? (toString i).toList = none := by
          rw [Text.int64?, Text.integer?_toString]
          simp [Option.filter, hSigned]
        rw [hNone, finite?_toString h hSigned]
        simp [Sql.Value.ofNumber, Json.Number.int64?, hSigned,
          Json.Number.toBinary64]
  | float x =>
      have hFinite : x.isFinite = true := h
      have hNone : Text.int64? x.decimalText.toList = none := by
        rcases Binary64.exists_mem_decimalText x with
          ⟨c, hc, hMark⟩
        have hOther : c.isDigit = false ∧ c ≠ '+' ∧ c ≠ '-' := by
          rcases hMark with rfl | rfl <;> decide
        rw [Text.int64?,
          Text.integer?_eq_none hc hOther.1 hOther.2]
        rfl
      rw [Json.Number.text, if_pos hFinite, hNone,
        Binary64.finite?_decimalText hFinite]
      rfl

/- The text of a number is not empty. -/
theorem text_ne_empty (h : n.Fits) :
    n.text ≠ "" := by
  intro hNone
  have hRead := number?_text h
  rw [hNone] at hRead
  cases hRead

------------------------------------------------------------
-- JSON values
------------------------------------------------------------

variable {kind : Kind}
variable {v : Json}

/- Truth values are written as words that are read back. -/
theorem boolean?_plainText (b : Bool) :
    boolean? (Json.bool b).plainText = some b := by
  cases b <;> decide

/-
  The plain text of an accepted value that is present is
  accepted, and stands for the same value.
-/
theorem ofText_plainText
    (hFits : ∀ n, v = .number n → n.Fits)
    (hPresent : v ≠ .null)
    (h : kind.acceptsJson v = true) :
    kind.acceptsText v.plainText = true ∧
      kind.ofText v.plainText = kind.ofJson v := by
  cases v with
  | null => exact absurd rfl hPresent
  | string s =>
      rcases acceptsJson_string kind s with ⟨hAccepts, hValue⟩
      rw [hAccepts] at h
      exact ⟨h, hValue.symm⟩
  | bool b =>
      cases kind with
      | boolean =>
          have hRead := boolean?_plainText b
          simp [acceptsText, ofText, hRead, ofJson,
            Sql.Value.ofJson]
      | string => cases b <;> exact ⟨rfl, rfl⟩
      | integer => cases h
      | timestamp => cases h
      | oneOf values => cases h
  | number n =>
      have hText := number?_text (hFits n rfl)
      have hPlain : (Json.number n).plainText = n.text := rfl
      rw [hPlain]
      cases kind with
      | integer =>
          simp [acceptsText, ofText, hText, ofJson,
            Sql.Value.ofJson]
      | boolean =>
          simp only [acceptsJson, Bool.or_eq_true,
            beq_iff_eq] at h
          cases n with
          | int i =>
              simp only [Json.Number.int64?] at h
              split at h
              · simp only [Option.some.injEq] at h
                rcases h with rfl | rfl <;> exact ⟨rfl, rfl⟩
              · simp at h
          | float x => simp [Json.Number.int64?] at h
      | string =>
          have hSome := text_ne_empty (hFits n rfl)
          simp [acceptsText, ofText, ofJson, hSome]
      | timestamp => cases h
      | oneOf values => cases h
  | array items => cases kind <;> cases h
  | object members => cases kind <;> cases h

/-
  The plain text of an accepted value stands for itself in a
  path, unless it is a string of a kind that holds strings.
-/
theorem isSegment_plainText
    (hFits : ∀ n, v = .number n → n.Fits)
    (hPresent : v ≠ .null)
    (h : kind.acceptsJson v = true)
    (hString :
      ∀ s, v = .string s →
        kind = .integer ∨ kind = .boolean ∨ kind = .timestamp) :
    Uri.IsSegment v.plainText := by
  cases v with
  | null => exact absurd rfl hPresent
  | string s =>
      have hKind := hString s rfl
      rw [(acceptsJson_string kind s).1] at h
      refine Uri.isSegment_of_inert ?_
        (inert_of_acceptsText hKind h)
      rintro rfl
      rcases hKind with rfl | rfl | rfl <;> cases h
  | bool b =>
      refine Uri.isSegment_of_inert (by cases b <;> decide) ?_
      exact inert_of_boolean? (boolean?_plainText b)
  | number n =>
      exact Uri.isSegment_of_inert
        (text_ne_empty (hFits n rfl))
        (Json.Number.inert_text (hFits n rfl))
  | array items => cases kind <;> cases h
  | object members => cases kind <;> cases h

end Kind

end RelationalRest
