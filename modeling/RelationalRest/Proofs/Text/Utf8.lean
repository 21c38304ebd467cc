import Mathlib.Tactic.ByContra
import RelationalRest.Text.Utf8

/-
  Text and its UTF-8 octets determine each other: what was
  encoded is decoded to the same text, and octets without gaps
  are those of the text that they decode to.

  Main declarations:
    * `Utf8.scanFrom_char`
    * `Utf8.scan_encode`
    * `Utf8.decodeLossy_encode`
    * `Utf8.exists_char_of_mem_encode`
    * `Utf8.decode?_eq_some_iff`
-/

namespace RelationalRest

namespace Utf8

------------------------------------------------------------
-- One octet
------------------------------------------------------------

section Octets

variable {owed low high code : Nat}
variable {b : UInt8}
variable {rest : List UInt8}

/- An octet in range that is not the last goes on the character. -/
theorem scanFrom_next
    (hOwed : 1 < owed)
    (hLow : low ≤ b.toNat)
    (hHigh : b.toNat ≤ high) :
    scanFrom (.inside owed low high code) (b :: rest) =
      scanFrom
        (.inside (owed - 1) 0x80 0xbf
          (64 * code + (b.toNat - 0x80)))
        rest := by
  have hMore : ¬ owed ≤ 1 := by omega
  simp [scanFrom, step, hLow, hHigh, hMore]

/- The last octet in range completes the character. -/
theorem scanFrom_last
    (hLow : low ≤ b.toNat)
    (hHigh : b.toNat ≤ high) :
    scanFrom (.inside 1 low high code) (b :: rest) =
      some (Char.ofNat (64 * code + (b.toNat - 0x80))) ::
        scanFrom .between rest := by
  simp [scanFrom, step, hLow, hHigh]

/- An octet of its own is a character of ASCII. -/
theorem scanFrom_ascii (h : b.toNat ≤ 0x7f) :
    scanFrom .between (b :: rest) =
      some (Char.ofNat b.toNat) :: scanFrom .between rest := by
  simp [scanFrom, step, start, h]

/- A first octet of two. -/
theorem scanFrom_two
    (hLow : 0xc2 ≤ b.toNat)
    (hHigh : b.toNat ≤ 0xdf) :
    scanFrom .between (b :: rest) =
      scanFrom (.inside 1 0x80 0xbf (b.toNat - 0xc0)) rest := by
  have hAscii : ¬ b.toNat ≤ 0x7f := by omega
  simp [scanFrom, step, start, hAscii, hLow, hHigh]

/-
  The range of the second octet of three: it leaves out what
  two octets write, and the surrogates.
-/
def secondOfThree (first : Nat) : Nat × Nat :=
  if first = 0xe0 then (0xa0, 0xbf)
  else if first = 0xed then (0x80, 0x9f)
  else (0x80, 0xbf)

/- A first octet of three. -/
theorem scanFrom_three
    (hLow : 0xe0 ≤ b.toNat)
    (hHigh : b.toNat ≤ 0xef) :
    scanFrom .between (b :: rest) =
      scanFrom
        (.inside 2 (secondOfThree b.toNat).1
          (secondOfThree b.toNat).2 (b.toNat - 0xe0))
        rest := by
  have hAscii : ¬ b.toNat ≤ 0x7f := by omega
  have hTwo : ¬ b.toNat ≤ 0xdf := by omega
  by_cases hFirst : b.toNat = 0xe0
  · simp [scanFrom, step, start, secondOfThree, hFirst]
  by_cases hSurrogate : b.toNat = 0xed
  · simp [scanFrom, step, start, secondOfThree, hSurrogate]
  have hInside : 0xe1 ≤ b.toNat := by omega
  simp [scanFrom, step, start, secondOfThree, hAscii, hTwo,
    hFirst, hSurrogate, hInside, hHigh]

/-
  The range of the second octet of four: it leaves out what
  three octets write, and what is no character.
-/
def secondOfFour (first : Nat) : Nat × Nat :=
  if first = 0xf0 then (0x90, 0xbf)
  else if first = 0xf4 then (0x80, 0x8f)
  else (0x80, 0xbf)

/- A first octet of four. -/
theorem scanFrom_four
    (hLow : 0xf0 ≤ b.toNat)
    (hHigh : b.toNat ≤ 0xf4) :
    scanFrom .between (b :: rest) =
      scanFrom
        (.inside 3 (secondOfFour b.toNat).1
          (secondOfFour b.toNat).2 (b.toNat - 0xf0))
        rest := by
  have hAscii : ¬ b.toNat ≤ 0x7f := by omega
  have hTwo : ¬ b.toNat ≤ 0xdf := by omega
  have hThree : ¬ b.toNat ≤ 0xef := by omega
  by_cases hFirst : b.toNat = 0xf0
  · simp [scanFrom, step, start, secondOfFour, hFirst]
  by_cases hLast : b.toNat = 0xf4
  · simp [scanFrom, step, start, secondOfFour, hLast]
  have hInside : 0xf1 ≤ b.toNat := by omega
  have hBelow : b.toNat ≤ 0xf3 := by omega
  have hE0 : b.toNat ≠ 0xe0 := by omega
  have hEd : b.toNat ≠ 0xed := by omega
  simp [scanFrom, step, start, secondOfFour, hAscii, hTwo,
    hThree, hFirst, hLast, hInside, hBelow, hE0, hEd]

end Octets

------------------------------------------------------------
-- One character
------------------------------------------------------------

/- The code of a character is no surrogate, and in range. -/
theorem code_cases (c : Char) :
    c.toNat < 0xd800 ∨ 0xdfff < c.toNat ∧ c.toNat < 0x110000 :=
  c.valid

/- The number of an octet that is made of a small number. -/
theorem toNat_octet
    {n : Nat}
    (h : n < 256) :
    (UInt8.ofNat n).toNat = n :=
  UInt8.toNat_ofNat_of_lt' h

/- The second octet of three is in its range. -/
theorem secondOfThree_holds
    {v : Nat}
    (hLow : 0x800 ≤ v)
    (hCode : v < 0xd800 ∨ 0xdfff < v) :
    (secondOfThree (v / 4096 + 0xe0)).1 ≤ v / 64 % 64 + 0x80 ∧
      v / 64 % 64 + 0x80 ≤ (secondOfThree (v / 4096 + 0xe0)).2 := by
  unfold secondOfThree
  split
  · exact ⟨by dsimp only; omega, by dsimp only; omega⟩
  split
  · exact ⟨by dsimp only; omega, by dsimp only; omega⟩
  · exact ⟨by dsimp only; omega, by dsimp only; omega⟩

/- The second octet of four is in its range. -/
theorem secondOfFour_holds
    {v : Nat}
    (hLow : 0x10000 ≤ v)
    (hHigh : v < 0x110000) :
    (secondOfFour (v / 262144 + 0xf0)).1 ≤
        v / 4096 % 64 + 0x80 ∧
      v / 4096 % 64 + 0x80 ≤
        (secondOfFour (v / 262144 + 0xf0)).2 := by
  unfold secondOfFour
  split
  · exact ⟨by dsimp only; omega, by dsimp only; omega⟩
  split
  · exact ⟨by dsimp only; omega, by dsimp only; omega⟩
  · exact ⟨by dsimp only; omega, by dsimp only; omega⟩

section Encoded

variable {v : Nat}
variable {rest : List UInt8}

/- The number of an octet that is not the first. -/
theorem toNat_later (n : Nat) :
    (UInt8.ofNat (n % 64 + 128)).toNat = n % 64 + 128 :=
  toNat_octet (by omega)

/- Two octets are scanned as the character that they write. -/
theorem scanFrom_pair
    (hLow : 0x80 ≤ v)
    (hHigh : v ≤ 0x7ff) :
    scanFrom .between
        (UInt8.ofNat (v / 64 % 32 + 192) ::
          UInt8.ofNat (v % 64 + 128) :: rest) =
      some (Char.ofNat v) :: scanFrom .between rest := by
  have hFirst :
      (UInt8.ofNat (v / 64 % 32 + 192)).toNat = v / 64 + 192 := by
    rw [toNat_octet (by omega)]
    omega
  have hLast := toNat_later v
  have hSum :
      64 * (v / 64 + 192 - 192) + (v % 64 + 128 - 128) = v := by
    omega
  rw [scanFrom_two (by omega) (by omega),
    scanFrom_last (by omega) (by omega), hFirst, hLast, hSum]

/- Three octets are scanned as the character that they write. -/
theorem scanFrom_triple
    (hLow : 0x800 ≤ v)
    (hHigh : v ≤ 0xffff)
    (hCode : v < 0xd800 ∨ 0xdfff < v) :
    scanFrom .between
        (UInt8.ofNat (v / 4096 % 16 + 224) ::
          UInt8.ofNat (v / 64 % 64 + 128) ::
            UInt8.ofNat (v % 64 + 128) :: rest) =
      some (Char.ofNat v) :: scanFrom .between rest := by
  have hFirst :
      (UInt8.ofNat (v / 4096 % 16 + 224)).toNat =
        v / 4096 + 224 := by
    rw [toNat_octet (by omega)]
    omega
  have hSecond := toNat_later (v / 64)
  have hLast := toNat_later v
  have hRange := secondOfThree_holds hLow hCode
  rw [← hSecond] at hRange
  have hSum :
      64 * (64 * (v / 4096 + 224 - 224) +
          (v / 64 % 64 + 128 - 128)) +
        (v % 64 + 128 - 128) = v := by
    omega
  rw [scanFrom_three (by omega) (by omega), hFirst,
    scanFrom_next (by decide) hRange.1 hRange.2,
    scanFrom_last (by omega) (by omega), hSecond, hLast, hSum]

/- Four octets are scanned as the character that they write. -/
theorem scanFrom_quadruple
    (hLow : 0x10000 ≤ v)
    (hHigh : v < 0x110000) :
    scanFrom .between
        (UInt8.ofNat (v / 262144 % 8 + 240) ::
          UInt8.ofNat (v / 4096 % 64 + 128) ::
            UInt8.ofNat (v / 64 % 64 + 128) ::
              UInt8.ofNat (v % 64 + 128) :: rest) =
      some (Char.ofNat v) :: scanFrom .between rest := by
  have hFirst :
      (UInt8.ofNat (v / 262144 % 8 + 240)).toNat =
        v / 262144 + 240 := by
    rw [toNat_octet (by omega)]
    omega
  have hSecond := toNat_later (v / 4096)
  have hThird := toNat_later (v / 64)
  have hLast := toNat_later v
  have hRange := secondOfFour_holds hLow hHigh
  rw [← hSecond] at hRange
  have hSum :
      64 * (64 * (64 * (v / 262144 + 240 - 240) +
            (v / 4096 % 64 + 128 - 128)) +
          (v / 64 % 64 + 128 - 128)) +
        (v % 64 + 128 - 128) = v := by
    omega
  rw [scanFrom_four (by omega) (by omega), hFirst,
    scanFrom_next (by decide) hRange.1 hRange.2,
    scanFrom_next (by decide) (by omega) (by omega),
    scanFrom_last (by omega) (by omega), hSecond, hThird,
    hLast, hSum]

end Encoded

/- The octets of a character are scanned as the character. -/
theorem scanFrom_char
    (c : Char)
    (rest : List UInt8) :
    scanFrom .between (String.utf8EncodeChar c ++ rest) =
      some c :: scanFrom .between rest := by
  have hCode := code_cases c
  have hChar : Char.ofNat c.toNat = c := Char.ofNat_toNat c
  generalize hv : c.toNat = v at hCode hChar
  have hVal : c.val.toNat = v := hv
  unfold String.utf8EncodeChar
  rw [hVal, ← hChar]
  dsimp only
  split
  · next hOne =>
      have hFirst : (UInt8.ofNat v).toNat = v :=
        toNat_octet (by omega)
      rw [List.singleton_append, scanFrom_ascii (by omega), hFirst]
  split
  · exact scanFrom_pair (by omega) (by omega)
  split
  · exact scanFrom_triple (by omega) (by omega) (by omega)
  · exact scanFrom_quadruple (by omega) (by omega)

------------------------------------------------------------
-- Texts
------------------------------------------------------------

/- The octets of a text are scanned as its characters. -/
theorem scan_encode (s : String) :
    scan (encode s) = s.toList.map some := by
  have hChars :
      ∀ cs : List Char,
        scanFrom .between (cs.flatMap String.utf8EncodeChar) =
          cs.map some := by
    intro cs
    induction cs with
    | nil => rfl
    | cons c cs ih =>
        rw [List.flatMap_cons, scanFrom_char, ih, List.map_cons]
  exact hChars s.toList

/- A text is read from its octets, whether gaps are allowed. -/
theorem decodeLossy_encode (s : String) :
    decodeLossy (encode s) = s := by
  rw [decodeLossy, scan_encode, List.map_map]
  have hSame :
      (fun x : Option Char => x.getD '\ufffd') ∘ some = id := rfl
  rw [hSame, List.map_id, String.ofList_toList]

/- An octet of ASCII in a text is a character of it. -/
theorem exists_char_of_mem_encode
    {b : UInt8}
    {s : String}
    (h : b ∈ encode s)
    (hAscii : b.toNat ≤ 0x7f) :
    ∃ c ∈ s.toList, c.toNat = b.toNat := by
  rcases List.mem_flatMap.mp h with ⟨c, hc, hb⟩
  refine ⟨c, hc, ?_⟩
  have hHigh :
      ∀ n, 128 ≤ n → n < 256 → b ≠ UInt8.ofNat n := by
    rintro n hLow hSize rfl
    rw [toNat_octet hSize] at hAscii
    omega
  have hVal : c.val.toNat = c.toNat := rfl
  unfold String.utf8EncodeChar at hb
  rw [hVal] at hb
  dsimp only at hb
  split at hb
  · next hOne =>
      rw [List.mem_singleton.mp hb, toNat_octet (by omega)]
  split at hb
  · rcases List.mem_cons.mp hb with hb | hb
    · exact absurd hb (hHigh _ (by omega) (by omega))
    · exact absurd (List.mem_singleton.mp hb)
        (hHigh _ (by omega) (by omega))
  split at hb
  · simp only [List.mem_cons, List.not_mem_nil, or_false] at hb
    rcases hb with hb | hb | hb
    · exact absurd hb (hHigh _ (by omega) (by omega))
    · exact absurd hb (hHigh _ (by omega) (by omega))
    · exact absurd hb (hHigh _ (by omega) (by omega))
  · simp only [List.mem_cons, List.not_mem_nil, or_false] at hb
    rcases hb with hb | hb | hb | hb
    · exact absurd hb (hHigh _ (by omega) (by omega))
    · exact absurd hb (hHigh _ (by omega) (by omega))
    · exact absurd hb (hHigh _ (by omega) (by omega))
    · exact absurd hb (hHigh _ (by omega) (by omega))

------------------------------------------------------------
-- Octets without gaps
------------------------------------------------------------

section Converse

variable {owed low high code : Nat}
variable {a b c d : UInt8}
variable {bytes rest : List UInt8}
variable {cs : List Char}

/- Inside a character without a gap an octet in range follows. -/
theorem exists_of_inside
    (h : scanFrom (.inside owed low high code) bytes =
      cs.map some) :
    ∃ b rest, bytes = b :: rest ∧ low ≤ b.toNat ∧
      b.toNat ≤ high := by
  cases bytes with
  | nil => cases cs <;> simp [scanFrom] at h
  | cons b rest =>
      refine ⟨b, rest, rfl, ?_⟩
      by_contra hRange
      cases cs <;> simp [scanFrom, step, hRange] at h

/- Between characters without a gap an octet begins one. -/
theorem first_cases
    (h : scanFrom .between (a :: rest) = cs.map some) :
    a.toNat ≤ 0x7f ∨ (0xc2 ≤ a.toNat ∧ a.toNat ≤ 0xdf) ∨
      (0xe0 ≤ a.toNat ∧ a.toNat ≤ 0xef) ∨
      0xf0 ≤ a.toNat ∧ a.toNat ≤ 0xf4 := by
  by_contra hNone
  have hStart : start a.toNat = ([none], .between) := by
    unfold start
    repeat rw [if_neg (by omega)]
  cases cs <;> simp [scanFrom, step, hStart] at h

/- The number of a character that is made of its code. -/
theorem val_ofNat
    {v : Nat}
    (h : v < 0xd800 ∨ 0xdfff < v ∧ v < 0x110000) :
    (Char.ofNat v).val.toNat = v := by
  have hValid : v.isValidChar := h
  rw [Char.ofNat, dif_pos hValid]
  rfl

/- An octet is made of its number. -/
theorem octet_eq
    {n : Nat}
    (h : n = a.toNat) :
    UInt8.ofNat n = a := by
  rw [h, UInt8.ofNat_toNat]

/- A character of one octet is encoded as this. -/
theorem encodeChar_one
    (h : a.toNat ≤ 0x7f) :
    String.utf8EncodeChar (Char.ofNat a.toNat) = [a] := by
  unfold String.utf8EncodeChar
  rw [val_ofNat (by omega)]
  dsimp only
  rw [if_pos (by omega), octet_eq rfl]

/- A character of two octets is encoded as these. -/
theorem encodeChar_two
    (hFirst : 0xc2 ≤ a.toNat ∧ a.toNat ≤ 0xdf)
    (hLast : 0x80 ≤ b.toNat ∧ b.toNat ≤ 0xbf) :
    String.utf8EncodeChar
        (Char.ofNat (64 * (a.toNat - 0xc0) + (b.toNat - 0x80))) =
      [a, b] := by
  generalize hv : 64 * (a.toNat - 0xc0) + (b.toNat - 0x80) = v
  unfold String.utf8EncodeChar
  rw [val_ofNat (by omega)]
  dsimp only
  rw [if_neg (by omega), if_pos (by omega),
    octet_eq (a := a) (by omega), octet_eq (a := b) (by omega)]

/- A character of three octets is encoded as these. -/
theorem encodeChar_three
    (hFirst : 0xe0 ≤ a.toNat ∧ a.toNat ≤ 0xef)
    (hSecond :
      (secondOfThree a.toNat).1 ≤ b.toNat ∧
        b.toNat ≤ (secondOfThree a.toNat).2)
    (hLast : 0x80 ≤ c.toNat ∧ c.toNat ≤ 0xbf) :
    String.utf8EncodeChar
        (Char.ofNat
          (64 * (64 * (a.toNat - 0xe0) + (b.toNat - 0x80)) +
            (c.toNat - 0x80))) =
      [a, b, c] := by
  have hRange :
      (0x80 ≤ b.toNat ∧ b.toNat ≤ 0xbf) ∧
        (a.toNat = 0xe0 → 0xa0 ≤ b.toNat) ∧
        (a.toNat = 0xed → b.toNat ≤ 0x9f) := by
    unfold secondOfThree at hSecond
    split at hSecond
    · dsimp only at hSecond
      omega
    split at hSecond
    · dsimp only at hSecond
      omega
    · dsimp only at hSecond
      omega
  generalize hv :
    64 * (64 * (a.toNat - 0xe0) + (b.toNat - 0x80)) +
      (c.toNat - 0x80) = v
  unfold String.utf8EncodeChar
  rw [val_ofNat (by omega)]
  dsimp only
  rw [if_neg (by omega), if_neg (by omega), if_pos (by omega),
    octet_eq (a := a) (by omega), octet_eq (a := b) (by omega),
    octet_eq (a := c) (by omega)]

/- A character of four octets is encoded as these. -/
theorem encodeChar_four
    (hFirst : 0xf0 ≤ a.toNat ∧ a.toNat ≤ 0xf4)
    (hSecond :
      (secondOfFour a.toNat).1 ≤ b.toNat ∧
        b.toNat ≤ (secondOfFour a.toNat).2)
    (hThird : 0x80 ≤ c.toNat ∧ c.toNat ≤ 0xbf)
    (hLast : 0x80 ≤ d.toNat ∧ d.toNat ≤ 0xbf) :
    String.utf8EncodeChar
        (Char.ofNat
          (64 * (64 * (64 * (a.toNat - 0xf0) +
                (b.toNat - 0x80)) +
              (c.toNat - 0x80)) +
            (d.toNat - 0x80))) =
      [a, b, c, d] := by
  have hRange :
      (0x80 ≤ b.toNat ∧ b.toNat ≤ 0xbf) ∧
        (a.toNat = 0xf0 → 0x90 ≤ b.toNat) ∧
        (a.toNat = 0xf4 → b.toNat ≤ 0x8f) := by
    unfold secondOfFour at hSecond
    split at hSecond
    · dsimp only at hSecond
      omega
    split at hSecond
    · dsimp only at hSecond
      omega
    · dsimp only at hSecond
      omega
  generalize hv :
    64 * (64 * (64 * (a.toNat - 0xf0) + (b.toNat - 0x80)) +
        (c.toNat - 0x80)) +
      (d.toNat - 0x80) = v
  unfold String.utf8EncodeChar
  rw [val_ofNat (by omega)]
  dsimp only
  rw [if_neg (by omega), if_neg (by omega), if_neg (by omega),
    octet_eq (a := a) (by omega), octet_eq (a := b) (by omega),
    octet_eq (a := c) (by omega), octet_eq (a := d) (by omega)]

/-
  Octets that are scanned without a gap begin with those of the
  first character.
-/
theorem exists_char_of_scanFrom
    (h : scanFrom .between (a :: rest) = cs.map some) :
    ∃ char later,
      a :: rest = String.utf8EncodeChar char ++ later := by
  rcases first_cases h with hOne | hTwo | hThree | hFour
  · exact ⟨_, rest, by rw [encodeChar_one hOne]; rfl⟩
  · rw [scanFrom_two hTwo.1 hTwo.2] at h
    rcases exists_of_inside h with ⟨b, later, rfl, hb⟩
    exact ⟨_, later, by rw [encodeChar_two hTwo hb]; rfl⟩
  · rw [scanFrom_three hThree.1 hThree.2] at h
    rcases exists_of_inside h with ⟨b, rest, rfl, hb⟩
    rw [scanFrom_next (by decide) hb.1 hb.2] at h
    rcases exists_of_inside h with ⟨c, later, rfl, hc⟩
    exact ⟨_, later, by rw [encodeChar_three hThree hb hc]; rfl⟩
  · rw [scanFrom_four hFour.1 hFour.2] at h
    rcases exists_of_inside h with ⟨b, rest, rfl, hb⟩
    rw [scanFrom_next (by decide) hb.1 hb.2] at h
    rcases exists_of_inside h with ⟨c, rest, rfl, hc⟩
    rw [scanFrom_next (by decide) hc.1 hc.2] at h
    rcases exists_of_inside h with ⟨d, later, rfl, hd⟩
    exact ⟨_, later, by rw [encodeChar_four hFour hb hc hd]; rfl⟩

/- Octets that are scanned without a gap are those of the characters. -/
theorem eq_of_scanFrom
    (h : scanFrom .between bytes = cs.map some) :
    bytes = cs.flatMap String.utf8EncodeChar := by
  induction cs generalizing bytes with
  | nil =>
      cases bytes with
      | nil => rfl
      | cons a rest =>
          rcases exists_char_of_scanFrom h with ⟨char, later, hEq⟩
          rw [hEq, scanFrom_char] at h
          cases h
  | cons char cs ih =>
      cases bytes with
      | nil => cases h
      | cons a rest =>
          rcases exists_char_of_scanFrom h with ⟨first, later, hEq⟩
          rw [hEq, scanFrom_char, List.map_cons] at h
          rcases List.cons.inj h with ⟨hHead, hTail⟩
          cases hHead
          rw [hEq, ih hTail, List.flatMap_cons]

end Converse

/- A list without gaps gives its values. -/
theorem mapM_id_eq_some_iff
    {found : List (Option Char)}
    {cs : List Char} :
    found.mapM id = some cs ↔ found = cs.map some := by
  induction found generalizing cs with
  | nil => cases cs <;> simp
  | cons head rest ih =>
      cases head with
      | none => cases cs <;> simp
      | some char =>
          cases cs with
          | nil => simp [Option.bind_eq_some_iff]
          | cons c cs =>
              rw [List.map_cons, List.cons.injEq, ← ih]
              simp [Option.bind_eq_some_iff]
              exact and_comm

/- Octets are those of a text exactly if they decode to it. -/
theorem decode?_eq_some_iff
    {bytes : List UInt8}
    {s : String} :
    decode? bytes = some s ↔ bytes = encode s := by
  unfold decode?
  constructor
  · intro h
    rcases Option.map_eq_some_iff.mp h with ⟨cs, hFound, rfl⟩
    have hEq := eq_of_scanFrom (mapM_id_eq_some_iff.mp hFound)
    rw [hEq, encode, String.toList_ofList]
  · rintro rfl
    have hFound := mapM_id_eq_some_iff.mpr (scan_encode s)
    rw [hFound, Option.map_some, String.ofList_toList]

end Utf8

end RelationalRest
