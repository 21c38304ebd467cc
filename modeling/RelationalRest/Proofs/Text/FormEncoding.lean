import RelationalRest.Proofs.Fields
import RelationalRest.Proofs.Text.Utf8
import RelationalRest.Request

/-
  The form encoding of pairs is read back as the same pairs,
  and parameters with distinct names as the same parameters.
  What is written has neither a question mark nor a hash, so
  it stays whole as the query of a location.

  Key definitions include:
    * `FormEncoding.octet`
    * `FormEncoding.spaced`

  Main declarations:
    * `FormEncoding.percentDecode_cons_of_ne`
    * `FormEncoding.percentDecode_eq_self`
    * `FormEncoding.decode_encode`
    * `FormEncoding.plain_of_mem_encode`
    * `Params.parse_encode`
-/

namespace RelationalRest

------------------------------------------------------------
-- Characters of one octet
------------------------------------------------------------

namespace FormEncoding

/- The octet of a character of ASCII. -/
def octet (c : Char) : UInt8 :=
  UInt8.ofNat c.toNat

/- The number of an octet of ASCII is that of its character. -/
theorem toNat_octet
    {c : Char}
    (h : c.toNat ≤ 0x7f) :
    (octet c).toNat = c.toNat :=
  Utf8.toNat_octet (by omega)

/- A character of ASCII is read off its octet. -/
theorem ofNat_octet
    {c : Char}
    (h : c.toNat ≤ 0x7f) :
    Char.ofNat (octet c).toNat = c := by
  rw [toNat_octet h, Char.ofNat_toNat]

/- Characters of ASCII are encoded by their octets. -/
theorem encode_ofList
    {cs : List Char}
    (h : ∀ c ∈ cs, c.toNat ≤ 0x7f) :
    Utf8.encode (String.ofList cs) = cs.map octet := by
  rw [Utf8.encode, String.toList_ofList]
  induction cs with
  | nil => rfl
  | cons c cs ih =>
      rcases List.forall_mem_cons.mp h with ⟨hHead, hTail⟩
      have hChar := Utf8.encodeChar_one (a := octet c)
        (by rwa [toNat_octet hHead])
      rw [ofNat_octet hHead] at hChar
      rw [List.flatMap_cons, hChar, ih hTail]
      rfl

------------------------------------------------------------
-- Percent-decoding
------------------------------------------------------------

section PercentDecode

variable {b : UInt8}
variable {bytes : List UInt8}

/- An octet other than the mark stands for itself. -/
theorem percentDecode_cons_of_ne
    (h : b ≠ 0x25)
    (rest : List UInt8) :
    percentDecode (b :: rest) = b :: percentDecode rest := by
  match rest with
  | [] => simp [percentDecode]
  | [_] => simp [percentDecode]
  | _ :: _ :: _ => simp [percentDecode, h]

/- Octets without the mark stand for themselves. -/
theorem percentDecode_eq_self (h : 0x25 ∉ bytes) :
    percentDecode bytes = bytes := by
  induction bytes with
  | nil => simp [percentDecode]
  | cons b rest ih =>
      rw [List.mem_cons, not_or] at h
      rcases h with ⟨hHead, hTail⟩
      rw [percentDecode_cons_of_ne (Ne.symm hHead),
        ih hTail]

/- Decoding never makes more octets. -/
theorem length_percentDecode_le (bytes : List UInt8) :
    (percentDecode bytes).length ≤ bytes.length := by
  fun_induction percentDecode bytes with
  | case1 => exact Nat.le_refl _
  | case2 => exact Nat.le_refl _
  | case3 => exact Nat.le_refl _
  | case4 high low rest h hHigh l hLow ih =>
      simp only [List.length_cons]
      omega
  | case5 high low rest hNone ih =>
      simp only [List.length_cons] at ih ⊢
      omega
  | case6 b high low rest hOther ih =>
      simp only [List.length_cons] at ih ⊢
      omega

/- The mark with the two digits of an octet stands for this. -/
theorem percentDecode_mark
    (b : UInt8)
    (rest : List UInt8) :
    percentDecode
        (0x25 :: octet (Text.upperHex (b.toNat / 16)) ::
          octet (Text.upperHex (b.toNat % 16)) :: rest) =
      b :: percentDecode rest := by
  have hSize : b.toNat < 256 := b.toNat_lt
  have hDigit :
      ∀ n, n < 16 →
        octetValue? (octet (Text.upperHex n)) = some n := by
    intro n hn
    have hAscii : (Text.upperHex n).toNat ≤ 0x7f := by
      have hAll :
          ∀ m : Fin 16, (Text.upperHex m.1).toNat ≤ 0x7f := by
        decide
      exact hAll ⟨n, hn⟩
    rw [octetValue?, ofNat_octet hAscii, Text.hexValue?_upperHex hn]
  have hSum : 16 * (b.toNat / 16) + b.toNat % 16 = b.toNat :=
    Nat.div_add_mod b.toNat 16
  rw [percentDecode, if_pos rfl, hDigit _ (by omega),
    hDigit _ (by omega)]
  simp only [hSum, UInt8.ofNat_toNat]

end PercentDecode

------------------------------------------------------------
-- Written octets
------------------------------------------------------------

/- The octet that is meant where a space may be written as a plus. -/
def spaced (b : UInt8) : UInt8 :=
  if b = 0x2b then 0x20 else b

/-
  What is written for an octet is of ASCII, and has none of the
  characters that separate.
-/
theorem plain_of_mem_encodeOctet
    {b : UInt8}
    {c : Char}
    (h : c ∈ encodeOctet b) :
    c.toNat ≤ 0x7f ∧ c ∉ ['&', '=', '?', '#'] := by
  have hAll :
      ∀ n : Fin 256,
        (encodeOctet (UInt8.ofNat n.1)).all fun c =>
          c.toNat ≤ 0x7f ∧ c ∉ ['&', '=', '?', '#'] := by
    decide +kernel
  have hOctet := hAll ⟨b.toNat, b.toNat_lt⟩
  rw [UInt8.ofNat_toNat] at hOctet
  exact of_decide_eq_true (List.all_eq_true.mp hOctet c h)

/- What is written for an octet is read as the octet. -/
theorem percentDecode_encodeOctet
    (b : UInt8)
    (rest : List UInt8) :
    percentDecode
        ((encodeOctet b).map (fun c => spaced (octet c)) ++ rest) =
      b :: percentDecode rest := by
  unfold encodeOctet
  split
  · next hPlain =>
      have hSelf : octet (Char.ofNat b.toNat) = b := by
        have hAll :
            ∀ n : Fin 256, isPlain (UInt8.ofNat n.1) →
              octet (Char.ofNat n.1) = UInt8.ofNat n.1 := by
          decide +kernel
        have hOctet := hAll ⟨b.toNat, b.toNat_lt⟩
        rw [UInt8.ofNat_toNat] at hOctet
        exact hOctet hPlain
      have hPlus : b ≠ 0x2b := by
        rintro rfl
        cases hPlain
      have hMark : b ≠ 0x25 := by
        rintro rfl
        cases hPlain
      rw [List.map_singleton, hSelf, spaced, if_neg hPlus,
        List.singleton_append, percentDecode_cons_of_ne hMark]
  split
  · next hSpace =>
      subst hSpace
      exact percentDecode_cons_of_ne (by decide) rest
  · have hSize : b.toNat < 256 := b.toNat_lt
    have hDigit :
        ∀ n, n < 16 →
          spaced (octet (Text.upperHex n)) =
            octet (Text.upperHex n) := by
      intro n hn
      have hAll :
          ∀ m : Fin 16, octet (Text.upperHex m.1) ≠ 0x2b := by
        decide
      exact if_neg (hAll ⟨n, hn⟩)
    have hMark : spaced (octet '%') = 0x25 := rfl
    simp only [List.map_cons, List.map_nil, List.cons_append,
      List.nil_append]
    rw [hMark, hDigit _ (by omega), hDigit _ (by omega)]
    exact percentDecode_mark b rest

------------------------------------------------------------
-- Names and values
------------------------------------------------------------

/-
  A written name or value is of ASCII, and has none of the
  characters that separate.
-/
theorem plain_of_mem_encodePart
    {s : String}
    {c : Char}
    (h : c ∈ encodePart s) :
    c.toNat ≤ 0x7f ∧ c ∉ ['&', '=', '?', '#'] := by
  rcases List.mem_flatMap.mp h with ⟨b, _, hc⟩
  exact plain_of_mem_encodeOctet hc

/- No octet of a written name or value is one that separates. -/
theorem not_mem_octets_encodePart
    {separator : Char}
    (hSeparator : separator ∈ ['&', '=', '?', '#'])
    (s : String) :
    octet separator ∉ (encodePart s).map octet := by
  intro h
  rcases List.mem_map.mp h with ⟨c, hc, hOctet⟩
  rcases plain_of_mem_encodePart hc with ⟨hAscii, hPlain⟩
  have hOwn : separator.toNat ≤ 0x7f := by
    have hAll : ∀ c ∈ ['&', '=', '?', '#'], c.toNat ≤ 0x7f := by
      simp
    exact hAll separator hSeparator
  have hSame : c = separator := by
    rw [← ofNat_octet hAscii, hOctet, ofNat_octet hOwn]
  exact hPlain (hSame ▸ hSeparator)

/- A written name or value is read back. -/
theorem decodePart_encodePart (s : String) :
    decodePart ((encodePart s).map octet) = s := by
  have hBytes :
      ∀ bytes : List UInt8,
        percentDecode
            ((bytes.flatMap encodeOctet).map
              fun c => spaced (octet c)) =
          bytes := by
    intro bytes
    induction bytes with
    | nil => simp [percentDecode]
    | cons b rest ih =>
        rw [List.flatMap_cons, List.map_append,
          percentDecode_encodeOctet, ih]
  have hMap :
      ((encodePart s).map octet).map
          (fun b => if b = 0x2b then 0x20 else b) =
        (encodePart s).map fun c => spaced (octet c) := by
    rw [List.map_map]
    rfl
  rw [decodePart, hMap, encodePart, hBytes, Utf8.decodeLossy_encode]

------------------------------------------------------------
-- Pairs
------------------------------------------------------------

/- A written pair is read back. -/
theorem decodePair_encodePair (pair : String × String) :
    decodePair ((encodePair pair).map octet) = pair := by
  have hOctets :
      (encodePair pair).map octet =
        (encodePart pair.1).map octet ++
          0x3d :: (encodePart pair.2).map octet := by
    simp only [encodePair, List.map_append, List.map_cons]
    rfl
  have hName : octet '=' ∉ (encodePart pair.1).map octet :=
    not_mem_octets_encodePart (by decide) pair.1
  have hCut := Text.cut_eq_some_iff.mpr ⟨hOctets, hName⟩
  rw [decodePair, hCut]
  simp only [decodePart_encodePart]

/- A written pair has nothing that separates it from others. -/
theorem plain_of_mem_encodePair
    {pair : String × String}
    {c : Char}
    (h : c ∈ encodePair pair) :
    c.toNat ≤ 0x7f ∧ c ∉ ['&', '?', '#'] := by
  have hPart :
      ∀ s, c ∈ encodePart s →
        c.toNat ≤ 0x7f ∧ c ∉ ['&', '?', '#'] := by
    intro s hc
    rcases plain_of_mem_encodePart hc with ⟨hAscii, hPlain⟩
    refine ⟨hAscii, fun hMem => hPlain ?_⟩
    rcases List.mem_cons.mp hMem with rfl | hMem
    · simp
    · exact List.mem_cons_of_mem _ (List.mem_cons_of_mem _ hMem)
  rcases List.mem_append.mp h with hName | hRest
  · exact hPart pair.1 hName
  rcases List.mem_cons.mp hRest with rfl | hValue
  · decide
  · exact hPart pair.2 hValue

/- Octets of joined texts. -/
theorem map_octet_intercalate (pieces : List (List Char)) :
    (['&'].intercalate pieces).map octet =
      [0x26].intercalate (pieces.map (·.map octet)) := by
  induction pieces with
  | nil => rfl
  | cons piece pieces ih =>
      cases pieces with
      | nil => simp [List.intercalate_singleton]
      | cons next pieces =>
          rw [List.intercalate_cons_cons, List.map_append, ih]
          simp only [List.map_cons, List.intercalate_cons_cons,
            List.map_append, List.map_nil]
          rfl

/- What stands in joined texts is in one of them or separates. -/
theorem mem_intercalate
    {c separator : Char}
    {pieces : List (List Char)}
    (h : c ∈ [separator].intercalate pieces) :
    c = separator ∨ ∃ piece ∈ pieces, c ∈ piece := by
  induction pieces with
  | nil => cases h
  | cons piece pieces ih =>
      cases pieces with
      | nil =>
          rw [List.intercalate_singleton] at h
          exact .inr ⟨piece, by simp, h⟩
      | cons next pieces =>
          rw [List.intercalate_cons_cons, List.mem_append,
            List.mem_append] at h
          rcases h with (hPiece | hSeparator) | hRest
          · exact .inr ⟨piece, by simp, hPiece⟩
          · exact .inl (List.mem_singleton.mp hSeparator)
          · rcases ih hRest with hSame | ⟨other, hMem, hc⟩
            · exact .inl hSame
            · exact .inr ⟨other, List.mem_cons_of_mem _ hMem, hc⟩

/- A query text is of ASCII without a question mark and a hash. -/
theorem plain_of_mem_encode
    {pairs : List (String × String)}
    {c : Char}
    (h : c ∈ (encode pairs).toList) :
    c.toNat ≤ 0x7f ∧ c ≠ '?' ∧ c ≠ '#' := by
  rw [encode, String.toList_ofList] at h
  rcases mem_intercalate h with rfl | ⟨piece, hPiece, hc⟩
  · decide
  rcases List.mem_map.mp hPiece with ⟨pair, _, rfl⟩
  rcases plain_of_mem_encodePair hc with ⟨hAscii, hPlain⟩
  refine ⟨hAscii, ?_, ?_⟩
  · rintro rfl
    simp at hPlain
  · rintro rfl
    simp at hPlain

/- The pairs of a query text are read back. -/
theorem decode_encode (pairs : List (String × String)) :
    decode (encode pairs) = pairs := by
  have hOctets :
      Utf8.encode (encode pairs) =
        [0x26].intercalate
          (pairs.map fun pair => (encodePair pair).map octet) := by
    have hAscii :
        ∀ c ∈ ['&'].intercalate (pairs.map encodePair),
          c.toNat ≤ 0x7f := by
      intro c hc
      have hMem : c ∈ (encode pairs).toList := by
        rwa [encode, String.toList_ofList]
      exact (plain_of_mem_encode hMem).1
    rw [encode, encode_ofList hAscii, map_octet_intercalate,
      List.map_map]
    rfl
  rw [decode, hOctets]
  cases pairs with
  | nil => simp [List.intercalate]
  | cons pair pairs =>
      have hApart :
          ∀ piece ∈ (pair :: pairs).map
              fun pair => (encodePair pair).map octet,
            0x26 ∉ piece := by
        intro piece hPiece hSeparator
        rcases List.mem_map.mp hPiece with ⟨pair, _, rfl⟩
        rcases List.mem_map.mp hSeparator with ⟨c, hc, hOctet⟩
        rcases plain_of_mem_encodePair hc with ⟨hAscii, hPlain⟩
        have hSame : c = '&' := by
          rw [← ofNat_octet hAscii, hOctet]
          rfl
        simp [hSame] at hPlain
      rw [List.splitOn_intercalate 0x26 hApart (by simp),
        List.filterMap_map]
      have hRead :
          ((fun piece =>
                if piece = [] then none
                else some (decodePair piece)) ∘
              fun pair => (encodePair pair).map octet) =
            some := by
        funext pair
        have hSome : (encodePair pair).map octet ≠ [] := by
          simp [encodePair]
        simp [hSome, decodePair_encodePair]
      rw [hRead, List.filterMap_some]

end FormEncoding

------------------------------------------------------------
-- Parameters
------------------------------------------------------------

namespace Params

/- Parameters with distinct names are read back. -/
theorem parse_encode
    {p : Params}
    (h : Fields.Distinct p.pairs) :
    parse p.encode = p := by
  rw [parse, encode, FormEncoding.decode_encode,
    Fields.ofList_eq_self h]

end Params

end RelationalRest
