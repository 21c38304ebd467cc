import RelationalRest.Http.Uri
import RelationalRest.Proofs.Text.FormEncoding

/-
  The parts of targets that begin with their path, and texts
  that stand for themselves as the last segment of one: they
  neither end the segment nor are changed by its decoding.

  Key definitions include:
    * `Uri.Inert`
    * `Uri.segmentOf`
    * `Uri.IsSegment`

  Main declarations:
    * `Uri.ofPath_append_query`
    * `Uri.path_ofText_append`
    * `Uri.isSegment_of_inert`
    * `Uri.isSegment_iff`
-/

namespace RelationalRest

namespace Uri

------------------------------------------------------------
-- Paths and queries
------------------------------------------------------------

variable {path query : List Char}

/- What precedes the first separator. -/
theorem before_append
    {separator : Char}
    {cs : List Char}
    (h : separator ∉ cs)
    (rest : List Char) :
    before separator (cs ++ separator :: rest) = cs := by
  have hOther : ∀ c ∈ cs, (c != separator) = true := by
    intro c hc
    rw [bne_iff_ne]
    rintro rfl
    exact h hc
  rw [before, List.takeWhile_append_of_pos hOther]
  simp

/- A text without a separator precedes the end. -/
theorem before_eq_self
    {separator : Char}
    {cs : List Char}
    (h : separator ∉ cs) :
    before separator cs = cs := by
  induction cs with
  | nil => rfl
  | cons c cs ih =>
      rw [List.mem_cons, not_or] at h
      have hc : (c != separator) = true := bne_iff_ne.mpr (Ne.symm h.1)
      rw [before, List.takeWhile_cons, if_pos hc]
      exact congrArg (c :: ·) (ih h.2)

/- A path with a query has both as its parts. -/
theorem ofPath_append_query
    (hMark : '?' ∉ path)
    (hFragment : '#' ∉ path)
    (hQuery : '#' ∉ query) :
    ofPath (path ++ '?' :: query) =
      { path := String.ofList path
        query := some (String.ofList query) } := by
  have hWhole : '#' ∉ path ++ '?' :: query := by
    simp [hFragment, hQuery]
  have hCut := Text.cut_eq_some_iff.mpr
    ⟨(rfl : path ++ '?' :: query = _), hMark⟩
  rw [ofPath, before_eq_self hWhole, hCut, before_append hMark]
  rfl

/- What precedes a separator goes on past other characters. -/
theorem before_append_of_ne
    {separator c : Char}
    {cs : List Char}
    (h : separator ∉ cs)
    (hc : c ≠ separator)
    (rest : List Char) :
    before separator (cs ++ c :: rest) =
      cs ++ c :: before separator rest := by
  have hOther : ∀ d ∈ cs, (d != separator) = true := by
    intro d hd
    rw [bne_iff_ne]
    rintro rfl
    exact h hd
  have hThis : (c != separator) = true := bne_iff_ne.mpr hc
  rw [before, List.takeWhile_append_of_pos hOther,
    List.takeWhile_cons, if_pos hThis]
  rfl

------------------------------------------------------------
-- Last segments
------------------------------------------------------------

/-
  The last segment of a target that ends with a text: what
  precedes a fragment and a query.
-/
def segmentOf (s : String) : String :=
  String.ofList (before '?' (before '#' s.toList))

/- A text behind a path is its last segment and what follows. -/
theorem path_ofText_append
    {path : String}
    (hRoot : path.toList.head? = some '/')
    (hMark : '?' ∉ path.toList)
    (hFragment : '#' ∉ path.toList)
    (s : String) :
    (ofText (path ++ "/" ++ s)).path =
      path ++ "/" ++ segmentOf s := by
  have hText :
      (path ++ "/" ++ s).toList =
        path.toList ++ '/' :: s.toList := by
    simp
  have hPath :
      (ofPath (path.toList ++ '/' :: s.toList)).path =
        path ++ "/" ++ segmentOf s := by
    unfold ofPath
    dsimp only
    rw [before_append_of_ne hFragment (by decide),
      before_append_of_ne hMark (by decide)]
    apply String.toList_inj.mp
    simp [segmentOf]
  unfold ofText
  rw [hText]
  cases hChars : path.toList with
  | nil => simp [hChars] at hRoot
  | cons c rest =>
      have hc : c = '/' := by simpa [hChars] using hRoot
      subst hc
      rw [hChars] at hPath
      exact hPath

/- The last segment of a text is no longer than the text. -/
theorem prefix_segmentOf (s : String) :
    (segmentOf s).toList <+: s.toList := by
  have hTake :
      ∀ (separator : Char) (cs : List Char),
        before separator cs <+: cs := fun separator cs =>
    List.takeWhile_prefix _
  rw [segmentOf, String.toList_ofList]
  exact (hTake '?' _).trans (hTake '#' _)

/- A text that nothing ends is its own last segment. -/
theorem segmentOf_eq_self
    {s : String}
    (hMark : '?' ∉ s.toList)
    (hFragment : '#' ∉ s.toList) :
    segmentOf s = s := by
  rw [segmentOf, before_eq_self hFragment, before_eq_self hMark,
    String.ofList_toList]

/- Only a text that nothing ends is its own last segment. -/
theorem not_mem_of_segmentOf
    {s : String}
    (h : segmentOf s = s) :
    '?' ∉ s.toList ∧ '#' ∉ s.toList := by
  have hChars := congrArg String.toList h
  rw [segmentOf, String.toList_ofList] at hChars
  have hNone :
      ∀ (separator : Char) (cs : List Char),
        separator ∉ before separator cs := by
    intro separator cs hMem
    have hOther := List.all_eq_true.mp List.all_takeWhile _ hMem
    simp at hOther
  constructor
  · rw [← hChars]
    exact hNone '?' _
  · have hInner :
        before '?' (before '#' s.toList) <+: before '#' s.toList :=
      List.takeWhile_prefix _
    intro hMem
    rw [← hChars] at hMem
    exact hNone '#' _ (hInner.subset hMem)

------------------------------------------------------------
-- Texts that stand for themselves
------------------------------------------------------------

/-
  A text that stands for itself as the last segment of a path:
  it is not empty, nothing in it ends the segment, and decoding
  leaves it as it is.
-/
def IsSegment (s : String) : Prop :=
  s ≠ "" ∧ (∀ c ∈ ['/', '?', '#'], c ∉ s.toList) ∧
    decodeSegment? s = some s

/- Characters that neither end a segment nor are decoded. -/
def Inert (cs : List Char) : Prop :=
  ∀ c ∈ cs, c ∉ ['/', '?', '#', '%']

/- No characters are inert. -/
theorem inert_nil : Inert [] := by
  simp [Inert]

/- A text without a percent sign is decoded as it is. -/
theorem decodeSegment?_eq_self
    {s : String}
    (h : '%' ∉ s.toList) :
    decodeSegment? s = some s := by
  have hMark : 0x25 ∉ Utf8.encode s := by
    intro hMem
    rcases Utf8.exists_char_of_mem_encode hMem (by decide) with
      ⟨c, hc, hNumber⟩
    have hPercent : c = '%' := by
      rw [← Char.ofNat_toNat c, hNumber]
      rfl
    exact h (hPercent ▸ hc)
  rw [decodeSegment?, FormEncoding.percentDecode_eq_self hMark]
  exact Utf8.decode?_eq_some_iff.mpr rfl

/- A text of inert characters stands for itself. -/
theorem isSegment_of_inert
    {s : String}
    (hSome : s ≠ "")
    (h : Inert s.toList) :
    IsSegment s := by
  refine ⟨hSome, ?_, ?_⟩
  · intro c hc hMem
    refine h c hMem ?_
    simp only [List.mem_cons, List.not_mem_nil, or_false] at hc ⊢
    rcases hc with rfl | rfl | rfl
    · exact .inl rfl
    · exact .inr (.inl rfl)
    · exact .inr (.inr (.inl rfl))
  · refine decodeSegment?_eq_self fun hMem => ?_
    exact h '%' hMem (by simp)

/-
  A text stands for itself exactly if its last segment is one
  that is decoded to the whole text.
-/
theorem isSegment_iff
    {s : String} :
    IsSegment s ↔
      segmentOf s ≠ "" ∧ '/' ∉ (segmentOf s).toList ∧
        decodeSegment? (segmentOf s) = some s := by
  constructor
  · rintro ⟨hSome, hNone, hDecoded⟩
    rw [segmentOf_eq_self (hNone '?' (by simp))
      (hNone '#' (by simp))]
    exact ⟨hSome, hNone '/' (by simp), hDecoded⟩
  · rintro ⟨hSome, hSlash, hDecoded⟩
    -- decoding makes nothing longer, so the segment is the text
    have hSame : segmentOf s = s := by
      rcases prefix_segmentOf s with ⟨rest, hRest⟩
      have hOctets := Utf8.decode?_eq_some_iff.mp hDecoded
      have hLength := FormEncoding.length_percentDecode_le
        (Utf8.encode (segmentOf s))
      rw [hOctets] at hLength
      have hWhole :
          Utf8.encode s =
            Utf8.encode (segmentOf s) ++
              Utf8.encode (String.ofList rest) := by
        simp only [Utf8.encode, String.toList_ofList,
          ← List.flatMap_append, hRest]
      rw [hWhole, List.length_append] at hLength
      have hEmpty : Utf8.encode (String.ofList rest) = [] :=
        List.length_eq_zero_iff.mp (by omega)
      have hScan := Utf8.scan_encode (String.ofList rest)
      rw [hEmpty, String.toList_ofList] at hScan
      cases rest with
      | nil =>
          rw [List.append_nil] at hRest
          exact String.toList_inj.mp hRest
      | cons c rest => cases hScan
    rw [hSame] at hSome hSlash hDecoded
    rcases not_mem_of_segmentOf hSame with ⟨hMark, hFragment⟩
    refine ⟨hSome, ?_, hDecoded⟩
    simp [hSlash, hMark, hFragment]

end Uri

end RelationalRest
