import RelationalRest.Proofs.Fields
import RelationalRest.Proofs.Http.Uri
import RelationalRest.Proofs.Listing.Window
import RelationalRest.Proofs.Text.FormEncoding
import RelationalRest.Proofs.Text.Numeral

/-
  A walk along the links of pages.  Every link leads to the
  parameters that it was made from, so a walk from the first
  page visits each page once, stays at the last one, and the
  way back visits the same pages.

  Key definitions include:
    * `Params.ofLink`
    * `Params.At`
    * `PageLinks.follow`
    * `PageLinks.walk`
    * `PageLinks.Traverses`

  Main declarations:
    * `Params.ofLink_append`
    * `Params.ofLink_eq_parse_query`
    * `Params.At.follow`
    * `Params.At.walk_next`
    * `Params.At.walk_previous`
    * `PageLinks.traverses`
-/

namespace RelationalRest

------------------------------------------------------------
-- The parameters of a link
------------------------------------------------------------

namespace Params

/- What follows the last question mark of a text. -/
def afterLastMark (cs : List Char) : List Char :=
  (cs.reverse.takeWhile (· != '?')).reverse

/- The parameters in the query of a link. -/
def ofLink (link : String) : Params :=
  parse (String.ofList (afterLastMark link.toList))

/- What follows a question mark that is the last one. -/
theorem afterLastMark_append
    {opening rest : List Char}
    (h : '?' ∉ rest) :
    afterLastMark (opening ++ '?' :: rest) = rest := by
  have hRest :
      ∀ c ∈ rest.reverse, (c != '?') = true := by
    intro c hc
    rw [bne_iff_ne]
    rintro rfl
    exact h (List.mem_reverse.mp hc)
  have hReverse :
      (opening ++ '?' :: rest).reverse =
        rest.reverse ++ '?' :: opening.reverse := by
    simp
  rw [afterLastMark, hReverse,
    List.takeWhile_append_of_pos hRest]
  simp

/- A link leads to the parameters that it was made from. -/
theorem ofLink_append
    {p : Params}
    (h : Fields.Distinct p.pairs)
    (location : String) :
    ofLink (location ++ "?" ++ p.encode) = p := by
  have hText :
      (location ++ "?" ++ p.encode).toList =
        location.toList ++ '?' :: p.encode.toList := by
    simp
  have hMark : '?' ∉ p.encode.toList := fun hMem =>
    (FormEncoding.plain_of_mem_encode hMem).2.1 rfl
  rw [ofLink, hText, afterLastMark_append hMark,
    String.ofList_toList, parse_encode h]

/-
  The parameters of a link are those of its query, where the
  location has neither a question mark nor a fragment.
-/
theorem ofLink_eq_parse_query
    {location : String}
    (hMark : '?' ∉ location.toList)
    (hFragment : '#' ∉ location.toList)
    (p : Params) :
    (Uri.ofPath (location ++ "?" ++ p.encode).toList).query.map
        parse =
      some (ofLink (location ++ "?" ++ p.encode)) := by
  have hText :
      (location ++ "?" ++ p.encode).toList =
        location.toList ++ '?' :: p.encode.toList := by
    simp
  have hPlain :
      ∀ c ∈ p.encode.toList, c ≠ '?' ∧ c ≠ '#' := fun _ hc =>
    (FormEncoding.plain_of_mem_encode hc).2
  have hLast :
      afterLastMark (location.toList ++ '?' :: p.encode.toList) =
        p.encode.toList :=
    afterLastMark_append fun hMem => (hPlain _ hMem).1 rfl
  rw [ofLink, hText, hLast,
    Uri.ofPath_append_query hMark hFragment
      (fun hMem => (hPlain _ hMem).2 rfl)]
  rfl

------------------------------------------------------------
-- Parameters at an offset
------------------------------------------------------------

/-
  Parameters ask for the page of `limit` rows from `offset` on,
  and for the rest what the origin asks for, in its order.
-/
structure At
    (origin : Params)
    (limit offset : Nat)
    (p : Params) : Prop where
  distinct : Fields.Distinct p.pairs
  limit_eq : p.get? "limit" = some (toString limit)
  offset_eq :
    p.get? "offset" =
      if offset = 0 then none else some (toString offset)
  rest_eq :
    p.remove "offset" =
      (origin.set "limit" (toString limit)).remove "offset"

variable {origin p : Params}
variable {limit offset : Nat}

/- The parameters of another page ask for it. -/
theorem at_atPage
    (h : Fields.Distinct p.pairs)
    (limit offset : Nat) :
    At p limit offset (p.atPage limit offset) := by
  have hSet : Fields.Distinct (p.set "limit" (toString limit)).pairs :=
    h.insert _ _
  unfold atPage
  dsimp only
  split
  · next hStart =>
      have hGone :
          ((p.set "limit" (toString limit)).remove "offset").get?
            "offset" = none :=
        Fields.get?_erase_self hSet
      refine ⟨hSet.erase _, ?_, ?_, ?_⟩
      · have hOther :
            ((p.set "limit" (toString limit)).remove "offset").get?
                "limit" =
              (p.set "limit" (toString limit)).get? "limit" :=
          Fields.get?_erase_of_ne _ (by decide)
        rw [hOther]
        exact Fields.get?_insert_self _ _ _
      · rw [hGone, if_pos hStart]
      · exact congrArg Params.mk
          (Fields.erase_of_get?_eq_none hGone)
  · next hLater =>
      refine ⟨hSet.insert _ _, ?_, ?_, ?_⟩
      · have hOther :
            ((p.set "limit" (toString limit)).set "offset"
                (toString offset)).get? "limit" =
              (p.set "limit" (toString limit)).get? "limit" :=
          Fields.get?_insert_of_ne _ _ (by decide)
        rw [hOther]
        exact Fields.get?_insert_self _ _ _
      · rw [if_neg hLater]
        exact Fields.get?_insert_self _ _ _
      · exact congrArg Params.mk (Fields.erase_insert _ _ _)

/- Another page of the same walk. -/
theorem At.atPage
    (h : At origin limit offset p)
    (other : Nat) :
    At origin limit other (p.atPage limit other) := by
  rcases at_atPage h.distinct limit other with
    ⟨hDistinct, hLimit, hOffset, hRest⟩
  have hSame : p.set "limit" (toString limit) = p :=
    congrArg Params.mk (Fields.insert_of_get?_eq_some h.limit_eq)
  exact ⟨hDistinct, hLimit, hOffset, by rw [hRest, hSame, h.rest_eq]⟩

end Params

------------------------------------------------------------
-- Following links
------------------------------------------------------------

namespace PageLinks

/- The parameters that a link of a page leads to. -/
def follow
    (location : String)
    (total : Nat)
    (pick : PageLinks → String)
    (p : Params) : Option Params :=
  (ofParams? location p total).map fun links =>
    Params.ofLink (pick links)

/- Follow the links of one kind, from page to page. -/
def walk
    (location : String)
    (total : Nat)
    (pick : PageLinks → String) : Nat → Params → Option Params
| 0, p => some p
| n + 1, p =>
    (walk location total pick n p).bind
      (follow location total pick)

variable {total : Nat}
variable {w : PageWindow}
variable {params p : Params}

/- The links of a page lead to the pages of its window. -/
theorem follow_eq
    (hDistinct : Fields.Distinct p.pairs)
    (h : window? p total = some w)
    (location : String) :
    follow location total first p = some (p.atPage w.limit 0) ∧
      follow location total last p =
        some (p.atPage w.limit w.lastOffset) ∧
      follow location total next p =
        some (p.atPage w.limit w.nextOffset) ∧
      follow location total previous p =
        some (p.atPage w.limit w.previousOffset) := by
  have hLink :
      ∀ offset,
        Params.ofLink
            (location ++ "?" ++ (p.atPage w.limit offset).encode) =
          p.atPage w.limit offset := fun offset =>
    Params.ofLink_append
      (Params.at_atPage hDistinct w.limit offset).distinct location
  simp [follow, ofParams?, h, hLink]

/- A number that fits a signed word is read back. -/
theorem number?_toString
    {n : Nat}
    (h : Text.InInt64 n) :
    number? (toString n) = some (n : Int) := by
  have hText : (toString n).toList = Nat.toDigits 10 n := by simp
  have hRead := Text.int64?_toString h
  have hSame : toString (n : Int) = toString n := rfl
  rw [hSame] at hRead
  rw [number?, hText, Text.trim_toDigits, ← hText, hRead]

/- A limit that is cut down already, and its last page. -/
structure Cut
    (total limit last : Nat) : Prop where
  limit_eq : max 1 (min limit total) = limit
  last_eq : last = (total - 1) / limit
  fits : Text.InInt64 total

end PageLinks

namespace Params.At

variable {total limit last k : Nat}
variable {origin p : Params}

/- The window of a page of a walk. -/
theorem window?_eq
    (hCut : PageLinks.Cut total limit last)
    (hPage : k ≤ last)
    (h : At origin limit (k * limit) p) :
    PageLinks.window? p total =
      some (PageWindow.page limit last k) := by
  have hPos : 0 < limit := by
    have := hCut.limit_eq
    omega
  have hLast := hCut.last_eq
  subst hLast
  have hStart : k * limit ≤ total :=
    PageWindow.start_le hPos hPage
  have hSize : Text.InInt64 limit := by
    have hLimit := hCut.limit_eq
    rcases Nat.lt_or_ge total limit with hMore | hLess
    · have hOne : limit = 1 := by omega
      rw [hOne]
      decide
    · exact hCut.fits.of_le hLess
  have hBegin : Text.InInt64 (k * limit : Nat) :=
    hCut.fits.of_le hStart
  have hOffset :
      ((p.get? "offset").bind PageLinks.number?).getD 0 =
        (k * limit : Nat) := by
    rw [h.offset_eq]
    split
    · next hZero => simp [hZero]
    · rw [Option.bind_some,
        PageLinks.number?_toString hBegin, Option.getD_some]
  rw [PageLinks.window?, h.limit_eq, Option.bind_some,
    PageLinks.number?_toString hSize, Option.map_some,
    PageWindow.compute_page hCut.limit_eq hPage hOffset]

/- One step from a page of a walk, along each of its links. -/
theorem follow
    (hCut : PageLinks.Cut total limit last)
    (hPage : k ≤ last)
    (h : At origin limit (k * limit) p)
    (location : String) :
    (∃ q, PageLinks.follow location total PageLinks.first p = some q ∧
        At origin limit 0 q) ∧
      (∃ q, PageLinks.follow location total PageLinks.last p = some q ∧
        At origin limit (last * limit) q) ∧
      (∃ q, PageLinks.follow location total PageLinks.next p = some q ∧
        At origin limit (min (k + 1) last * limit) q) ∧
      ∃ q, PageLinks.follow location total PageLinks.previous p = some q ∧
        At origin limit ((k - 1) * limit) q := by
  rcases PageLinks.follow_eq h.distinct
      (h.window?_eq hCut hPage) location with
    ⟨hFirst, hLast, hNext, hPrevious⟩
  exact
    ⟨⟨_, hFirst, h.atPage _⟩, ⟨_, hLast, h.atPage _⟩,
      ⟨_, hNext, h.atPage _⟩, ⟨_, hPrevious, h.atPage _⟩⟩

/- Steps forward from a page, which end at the last one. -/
theorem walk_next
    (hCut : PageLinks.Cut total limit last)
    (hPage : k ≤ last)
    (h : At origin limit (k * limit) p)
    (location : String)
    (n : Nat) :
    ∃ q, PageLinks.walk location total PageLinks.next n p = some q ∧
      At origin limit (min (k + n) last * limit) q := by
  induction n with
  | zero =>
      rw [Nat.add_zero, Nat.min_eq_left hPage]
      exact ⟨p, rfl, h⟩
  | succ n ih =>
      rcases ih with ⟨q, hWalk, hq⟩
      rcases (hq.follow hCut (Nat.min_le_right _ _)
          location).2.2.1 with
        ⟨r, hStep, hr⟩
      have hSum :
          min (min (k + n) last + 1) last =
            min (k + (n + 1)) last := by
        omega
      rw [hSum] at hr
      exact ⟨r, by rw [PageLinks.walk, hWalk]; exact hStep, hr⟩

/- Steps back from a page, which end at the first one. -/
theorem walk_previous
    (hCut : PageLinks.Cut total limit last)
    (hPage : k ≤ last)
    (h : At origin limit (k * limit) p)
    (location : String)
    (n : Nat) :
    ∃ q, PageLinks.walk location total PageLinks.previous n p = some q ∧
      At origin limit ((k - n) * limit) q := by
  induction n with
  | zero => exact ⟨p, rfl, h⟩
  | succ n ih =>
      rcases ih with ⟨q, hWalk, hq⟩
      rcases (hq.follow hCut (by omega) location).2.2.2 with
        ⟨r, hStep, hr⟩
      have hSum : k - n - 1 = k - (n + 1) := by omega
      rw [hSum] at hr
      exact ⟨r, by rw [PageLinks.walk, hWalk]; exact hStep, hr⟩

end Params.At

------------------------------------------------------------
-- Whole walks
------------------------------------------------------------

namespace PageLinks

/-
  The walks from requested parameters over a listing, where
  `w` is the window of the request:
    * forward from the first page, the walk is at the start of
      one page after the other, and then stays at the last one;
    * this is where the link to the last page leads, from the
      request and from each page;
    * the way back visits the same pages down to the first one;
    * each row is in the window of exactly one page, and no
      window is empty unless the listing is;
    * from any offset before the end, the next page begins no
      more than a window later, and later than the offset
      unless this is in the last page.
-/
structure Traverses
    (location : String)
    (params : Params)
    (total : Nat)
    (w : PageWindow) : Prop where
  forward :
    ∀ n, ∃ p,
      (follow location total first params).bind
          (walk location total next n) = some p ∧
        Params.At params w.limit
          (min n w.lastPage * w.limit) p
  last :
    ∃ p, follow location total last params = some p ∧
      Params.At params w.limit (w.lastPage * w.limit) p
  last_of_forward :
    ∀ n, ∃ p,
      ((follow location total first params).bind
          (walk location total next n)).bind
            (follow location total PageLinks.last) = some p ∧
        Params.At params w.limit (w.lastPage * w.limit) p
  backward :
    ∀ m n, ∃ p,
      ((follow location total first params).bind
          (walk location total next m)).bind
            (walk location total previous n) = some p ∧
        Params.At params w.limit
          ((min m w.lastPage - n) * w.limit) p
  rows :
    ∀ i < total, ∃! k, k ≤ w.lastPage ∧ k * w.limit ≤ i ∧
      i < k * w.limit + w.limit
  nonempty :
    0 < total → ∀ k ≤ w.lastPage, k * w.limit < total
  ahead :
    ∀ o < total,
      ((params.get? "offset").bind number?).getD 0 = (o : Int) →
        ∃ p o', follow location total next params = some p ∧
          Params.At params w.limit o' p ∧ o' ≤ o + w.limit ∧
          (o < o' ∨
            w.lastPage * w.limit ≤ o ∧
              o' = w.lastPage * w.limit)

/- A window of a listing is cut down already. -/
theorem cut_compute
    {total : Nat}
    (hTotal : Text.InInt64 total)
    (limit : Nat)
    (offset : Option Int) :
    Cut total (PageWindow.compute total limit offset).limit
      (PageWindow.compute total limit offset).lastPage where
  limit_eq := by
    rw [PageWindow.limit_compute]
    omega
  last_eq := PageWindow.lastPage_compute _ _ _
  fits := hTotal

/- The walk from the first page of a request. -/
theorem walk_forward
    {params : Params}
    {total : Nat}
    {w : PageWindow}
    (hDistinct : Fields.Distinct params.pairs)
    (hWindow : window? params total = some w)
    (hCut : Cut total w.limit w.lastPage)
    (location : String)
    (n : Nat) :
    ∃ p,
      (follow location total first params).bind
          (walk location total next n) = some p ∧
        Params.At params w.limit (min n w.lastPage * w.limit) p := by
  have hFirst := (follow_eq hDistinct hWindow location).1
  have hStart : Params.At params w.limit (0 * w.limit)
      (params.atPage w.limit 0) := by
    rw [Nat.zero_mul]
    exact Params.at_atPage hDistinct w.limit 0
  rcases hStart.walk_next hCut (Nat.zero_le _) location n with
    ⟨p, hWalk, hp⟩
  rw [Nat.zero_add] at hp
  exact ⟨p, by rw [hFirst, Option.bind_some, hWalk], hp⟩

/-
  Parameters that ask for a limit, of whichever offset, are
  where walks over all pages begin.
-/
theorem traverses
    {params : Params}
    {limit total : Nat}
    (hDistinct : Fields.Distinct params.pairs)
    (hLimit :
      (params.get? "limit").bind number? = some (limit : Int))
    (hTotal : Text.InInt64 total)
    (location : String) :
    ∃ w,
      window? params total = some w ∧
        w.limit = max 1 (min limit total) ∧
        w.offset =
          min
            (((params.get? "offset").bind number?).getD 0).toNat
            total ∧
        Traverses location params total w := by
  have hWindow :
      window? params total =
        some
          (PageWindow.compute total limit
            ((params.get? "offset").bind number?)) := by
    rw [window?, hLimit, Option.map_some]
  have hCut := cut_compute hTotal limit
    ((params.get? "offset").bind number?)
  have hAhead := PageWindow.nextOffset_compute total limit
    ((params.get? "offset").bind number?)
  have hOffset :
      (PageWindow.compute total limit
          ((params.get? "offset").bind number?)).offset =
        min
          (((params.get? "offset").bind number?).getD 0).toNat
          total := rfl
  refine
    ⟨_, hWindow, PageWindow.limit_compute total limit _, hOffset,
      ?_⟩
  generalize
    PageWindow.compute total limit
      ((params.get? "offset").bind number?) = w
    at hWindow hCut hAhead hOffset ⊢
  have hPos : 0 < w.limit := by
    have := hCut.limit_eq
    omega
  have hPage := hCut.last_eq
  rcases follow_eq hDistinct hWindow location with
    ⟨_, hLast, hNext, _⟩
  have hAt := Params.at_atPage hDistinct w.limit
  have hForward := walk_forward hDistinct hWindow hCut location
  constructor
  case forward => exact hForward
  case last => exact ⟨_, hLast, hAt _⟩
  case last_of_forward =>
    intro n
    rcases hForward n with ⟨p, hWalk, hp⟩
    rw [hWalk, Option.bind_some]
    exact (hp.follow hCut (Nat.min_le_right _ _) location).2.1
  case backward =>
    intro m n
    rcases hForward m with ⟨p, hWalk, hp⟩
    rw [hWalk, Option.bind_some]
    exact hp.walk_previous hCut (Nat.min_le_right _ _) location n
  case rows =>
    intro i hi
    rw [hPage]
    exact PageWindow.existsUnique_page hPos hi
  case nonempty =>
    intro hRows k hk
    rw [hPage] at hk
    exact (PageWindow.start_lt_iff hRows hPos).mpr hk
  case ahead =>
    intro o ho hRequest
    have hOwn : w.offset = o := by
      rw [hOffset, hRequest]
      omega
    rw [hOwn] at hAhead
    exact ⟨_, _, hNext, hAt _, hAhead⟩

/- Five rows in pages of two, asked for from the fourth row on. -/
theorem traverses_sample :
    ∃ w,
      window? (.parse "limit=2&offset=3&fields=name") 5 = some w ∧
        w.limit = 2 ∧ w.lastPage = 2 ∧
        Traverses "/notes" (.parse "limit=2&offset=3&fields=name")
          5 w := by
  have hDistinct :=
    Params.distinct_parse "limit=2&offset=3&fields=name"
  have hLimit :
      (Params.get? (.parse "limit=2&offset=3&fields=name")
          "limit").bind number? =
        some ((2 : Nat) : Int) := by
    decide +kernel
  rcases traverses hDistinct hLimit
      (by decide : Text.InInt64 (5 : Nat)) "/notes" with
    ⟨w, hWindow, hLimit, _, hWalks⟩
  have hLast : w.lastPage = 2 := by
    cases hWindow
    rfl
  exact ⟨w, hWindow, hLimit, hLast, hWalks⟩

end PageLinks

end RelationalRest
