import RelationalRest.Listing.Building
import RelationalRest.Request
import RelationalRest.Text.Blank

/-
  This file defines paging by the parameters `limit` and
  `offset`, and the links from a page to others.

  Pages are counted from the start of the listing.  A window
  has at least one row; the last page of a listing that the
  limit divides is the one before the empty page.

  Key definitions include:
    * `Paging.apply`
    * `PageWindow`
    * `PageWindow.compute`
    * `PageLinks`
    * `PageLinks.ofParams?`
-/

namespace RelationalRest

------------------------------------------------------------
-- The page of a query
------------------------------------------------------------

namespace Paging

/- The number that a parameter writes, of those a query can hold. -/
def bound? (s : String) : Option Nat :=
  Text.nat64? (Text.trim s.toList)

/- Set the offset; a quiet one that is no number is passed over. -/
def applyOffset
    (params : Params)
    (quiet : Bool)
    (q : Sql.Query) : Building :=
  match params.get? "offset" with
  | none => .ok q
  | some s =>
      match bound? s with
      | some n => .ok { q with offset := some n }
      | none => if quiet then .ok q else .stop q (.invalidOffset s)

/-
  Set the limit and then the offset; without a limit there is
  no page.
-/
def apply
    (params : Params)
    (quiet : Bool)
    (q : Sql.Query) : Building :=
  match params.get? "limit" with
  | none => .ok q
  | some s =>
      match bound? s with
      | some n =>
          applyOffset params quiet { q with limit := some n }
      | none => if quiet then .ok q else .stop q (.invalidLimit s)

end Paging

------------------------------------------------------------
-- Windows
------------------------------------------------------------

/-
  The rows of a page in a listing: their bound, the offset of
  the first, the number of the page and that of the last one,
  both from zero.
-/
structure PageWindow where
  limit : Nat
  offset : Nat
  currentPage : Nat
  lastPage : Nat
deriving DecidableEq, Repr

namespace PageWindow

/-
  The window of a requested limit and offset in a listing of
  `total` rows.  A negative limit means one row and a negative
  offset means the start.
-/
def compute
    (total : Nat)
    (limit : Int)
    (offset : Option Int) : PageWindow :=
  let limit :=
    max 1 (if limit < 0 then 1 else min limit.toNat total)
  let offset := min (offset.getD 0).toNat total
  { limit
    offset
    currentPage := offset / limit
    lastPage :=
      if total % limit = 0 then total / limit - 1
      else total / limit }

/- The offset of the last page. -/
def lastOffset (w : PageWindow) : Nat :=
  w.lastPage * w.limit

/- The offset of the page after this one, if there is one. -/
def nextOffset (w : PageWindow) : Nat :=
  min (w.currentPage + 1) w.lastPage * w.limit

/- The offset of the page before this one, if there is one. -/
def previousOffset (w : PageWindow) : Nat :=
  (w.currentPage - 1) * w.limit

end PageWindow

------------------------------------------------------------
-- Links
------------------------------------------------------------

/- The parameters of another page. -/
def Params.atPage
    (p : Params)
    (limit offset : Nat) : Params :=
  let p := p.set "limit" (toString limit)
  if offset = 0 then
    p.remove "offset"
  else
    p.set "offset" (toString offset)

/- The links from a page. -/
structure PageLinks where
  first : String
  last : String
  next : String
  previous : String
deriving DecidableEq, Repr

namespace PageLinks

/- The number that a parameter writes, of those a window can hold. -/
def number? (s : String) : Option Int :=
  Text.int64? (Text.trim s.toList)

/- The window that parameters ask for, if they give a limit. -/
def window?
    (params : Params)
    (total : Nat) : Option PageWindow :=
  ((params.get? "limit").bind number?).map fun limit =>
    PageWindow.compute total limit
      ((params.get? "offset").bind number?)

/- The links from the page that parameters ask for. -/
def ofParams?
    (location : String)
    (params : Params)
    (total : Nat) : Option PageLinks :=
  (window? params total).map fun w =>
    let link (offset : Nat) :=
      location ++ "?" ++ (params.atPage w.limit offset).encode
    { first := link 0
      last := link w.lastOffset
      next := link w.nextOffset
      previous := link w.previousOffset }

end PageLinks

end RelationalRest
