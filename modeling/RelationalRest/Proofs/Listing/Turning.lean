import RelationalRest.Proofs.Listing.Walk

/-
  Links change nothing but the page.  What stands in a link
  after the location and the question mark is read as the
  parameters of the request with another limit and offset;
  all others keep their values and their order.

  Key definitions include:
    * `Params.others`
    * `Params.Turned`
    * `PageLinks.LeadsTo`
    * `PageLinks.Turns`

  Main declarations:
    * `Params.turned_atPage`
    * `PageLinks.leadsTo_link`
    * `PageLinks.limit_of_window?`
    * `PageLinks.turns_pages`
-/

namespace RelationalRest

------------------------------------------------------------
-- Parameters of another page
------------------------------------------------------------

namespace Params

variable {params : Params}

/- A parameter that says nothing about the page. -/
def isOther (name : String) : Bool :=
  name ≠ "limit" && name ≠ "offset"

/- The parameters that say nothing about the page, in order. -/
def others (p : Params) : Fields String :=
  p.pairs.filter fun pair => isOther pair.1

/-
  Parameters that differ from the origin by the page that they
  ask for, and in nothing else.
-/
structure Turned
    (origin : Params)
    (limit offset : Nat)
    (p : Params) : Prop extends At origin limit offset p where
  others_eq : p.others = origin.others

/- The parameters of another page differ by the page alone. -/
theorem turned_atPage
    (h : Fields.Distinct params.pairs)
    (limit offset : Nat) :
    Turned params limit offset (params.atPage limit offset) := by
  have hLimit : isOther "limit" = false := by decide
  have hOffset : isOther "offset" = false := by decide
  refine ⟨at_atPage h limit offset, ?_⟩
  unfold atPage others
  dsimp only
  split
  · exact
      (Fields.filter_erase _ hOffset).trans
        (Fields.filter_insert _ hLimit _)
  · exact
      (Fields.filter_insert _ hOffset _).trans
        (Fields.filter_insert _ hLimit _)

end Params

------------------------------------------------------------
-- Links to other pages
------------------------------------------------------------

namespace PageLinks

variable {params : Params}
variable {total : Nat}
variable {w : PageWindow}

/-
  What stands in a link after the location and the question
  mark is read as the parameters of the page at an offset.
-/
def LeadsTo
    (location : String)
    (params : Params)
    (limit offset : Nat)
    (link : String) : Prop :=
  ∃ query,
    Text.after? (location ++ "?") link = some query ∧
      Params.Turned params limit offset (Params.parse query)

/- The links from a page lead to the pages of its window. -/
structure Turns
    (location : String)
    (params : Params)
    (w : PageWindow)
    (links : PageLinks) : Prop where
  first : LeadsTo location params w.limit 0 links.first
  last : LeadsTo location params w.limit w.lastOffset links.last
  next : LeadsTo location params w.limit w.nextOffset links.next
  previous :
    LeadsTo location params w.limit w.previousOffset links.previous

/- A link that is made for an offset leads to its page. -/
theorem leadsTo_link
    (h : Fields.Distinct params.pairs)
    (location : String)
    (limit offset : Nat) :
    LeadsTo location params limit offset
      (location ++ "?" ++ (params.atPage limit offset).encode) := by
  have hTurned := Params.turned_atPage h limit offset
  refine ⟨_, Text.after?_eq_some_iff.mpr rfl, ?_⟩
  rw [Params.parse_encode hTurned.distinct]
  exact hTurned

/- The limit of a window is the requested one, cut down. -/
theorem limit_of_window?
    (h : window? params total = some w) :
    ∃ limit : Int,
      (params.get? "limit").bind number? = some limit ∧
        w.limit = max 1 (min limit.toNat total) := by
  rcases Option.map_eq_some_iff.mp h with ⟨limit, hLimit, hWindow⟩
  refine ⟨limit, hLimit, ?_⟩
  rw [← hWindow]
  simp only [PageWindow.compute]
  split
  · omega
  · rfl

/-
  Parameters are read back from their query text, and so are
  those of every link: from a request with a limit they differ
  by the limit, which is cut down, and by the offset of the
  link, which is left out where it is zero.
-/
theorem turns_pages
    (hDistinct : Fields.Distinct params.pairs)
    (baseUrl path : String)
    (total : Nat) :
    Params.parse params.encode = params ∧
      ∀ links,
        ofParams? (baseUrl ++ path) params total = some links →
          ∃ w limit,
            window? params total = some w ∧
              (params.get? "limit").bind number? = some limit ∧
              w.limit = max 1 (min limit.toNat total) ∧
              Turns (baseUrl ++ path) params w links := by
  refine ⟨Params.parse_encode hDistinct, ?_⟩
  intro links hLinks
  rcases Option.map_eq_some_iff.mp hLinks with ⟨w, hWindow, hMade⟩
  rcases limit_of_window? hWindow with ⟨limit, hLimit, hCut⟩
  refine ⟨w, limit, hWindow, hLimit, hCut, ?_⟩
  have hLink := leadsTo_link hDistinct (baseUrl ++ path) w.limit
  rw [← hMade]
  exact
    { first := hLink 0
      last := hLink w.lastOffset
      next := hLink w.nextOffset
      previous := hLink w.previousOffset }

/-
  A filter with reserved and non-ASCII characters, and a
  parameter without a name, on the second page of three.
-/
theorem turns_pages_sample :
    ∃ (params : Params) (links : PageLinks) (w : PageWindow),
      params.pairs =
          [("name", "a&b=ü%41+ c"), ("limit", "2"),
            ("", ""), ("offset", "2")] ∧
        Fields.Distinct params.pairs ∧
        ofParams? ("http://localhost:3000" ++ "/notes") params 5 =
          some links ∧
        links.first =
          "http://localhost:3000/notes?" ++
            "name=a%26b%3D%C3%BC%2541%2B+c&limit=2&=" ∧
        Params.parse params.encode = params ∧
        window? params 5 = some w ∧ w.limit = 2 ∧
        w.nextOffset = 4 ∧
        Turns ("http://localhost:3000" ++ "/notes") params w
          links := by
  have hDistinct :
      Fields.Distinct
        (Params.mk
          [("name", "a&b=ü%41+ c"), ("limit", "2"), ("", ""),
            ("offset", "2")]).pairs := by
    decide
  rcases turns_pages hDistinct
      "http://localhost:3000" "/notes" 5 with
    ⟨hBack, hLinks⟩
  rcases hLinks _ rfl with ⟨w, limit, hWindow, _, _, hTurns⟩
  cases hWindow
  exact
    ⟨_, _, _, rfl, hDistinct, rfl, rfl, hBack, rfl, rfl, rfl,
      hTurns⟩

end PageLinks

end RelationalRest
