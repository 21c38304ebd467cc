import Mathlib.Tactic.ByContra
import RelationalRest.Proofs.Listing.Window
import RelationalRest.Proofs.Text.Numeral

/-
  The links of a page and the query for its rows, which read
  the same two parameters by themselves.  A query holds any
  unsigned number of 64 bits, and a window signed ones only;
  the two agree exactly where the numbers of the query fit
  both.

  Key definitions include:
    * `PageLinks.Agree`

  Main declarations:
    * `Paging.limit_of_apply`
    * `PageLinks.number?_of_bound?`
    * `PageLinks.agree_iff`
    * `PageLinks.exists_disagree`
-/

namespace RelationalRest

variable {params : Params}
variable {q q' : Sql.Query}
variable {total : Nat}
variable {location : String}

------------------------------------------------------------
-- The numbers of a query
------------------------------------------------------------

namespace Paging

/- The offset of a query is the number of the parameter. -/
theorem offset_of_applyOffset
    (hFresh : q.offset = none)
    (h : applyOffset params false q = .ok q') :
    q'.limit = q.limit ∧
      q'.offset = (params.get? "offset").bind bound? ∧
      (q'.offset = none → params.get? "offset" = none) := by
  unfold applyOffset at h
  cases hOffset : params.get? "offset" with
  | none =>
      simp only [hOffset] at h
      cases h
      exact ⟨rfl, hFresh, fun _ => rfl⟩
  | some s =>
      simp only [hOffset] at h
      cases hNumber : bound? s with
      | none => simp [hNumber, Building.stop, Building.ok] at h
      | some n =>
          simp only [hNumber] at h
          cases h
          refine ⟨rfl, hNumber.symm, fun hNone => ?_⟩
          cases hNone

/-
  A query that is paged has no page, where no limit is asked
  for, and else the numbers of both parameters.
-/
theorem limit_of_apply
    (hLimit : q.limit = none)
    (hOffset : q.offset = none)
    (h : apply params false q = .ok q') :
    (params.get? "limit" = none ∧ q'.limit = none ∧
        q'.offset = none) ∨
      ∃ s n, params.get? "limit" = some s ∧ bound? s = some n ∧
        q'.limit = some n ∧
        q'.offset = (params.get? "offset").bind bound? ∧
        (q'.offset = none → params.get? "offset" = none) := by
  unfold apply at h
  cases hText : params.get? "limit" with
  | none =>
      simp only [hText] at h
      cases h
      exact .inl ⟨rfl, hLimit, hOffset⟩
  | some s =>
      simp only [hText] at h
      cases hNumber : bound? s with
      | none => simp [hNumber, Building.stop, Building.ok] at h
      | some n =>
          simp only [hNumber] at h
          have hFresh :
              ({ q with limit := some n } : Sql.Query).offset =
                none := hOffset
          rcases offset_of_applyOffset hFresh h with
            ⟨hKept, hRest⟩
          exact .inr ⟨s, n, rfl, hNumber, hKept, hRest⟩

end Paging

------------------------------------------------------------
-- The numbers of links
------------------------------------------------------------

namespace PageLinks

/- A number that a query can hold is one for a window if it fits. -/
theorem number?_of_bound?
    {s : String}
    {n : Nat}
    (h : Paging.bound? s = some n) :
    number? s =
      if Text.InInt64 n then some (n : Int) else none :=
  Text.int64?_of_nat64? h

/-
  Links agree with the query for a page: there are links just
  if a limit is asked for, and the window that they start from
  is that of the limit and the offset of the query.
-/
structure Agree
    (location : String)
    (params : Params)
    (q : Sql.Query)
    (total : Nat) : Prop where
  links :
    (ofParams? location params total).isSome = true ↔
      params.contains "limit" = true
  window :
    params.contains "limit" = true →
      ∃ w n,
        window? params total = some w ∧ q.limit = some n ∧
          w.limit = max 1 (min n total) ∧
          w.offset = min (q.offset.getD 0) total

/- There are links where there is a window. -/
theorem isSome_ofParams? :
    (ofParams? location params total).isSome =
      (window? params total).isSome := by
  simp [ofParams?]

/- The window of a query with a limit that fits a signed word. -/
theorem window?_of_limit
    {s : String}
    {n : Nat}
    (hText : params.get? "limit" = some s)
    (hNumber : Paging.bound? s = some n)
    (hFits : Text.InInt64 n)
    (total : Nat) :
    window? params total =
      some
        (PageWindow.compute total n
          ((params.get? "offset").bind number?)) := by
  simp [window?, hText, number?_of_bound? hNumber, hFits]

/- The offset of a window, by that of the query. -/
theorem offset_compute
    (limit : Int)
    (h : q.offset = (params.get? "offset").bind Paging.bound?)
    (hNone : q.offset = none → params.get? "offset" = none) :
    (PageWindow.compute total limit
        ((params.get? "offset").bind number?)).offset =
      if ∀ m ∈ q.offset, Text.InInt64 m then
        min (q.offset.getD 0) total
      else 0 := by
  cases hText : params.get? "offset" with
  | none =>
      rw [hText] at h
      simp [h, PageWindow.compute]
  | some s =>
      rw [hText] at h
      cases hNumber : Paging.bound? s with
      | none =>
          have hMissing := hNone (by simpa [hNumber] using h)
          rw [hText] at hMissing
          cases hMissing
      | some m =>
          have hOffset : q.offset = some m := by
            simpa [hNumber] using h
          by_cases hFits : Text.InInt64 m
          · simp [hOffset, number?_of_bound? hNumber, hFits,
              PageWindow.compute]
          · simp [hOffset, number?_of_bound? hNumber, hFits,
              PageWindow.compute]

/- Nothing is agreed on where no limit is asked for. -/
theorem agree_of_get?_eq_none
    (h : params.get? "limit" = none) :
    Agree location params q total where
  links := by
    simp [isSome_ofParams?, window?, Params.contains_eq, h]
  window := by
    simp [Params.contains_eq, h]

/- An offset beyond the signed words is not cut down to none. -/
theorem exists_offset_of_not_fits
    (h : ¬ ∀ m ∈ q.offset, Text.InInt64 m) :
    0 < q.offset.getD 0 := by
  simp only [not_forall] at h
  rcases h with ⟨m, hOffset, hFits⟩
  rw [Option.mem_def.mp hOffset, Option.getD_some]
  by_contra hZero
  have hZero : m = 0 := by omega
  subst hZero
  exact hFits (by decide)

/-
  The links agree with a query that was paged exactly if its
  limit fits a signed word, and its offset as well unless there
  are no rows.
-/
theorem agree_iff
    (hLimit : q.limit = none)
    (hOffset : q.offset = none)
    (h : Paging.apply params false q = .ok q')
    (location : String)
    (total : Nat) :
    Agree location params q' total ↔
      ∀ n ∈ q'.limit,
        Text.InInt64 n ∧
          (total = 0 ∨ ∀ m ∈ q'.offset, Text.InInt64 m) := by
  rcases Paging.limit_of_apply hLimit hOffset h with
    ⟨hAbsent, hNone, _⟩ |
    ⟨s, n, hText, hNumber, hFound, hBegin, hMissing⟩
  · constructor
    · intro _ n hn
      simp [hNone] at hn
    · intro _
      exact agree_of_get?_eq_none hAbsent
  have hContains : params.contains "limit" = true := by
    simp [Params.contains_eq, hText]
  constructor
  · intro hAgree n' hn'
    cases Option.some_inj.mp (hn'.symm.trans hFound)
    rcases hAgree.window hContains with
      ⟨w, _, hWindow, _, _, hStart⟩
    have hFits : Text.InInt64 n := by
      by_contra hFits
      simp [window?, hText, number?_of_bound? hNumber, hFits]
        at hWindow
    refine ⟨hFits, ?_⟩
    rw [window?_of_limit hText hNumber hFits] at hWindow
    cases hWindow
    rw [offset_compute n hBegin hMissing] at hStart
    by_cases hAll : ∀ m ∈ q'.offset, Text.InInt64 m
    · exact .inr hAll
    · have hPos := exists_offset_of_not_fits hAll
      rw [if_neg hAll] at hStart
      exact .inl (by omega)
  · intro hFits
    rcases hFits n hFound with ⟨hFits, hAll⟩
    have hWindow :=
      window?_of_limit hText hNumber hFits total
    refine
      ⟨by simp [isSome_ofParams?, hWindow, hContains], fun _ =>
        ⟨_, n, hWindow, hFound,
          PageWindow.limit_compute total n _, ?_⟩⟩
    rw [offset_compute n hBegin hMissing]
    rcases hAll with rfl | hAll
    · simp
    · rw [if_pos hAll]

/- A page of ten rows out of twenty, from the sixth on. -/
theorem agree_iff_sample :
    ({ root := { name := "note" } } : Sql.Query).limit = none ∧
      ∃ q' : Sql.Query,
        Paging.apply (.parse "limit=+10&offset=5") false
            { root := { name := "note" } } = .ok q' ∧
          q'.limit = some 10 ∧ q'.offset = some 5 ∧
          Agree "/notes" (.parse "limit=+10&offset=5") q' 20 := by
  refine ⟨rfl, _, rfl, rfl, rfl, ?_⟩
  rw [agree_iff rfl rfl rfl]
  intro n hn
  cases hn
  refine ⟨by decide, .inr ?_⟩
  intro m hm
  cases hm
  decide

end PageLinks

/-
  A limit and an offset that only an unsigned word holds: the
  first has no links, and the second leads to the first page.
-/
theorem PageLinks.exists_disagree :
    ∃ q q' : Sql.Query,
      Paging.apply (.parse "limit=9223372036854775808") false
          { root := { name := "note" } } = .ok q ∧
        q.limit = some 9223372036854775808 ∧
        ofParams? "/notes" (.parse "limit=9223372036854775808") 5 =
          none ∧
        Paging.apply
            (.parse "limit=2&offset=9223372036854775808") false
            { root := { name := "note" } } = .ok q' ∧
        q'.offset = some 9223372036854775808 ∧
        ∃ w,
          window? (.parse "limit=2&offset=9223372036854775808") 5 =
              some w ∧
            w.offset = 0 ∧ min 9223372036854775808 5 ≠ w.offset := by
  refine ⟨_, _, rfl, rfl, rfl, rfl, rfl, _, rfl, rfl, by decide⟩

end RelationalRest
