import Mathlib.Data.List.Basic
import RelationalRest.Proofs.Record.Owner
import RelationalRest.Proofs.Record.Stripping

/-
  Where the cells of a row go in its envelope.

  A cell goes to a spot that its name decides alone: a name at
  the top, or a column under a label.  It changes what is found
  at the name of its spot and nothing else, and values of
  different spots are stored in any order, unless one takes the
  place of the object that holds the other.

  Key definitions include:
    * `Resource.Spot`
    * `Resource.Spot.settle`
    * `Resource.spot`
    * `Json.AlikeBut`
    * `Resource.Tidy`

  Main declarations:
    * `Resource.place_eq`
    * `Resource.Spot.alikeBut_settle_swap`
    * `Json.AlikeBut.without_iff`
    * `Resource.Tidy.envelope`
-/

namespace RelationalRest

------------------------------------------------------------
-- Spots
------------------------------------------------------------

namespace Resource

/- A place in an envelope. -/
inductive Spot where
| top (name : String)
| under (label column : String)
deriving DecidableEq

namespace Spot

/- The name at the top of an envelope where a spot lies. -/
def name : Spot → String
| .top name => name
| .under label _ => label

/- What a value makes of what is found at the name of a spot. -/
def settle (s : Spot) (v : Json) : Option Json → Json :=
  match s with
  | .top _ => fun _ => v
  | .under _ column => fun
    | none => .object [(column, v)]
    | some (.object members) =>
        .object (Fields.insert members column v)
    | some held => held

end Spot

/- The spot of a cell. -/
def spot (r : Resource) (cell : String) : Spot :=
  match r.owner? cell with
  | none => .top cell
  | some (owner, column) =>
      if owner = r.table.name then .top column
      else .under owner column

variable {r : Resource}

/- A cell changes what is found at the name of its spot. -/
theorem place_eq
    (envelope : Fields Json)
    (cell : String)
    (v : Json) :
    r.place envelope (cell, v) =
      Fields.insert envelope (r.spot cell).name
        ((r.spot cell).settle v
          (Fields.get? envelope (r.spot cell).name)) := by
  unfold place spot
  cases r.owner? cell with
  | none => rfl
  | some found =>
      obtain ⟨owner, column⟩ := found
      by_cases hOwner : owner = r.table.name
      · simp [hOwner, Spot.name, Spot.settle]
      · simp only [hOwner, if_false, Spot.name, Spot.settle, nest]
        cases hFound : Fields.get? envelope owner with
        | none => rfl
        | some held =>
            have hSame := Fields.insert_of_get?_eq_some hFound
            cases held <;> first | rfl | exact hSame.symm

/- What is found after a cell is placed. -/
theorem get?_place
    (envelope : Fields Json)
    (cell : String)
    (v : Json)
    (name : String) :
    Fields.get? (r.place envelope (cell, v)) name =
      if name = (r.spot cell).name then
        some ((r.spot cell).settle v (Fields.get? envelope name))
      else Fields.get? envelope name := by
  rw [place_eq, Fields.get?_insert]
  by_cases hName : name = (r.spot cell).name
  · simp [hName]
  · simp [hName]

/- The cell of a spot. -/
def Spot.cell (r : Resource) : Spot → String
| .top name => r.table.name ++ "_" ++ name
| .under label column => label ++ "_" ++ column

/- A cell that a table or label opens is the one of its spot. -/
theorem cell_spot
    {cell owner column : String}
    (hOwner : owner ∈ r.owners)
    (hCell : cell = owner ++ "_" ++ column) :
    (r.spot cell).cell r = cell := by
  rcases exists_owner? hOwner hCell with ⟨⟨found, rest⟩, hFound⟩
  have hOpens := (owner?_eq_some hFound).2.1
  unfold spot
  rw [hFound]
  by_cases hRoot : found = r.table.name
  · simp [hRoot, Spot.cell, hOpens]
  · simp [hRoot, Spot.cell, hOpens]

/- A column that nothing captures goes where it belongs. -/
theorem spot_resultName
    {col : Sql.Column}
    (hQualifier : col.qualifier ∈ r.owners)
    (hFree : ¬ r.Captures col) :
    r.spot col.resultName =
      if col.qualifier = r.table.name then .top col.name
      else .under col.qualifier col.name := by
  unfold spot
  rw [owner?_resultName hQualifier hFree]

end Resource

------------------------------------------------------------
-- Alike values
------------------------------------------------------------

/- Values that differ in members of given names at most. -/
def Json.AlikeBut
    (names : List String)
    (v w : Option Json) : Prop :=
  v = w ∨
    ∃ members members',
      v = some (.object members) ∧ w = some (.object members') ∧
        ∀ name, name ∉ names →
          Fields.get? members name = Fields.get? members' name

namespace Json.AlikeBut

variable {names : List String}
variable {u v w : Option Json}

theorem symm
    (h : AlikeBut names v w) :
    AlikeBut names w v := by
  rcases h with rfl | ⟨members, members', hv, hw, hSame⟩
  · exact .inl rfl
  · exact .inr ⟨members', members, hw, hv,
      fun name hName => (hSame name hName).symm⟩

theorem trans
    (h : AlikeBut names u v)
    (h' : AlikeBut names v w) :
    AlikeBut names u w := by
  rcases h with rfl | ⟨a, b, rfl, rfl, hLeft⟩
  · exact h'
  · rcases h' with rfl | ⟨b', d, hb, rfl, hRight⟩
    · exact .inr ⟨a, b, rfl, rfl, hLeft⟩
    · cases hb
      exact .inr ⟨a, d, rfl, rfl, fun name hName =>
        (hLeft name hName).trans (hRight name hName)⟩

/- What alike objects have under a name that is not given. -/
theorem get?_eq
    {members members' : Fields Json}
    (h : AlikeBut names (some (.object members))
      (some (.object members')))
    {name : String}
    (hName : name ∉ names) :
    Fields.get? members name = Fields.get? members' name := by
  rcases h with h | ⟨_, _, hv, hw, hSame⟩
  · cases h
    rfl
  · cases hv
    cases hw
    exact hSame name hName

/- Alike objects stay alike where the same value is stored. -/
theorem insert
    {members members' : Fields Json}
    {column : String}
    {v v' : Json}
    (hValue : v = v' ∨ column ∈ names)
    (h : AlikeBut names (some (.object members))
      (some (.object members'))) :
    AlikeBut names
      (some (.object (Fields.insert members column v)))
      (some (.object (Fields.insert members' column v'))) := by
  refine .inr ⟨_, _, rfl, rfl, fun name hName => ?_⟩
  rw [Fields.get?_insert, Fields.get?_insert, h.get?_eq hName]
  rcases hValue with rfl | hMem
  · rfl
  · have hColumn : name ≠ column := by
      rintro rfl
      exact hName hMem
    rw [if_neg hColumn, if_neg hColumn]

/- Values without names are the same if they are alike but for them. -/
theorem without_iff
    {v w : Option Json}
    (hv : ∀ members, v = some (.object members) →
      Fields.Distinct members)
    (hw : ∀ members, w = some (.object members) →
      Fields.Distinct members) :
    AlikeBut [] (v.map (Json.without · names))
        (w.map (Json.without · names)) ↔
      AlikeBut names v w := by
  rcases v with _ | v <;> rcases w with _ | w
  · simp [AlikeBut]
  · simp [AlikeBut]
  · simp [AlikeBut]
  · cases v <;> cases w
    case object.object members members' =>
      have hFound :
          ∀ name,
            Fields.get? (Fields.without members names) name =
                Fields.get? (Fields.without members' names) name ↔
              (name ∉ names →
                Fields.get? members name =
                  Fields.get? members' name) := by
        intro name
        rw [Fields.get?_without (hv _ rfl),
          Fields.get?_without (hw _ rfl)]
        by_cases hName : name ∈ names
        · simp [hName]
        · simp [hName]
      constructor
      · intro h
        exact .inr ⟨_, _, rfl, rfl, fun name =>
          (hFound name).mp (h.get?_eq List.not_mem_nil)⟩
      · intro h
        exact .inr ⟨_, _, rfl, rfl, fun name _ =>
          (hFound name).mpr h.get?_eq⟩
    all_goals simp [AlikeBut, Json.without]

end Json.AlikeBut

namespace Resource.Spot

open Json (AlikeBut)

variable {names : List String}
variable {label column : String}
variable {v v' : Json}
variable {held held' : Option Json}

/- Alike values stay alike where the same value joins them. -/
theorem alikeBut_settle
    (hValue : v = v' ∨ column ∈ names)
    (h : AlikeBut names held held') :
    AlikeBut names
      (some ((Spot.under label column).settle v held))
      (some ((Spot.under label column).settle v' held')) := by
  rcases h with rfl | ⟨members, members', rfl, rfl, hSame⟩
  · cases held with
    | none =>
        exact AlikeBut.insert hValue
          (.inl (rfl : some (Json.object []) = _))
    | some w =>
        cases w with
        | object members => exact AlikeBut.insert hValue (.inl rfl)
        | _ => exact .inl rfl
  · exact AlikeBut.insert hValue (.inr ⟨_, _, rfl, rfl, hSame⟩)

/- Values join different columns of a label in any order. -/
theorem alikeBut_settle_comm
    {other : String}
    (hOther : column ≠ other)
    (v w : Json)
    (held : Option Json) :
    AlikeBut names
      (some ((Spot.under label other).settle w
        (some ((Spot.under label column).settle v held))))
      (some ((Spot.under label column).settle v
        (some ((Spot.under label other).settle w held)))) := by
  have hInsert :
      ∀ (members : Fields Json) (name : String),
        Fields.get?
            (Fields.insert (Fields.insert members column v)
              other w) name =
          Fields.get?
            (Fields.insert (Fields.insert members other w)
              column v) name := by
    intro members name
    simp only [Fields.get?_insert]
    by_cases hName : name = other
    · simp [hName, hOther.symm]
    · simp [hName]
  cases held with
  | none => exact .inr ⟨_, _, rfl, rfl, fun n _ => hInsert [] n⟩
  | some held =>
      cases held with
      | object members =>
          exact .inr ⟨_, _, rfl, rfl, fun n _ => hInsert members n⟩
      | _ => exact .inl rfl

/- A value that joins a column of a given name is not seen. -/
theorem alikeBut_settle_self
    (hColumn : column ∈ names)
    (v held : Json) :
    AlikeBut names
      (some ((Spot.under label column).settle v (some held)))
      (some held) := by
  cases held with
  | object members =>
      refine .inr ⟨_, _, rfl, rfl, fun name hName => ?_⟩
      refine Fields.get?_insert_of_ne members v ?_
      rintro rfl
      exact hName hColumn
  | _ => exact .inl rfl

/-
  Values of different spots at one name are stored in any
  order, if a column under the name is not seen where a value
  takes the place of its object.
-/
theorem alikeBut_settle_swap
    {s t : Spot}
    (hName : s.name = t.name)
    (hSpots : s ≠ t)
    (hApart :
      ∀ label column, s = .top label → t = .under label column →
        column ∈ names)
    (hApart' :
      ∀ label column, t = .top label → s = .under label column →
        column ∈ names)
    (v w : Json)
    (held : Option Json) :
    AlikeBut names
      (some (t.settle w (some (s.settle v held))))
      (some (s.settle v (some (t.settle w held)))) := by
  cases s with
  | top name =>
      cases t with
      | top name' =>
          exact absurd (congrArg Spot.top hName) hSpots
      | under label column =>
          have hLabel : name = label := hName
          subst hLabel
          exact alikeBut_settle_self (hApart _ _ rfl rfl) w v
  | under label column =>
      cases t with
      | top name =>
          have hLabel : label = name := hName
          subst hLabel
          exact (alikeBut_settle_self (hApart' _ _ rfl rfl) v w).symm
      | under label' other =>
          have hLabel : label = label' := hName
          subst hLabel
          refine alikeBut_settle_comm ?_ v w held
          rintro rfl
          exact hSpots rfl

/- Under a label that has an object or nothing, values are kept. -/
theorem exists_settle
    (label column : String)
    (hHeld : ∀ v, held = some v → ∃ members, v = .object members) :
    ∃ members : Fields Json, ∀ v,
      (Spot.under label column).settle v held =
        .object (Fields.insert members column v) := by
  cases held with
  | none => exact ⟨[], fun _ => rfl⟩
  | some v =>
      rcases hHeld v rfl with ⟨members, rfl⟩
      exact ⟨members, fun _ => rfl⟩

end Resource.Spot

------------------------------------------------------------
-- Tidy envelopes
------------------------------------------------------------

/- Names are distinct in an envelope and in its objects. -/
structure Resource.Tidy (e : Fields Json) : Prop where
  distinct : e.Distinct
  members :
    ∀ name members, Fields.get? e name = some (.object members) →
      Fields.Distinct members

namespace Resource.Tidy

variable {r : Resource}
variable {e : Fields Json}

/- Placing a cell keeps names distinct. -/
theorem place
    {cell : String}
    {v : Json}
    (hCell : ∀ members, v = .object members →
      Fields.Distinct members)
    (h : Tidy e) :
    Tidy (r.place e (cell, v)) := by
  refine ⟨?_, ?_⟩
  · rw [place_eq]
    exact h.distinct.insert _ _
  · intro name members hFound
    rw [get?_place] at hFound
    by_cases hSpot : name = (r.spot cell).name
    · rw [if_pos hSpot, Option.some.injEq] at hFound
      have hHeld := h.members name
      generalize Fields.get? e name = held at hFound hHeld
      cases hs : r.spot cell with
      | top n =>
          rw [hs] at hFound
          exact hCell members hFound
      | under label column =>
          rw [hs] at hFound
          cases held with
          | none =>
              cases hFound
              simp [Fields.Distinct, Fields.keys]
          | some held =>
              cases held with
              | object members' =>
                  cases hFound
                  exact (hHeld members' rfl).insert column v
              | _ => cases hFound
    · rw [if_neg hSpot] at hFound
      exact h.members name members hFound

/- The envelope of a row is tidy. -/
theorem envelope
    {row : Row}
    (hRow : ∀ name members, (name, .object members) ∈ row →
      Fields.Distinct members) :
    Tidy (r.envelope row) := by
  refine List.foldlRecOn row r.place ⟨?_, ?_⟩ ?_
  · simp [Fields.Distinct, Fields.keys]
  · intro name members hFound
    cases hFound
  · rintro e h ⟨name, v⟩ hCell
    refine h.place ?_
    rintro members rfl
    exact hRow name members hCell

end Resource.Tidy

end RelationalRest
