import Mathlib.Data.List.Dedup
import RelationalRest.Proofs.Record.Placement
import RelationalRest.Proofs.Record.Reconstruction

/-
  What an envelope tells of hidden columns.

  Two rows that differ in the cells of hidden columns only
  have the same envelope without hidden fields exactly when
  every such cell goes to a spot that is removed, and when no
  two spots that are kept stand in each other's way.

  Key definitions include:
    * `Catalog.Hides`
    * `Catalog.Strips`
    * `Catalog.Conceals`
    * `Catalog.Discreet`
    * `Catalog.Shows`

  Main declarations:
    * `Catalog.Shows.place`
    * `Catalog.Shows.envelope`
    * `Catalog.conceals_iff_discreet`
    * `Catalog.Resolved.conceals_iff`
-/

namespace RelationalRest

------------------------------------------------------------
-- Hidden columns
------------------------------------------------------------

namespace Catalog

open Resource (Spot)

/-
  A catalog hides a column of a resource: one of its table
  that the resource hides, or one of a relation that the
  related resource hides.
-/
def Hides
    (c : Catalog)
    (r : Resource)
    (col : Sql.Column) : Prop :=
  if col.qualifier = r.table.name then col.name ∈ r.hidden
  else col.name ∈ c.hiddenUnder r col.qualifier

instance (c : Catalog) (r : Resource) (col : Sql.Column) :
    Decidable (c.Hides r col) := by
  unfold Hides
  infer_instance

/- Spots that are gone when hidden fields are removed. -/
def Strips (c : Catalog) (r : Resource) : Spot → Prop
| .top name => name ∈ r.hidden
| .under label column =>
    label ∈ r.hidden ∨ column ∈ c.hiddenUnder r label

instance (c : Catalog) (r : Resource) :
    (s : Spot) → Decidable (c.Strips r s)
| .top name => inferInstanceAs (Decidable (name ∈ r.hidden))
| .under label column =>
    inferInstanceAs
      (Decidable
        (label ∈ r.hidden ∨ column ∈ c.hiddenUnder r label))

end Catalog

/-
  Rows that a selection of columns gives: one cell for each
  name of a column, in any order.
-/
structure Row.Fits
    (columns : List Sql.Column)
    (row : Row) : Prop where
  distinct : Fields.Distinct row
  names :
    ∀ name, name ∈ Fields.keys row ↔
      ∃ col ∈ columns, col.resultName = name
  members :
    ∀ name members, (name, .object members) ∈ row →
      Fields.Distinct members

/-
  Envelopes are the same, whatever the order of their names
  and of those in their objects.
-/
def Resource.SameEnvelope (e e' : Fields Json) : Prop :=
  ∀ name,
    Json.AlikeBut [] (Fields.get? e name) (Fields.get? e' name)

namespace Catalog

/-
  Two rows agree on what is not hidden: on every name but
  those of hidden columns.
-/
def Agree
    (c : Catalog)
    (r : Resource)
    (columns : List Sql.Column)
    (row row' : Row) : Prop :=
  ∀ name,
    (∀ col ∈ columns, c.Hides r col → col.resultName ≠ name) →
      Fields.get? row name = Fields.get? row' name

/-
  Hidden columns are concealed: rows that agree on the others
  have the same envelope without hidden fields.
-/
def Conceals
    (c : Catalog)
    (r : Resource)
    (columns : List Sql.Column) : Prop :=
  ∀ row row' : Row,
    row.Fits columns → row'.Fits columns →
      c.Agree r columns row row' →
        Resource.SameEnvelope
          (c.stripHidden r (r.envelope row))
          (c.stripHidden r (r.envelope row'))

/-
  Spots are apart: where the first is at the top and the
  second under its name, the second is removed.
-/
def Apart
    (c : Catalog)
    (r : Resource)
    (s t : Resource.Spot) : Prop :=
  ∀ label column, s = .top label → t = .under label column →
    c.Strips r t

/-
  Columns are discreet: the cells of hidden ones go to spots
  that are removed, and no cell that is kept under a label
  meets one that goes to the label itself.
-/
structure Discreet
    (c : Catalog)
    (r : Resource)
    (columns : List Sql.Column) : Prop where
  hidden :
    ∀ col ∈ columns, c.Hides r col →
      c.Strips r (r.spot col.resultName)
  apart :
    ∀ a ∈ columns, ∀ b ∈ columns,
      c.Apart r (r.spot a.resultName) (r.spot b.resultName)

/-
  Two envelopes show the same: they differ in names at most
  that are hidden.
-/
def Shows
    (c : Catalog)
    (r : Resource)
    (e e' : Fields Json) : Prop :=
  ∀ name, name ∉ r.hidden →
    Json.AlikeBut (c.hiddenUnder r name)
      (Fields.get? e name) (Fields.get? e' name)

end Catalog

------------------------------------------------------------
-- Placing cells
------------------------------------------------------------

/- What is kept apart from a name that is seen is hidden under it. -/
theorem Catalog.Apart.mem_hiddenUnder
    {c : Catalog}
    {r : Resource}
    {s t : Resource.Spot}
    {name : String}
    (h : c.Apart r s t)
    (hSpot : name = s.name)
    (hName : name ∉ r.hidden) :
    ∀ label column, s = .top label → t = .under label column →
      column ∈ c.hiddenUnder r name := by
  rintro label column rfl rfl
  have hLabel : name = label := hSpot
  subst hLabel
  rcases h name column rfl rfl with hGone | hColumn
  · exact absurd hGone hName
  · exact hColumn

namespace Catalog.Shows

open Resource (Spot)

variable {c : Catalog}
variable {r : Resource}
variable {e e' e'' : Fields Json}
variable {cell other : String}
variable {v v' w : Json}

theorem refl
    (e : Fields Json) :
    c.Shows r e e :=
  fun _ _ => .inl rfl

theorem trans
    (h : c.Shows r e e')
    (h' : c.Shows r e' e'') :
    c.Shows r e e'' :=
  fun name hName => (h name hName).trans (h' name hName)

/- One cell is placed in both, or two at a spot that is removed. -/
theorem place
    (hValue : v = v' ∨ c.Strips r (r.spot cell))
    (h : c.Shows r e e') :
    c.Shows r (r.place e (cell, v)) (r.place e' (cell, v')) := by
  intro name hName
  rw [Resource.get?_place, Resource.get?_place]
  by_cases hSpot : name = (r.spot cell).name
  · rw [if_pos hSpot, if_pos hSpot]
    have hHeld := h name hName
    cases hCell : r.spot cell with
    | top n =>
        have hSame : name = n := by rw [hSpot, hCell]; rfl
        rw [hCell] at hValue
        rcases hValue with rfl | hGone
        · exact .inl rfl
        · exact absurd (hSame ▸ hGone) hName
    | under label column =>
        have hSame : name = label := by rw [hSpot, hCell]; rfl
        rw [hCell] at hValue
        refine Spot.alikeBut_settle ?_ hHeld
        rcases hValue with hValue | hLabel | hColumn
        · exact .inl hValue
        · exact absurd (hSame ▸ hLabel) hName
        · exact .inr (hSame ▸ hColumn)
  · rw [if_neg hSpot, if_neg hSpot]
    exact h name hName

/- Cells of different spots are placed in any order. -/
theorem place_comm
    (hSpots : r.spot cell ≠ r.spot other)
    (hApart : c.Apart r (r.spot cell) (r.spot other))
    (hApart' : c.Apart r (r.spot other) (r.spot cell))
    (v w : Json)
    (e : Fields Json) :
    c.Shows r
      (r.place (r.place e (cell, v)) (other, w))
      (r.place (r.place e (other, w)) (cell, v)) := by
  intro name hName
  simp only [Resource.get?_place]
  by_cases hCell : name = (r.spot cell).name
  · by_cases hOther : name = (r.spot other).name
    · simp only [if_pos hCell, if_pos hOther]
      exact Spot.alikeBut_settle_swap (hCell.symm.trans hOther)
        hSpots (hApart.mem_hiddenUnder hCell hName)
        (hApart'.mem_hiddenUnder hOther hName) v w _
    · simp only [if_pos hCell, if_neg hOther]
      exact .inl rfl
  · simp only [if_neg hCell]
    exact .inl rfl

/- Cells with the same names are placed one after the other. -/
theorem foldl_place
    {cells cells' : Row}
    (hCells :
      List.Forall₂
        (fun a b =>
          a.1 = b.1 ∧ (a.2 = b.2 ∨ c.Strips r (r.spot a.1)))
        cells cells')
    (h : c.Shows r e e') :
    c.Shows r (cells.foldl r.place e)
      (cells'.foldl r.place e') := by
  induction hCells generalizing e e' with
  | nil => exact h
  | @cons a b cells cells' hHead _ ih =>
      obtain ⟨name, v⟩ := a
      obtain ⟨name', v'⟩ := b
      obtain ⟨hName, hValue⟩ := hHead
      dsimp only at hName hValue
      subst hName
      exact ih (h.place hValue)

/- Cells of spots that are apart are placed in any order. -/
theorem foldl_perm
    {cells cells' : Row}
    (hDistinct : Fields.Distinct cells)
    (hSpots :
      ∀ a ∈ Fields.keys cells, ∀ b ∈ Fields.keys cells,
        a ≠ b → r.spot a ≠ r.spot b ∧
          c.Apart r (r.spot a) (r.spot b))
    (h : cells.Perm cells')
    (e : Fields Json) :
    c.Shows r (cells.foldl r.place e)
      (cells'.foldl r.place e) := by
  induction h generalizing e with
  | nil => exact refl e
  | cons cell _ ih =>
      exact ih (List.nodup_cons.mp hDistinct).2
        (fun a ha b hb =>
          hSpots a (List.mem_cons_of_mem _ ha)
            b (List.mem_cons_of_mem _ hb)) _
  | swap x y cells =>
      have hNames : y.1 ≠ x.1 := by
        intro hSame
        apply (List.nodup_cons.mp hDistinct).1
        exact hSame ▸ List.mem_cons_self
      have hy : y.1 ∈ Fields.keys (y :: x :: cells) :=
        List.mem_cons_self
      have hx : x.1 ∈ Fields.keys (y :: x :: cells) :=
        List.mem_cons_of_mem _ List.mem_cons_self
      rcases hSpots _ hy _ hx hNames with ⟨hSpot, hApart⟩
      have hApart' := (hSpots _ hx _ hy hNames.symm).2
      have hPlaced :
          c.Shows r (r.place (r.place e y) x)
            (r.place (r.place e x) y) :=
        place_comm hSpot hApart hApart' y.2 x.2 e
      simp only [List.foldl_cons]
      exact foldl_place
        (List.forall₂_same.mpr fun _ _ => ⟨rfl, .inl rfl⟩) hPlaced
  | trans hLeft _ ihLeft ihRight =>
      have hKeys := hLeft.map Prod.fst
      refine (ihLeft hDistinct hSpots e).trans (ihRight ?_ ?_ e)
      · exact hKeys.nodup_iff.mp hDistinct
      · exact fun a ha b hb =>
          hSpots a (hKeys.mem_iff.mpr ha) b (hKeys.mem_iff.mpr hb)

end Catalog.Shows

------------------------------------------------------------
-- Rows that agree
------------------------------------------------------------

namespace Row.Fits

variable {columns : List Sql.Column}
variable {row row' : Row}

/- The order of cells does not matter. -/
theorem perm
    (h : row.Fits columns)
    (hPerm : row.Perm row') :
    row'.Fits columns where
  distinct := (hPerm.map Prod.fst).nodup_iff.mp h.distinct
  names := fun name => by
    rw [← h.names name]
    exact (hPerm.map Prod.fst).mem_iff.symm
  members := fun name members hMem =>
    h.members name members (hPerm.mem_iff.mpr hMem)

/- A row has a value for each name of another. -/
theorem exists_get?
    (h : row.Fits columns)
    (h' : row'.Fits columns)
    {cell : String × Json}
    (hCell : cell ∈ row) :
    ∃ v, Fields.get? row' cell.1 = some v := by
  have hName : cell.1 ∈ Fields.keys row' := by
    rw [h'.names, ← h.names]
    exact List.mem_map.mpr ⟨cell, hCell, rfl⟩
  exact Option.isSome_iff_exists.mp
    (Fields.contains_iff_mem_keys.mpr hName)

end Row.Fits

/- The cells of one row with the values of another. -/
def Row.refill (row row' : Row) : Row :=
  row.map fun cell =>
    (cell.1, (Fields.get? row' cell.1).getD .null)

/- A row is another with its own values, but for the order. -/
theorem Row.Fits.perm_refill
    {columns : List Sql.Column}
    {row row' : Row}
    (h : row.Fits columns)
    (h' : row'.Fits columns) :
    (row.refill row').Perm row' := by
  have hKeys : Fields.keys (row.refill row') = Fields.keys row := by
    simp [Row.refill, Fields.keys]
  have hDistinct : Fields.Distinct (row.refill row') := by
    unfold Fields.Distinct
    rw [hKeys]
    exact h.distinct
  refine (List.perm_ext_iff_of_nodup hDistinct.of_map
    h'.distinct.of_map).mpr ?_
  rintro ⟨name, v⟩
  constructor
  · intro hMem
    rcases List.mem_map.mp hMem with ⟨cell, hCell, hPair⟩
    rcases h.exists_get? h' hCell with ⟨w, hw⟩
    rw [hw] at hPair
    cases hPair
    exact Fields.mem_of_get?_eq_some hw
  · intro hMem
    have hName : name ∈ Fields.keys row := by
      rw [h.names, ← h'.names]
      exact List.mem_map.mpr ⟨(name, v), hMem, rfl⟩
    rcases List.mem_map.mp hName with ⟨cell, hCell, rfl⟩
    refine List.mem_map.mpr ⟨cell, hCell, ?_⟩
    rw [Fields.get?_eq_some_of_mem h'.distinct hMem]
    rfl

namespace Catalog

open Resource (Spot)

variable {c : Catalog}
variable {r : Resource}
variable {columns : List Sql.Column}
variable {row row' : Row}

/- Cells of different names have different spots. -/
theorem spot_ne
    (hOwners : ∀ col ∈ columns, col.qualifier ∈ r.owners)
    {a b : Sql.Column}
    (ha : a ∈ columns)
    (hb : b ∈ columns)
    (hNames : a.resultName ≠ b.resultName) :
    r.spot a.resultName ≠ r.spot b.resultName := by
  intro hSpots
  have hCell :
      ∀ col ∈ columns,
        (r.spot col.resultName).cell r = col.resultName :=
    fun col hCol => Resource.cell_spot (hOwners col hCol) rfl
  apply hNames
  rw [← hCell a ha, hSpots, hCell b hb]

/- Discreet columns give envelopes that show the same. -/
theorem Shows.envelope
    (hOwners : ∀ col ∈ columns, col.qualifier ∈ r.owners)
    (hDiscreet : c.Discreet r columns)
    (hRow : row.Fits columns)
    (hRow' : row'.Fits columns)
    (hAgree : c.Agree r columns row row') :
    c.Shows r (r.envelope row) (r.envelope row') := by
  have hValues :
      c.Shows r (r.envelope row)
        (r.envelope (row.refill row')) := by
    refine Shows.foldl_place ?_ (Shows.refl [])
    refine List.forall₂_map_right_iff.mpr
      (List.forall₂_same.mpr ?_)
    intro cell hCell
    refine ⟨rfl, ?_⟩
    have hFound := Fields.get?_eq_some_of_mem hRow.distinct hCell
    by_cases hHidden :
        ∃ col ∈ columns, c.Hides r col ∧ col.resultName = cell.1
    · rcases hHidden with ⟨col, hCol, hHides, hName⟩
      rw [← hName]
      exact .inr (hDiscreet.hidden col hCol hHides)
    · have hSame := hAgree cell.1 fun col hCol hHides hName =>
        hHidden ⟨col, hCol, hHides, hName⟩
      rw [← hSame, hFound]
      exact .inl rfl
  have hKeys :
      ∀ name ∈ Fields.keys (row.refill row'),
        ∃ col ∈ columns, col.resultName = name := by
    intro name hName
    rw [← hRow'.names]
    exact ((hRow.perm_refill hRow').map Prod.fst).mem_iff.mp hName
  have hOrder :
      c.Shows r (r.envelope (row.refill row'))
        (r.envelope row') := by
    refine Shows.foldl_perm ?_ ?_ (hRow.perm_refill hRow') []
    · exact ((hRow.perm_refill hRow').map Prod.fst).nodup_iff.mpr
        hRow'.distinct
    · intro a ha b hb hNames
      rcases hKeys a ha with ⟨x, hx, rfl⟩
      rcases hKeys b hb with ⟨y, hy, rfl⟩
      exact ⟨spot_ne hOwners hx hy hNames,
        hDiscreet.apart x hx y hy⟩
  exact hValues.trans hOrder

end Catalog

------------------------------------------------------------
-- Discreet columns
------------------------------------------------------------

namespace Catalog

variable {c : Catalog}
variable {r : Resource}
variable {columns : List Sql.Column}

/-
  Envelopes are the same without hidden fields exactly when
  they show the same.
-/
theorem sameEnvelope_iff
    {e e' : Fields Json}
    (hr : r.Sound)
    (he : Resource.Tidy e)
    (he' : Resource.Tidy e') :
    Resource.SameEnvelope (c.stripHidden r e)
        (c.stripHidden r e') ↔
      c.Shows r e e' := by
  constructor
  · intro h name hName
    have hSame := h name
    rw [get?_stripHidden hr he.distinct,
      get?_stripHidden hr he'.distinct, if_neg hName,
      if_neg hName] at hSame
    exact (Json.AlikeBut.without_iff (he.members name)
      (he'.members name)).mp hSame
  · intro h name
    rw [get?_stripHidden hr he.distinct,
      get?_stripHidden hr he'.distinct]
    by_cases hName : name ∈ r.hidden
    · rw [if_pos hName, if_pos hName]
      exact .inl rfl
    · rw [if_neg hName, if_neg hName]
      exact (Json.AlikeBut.without_iff (he.members name)
        (he'.members name)).mpr (h name hName)

/- Discreet columns conceal the hidden ones. -/
theorem conceals_of_discreet
    (hr : r.Sound)
    (hOwners : ∀ col ∈ columns, col.qualifier ∈ r.owners)
    (h : c.Discreet r columns) :
    c.Conceals r columns := by
  intro row row' hRow hRow' hAgree
  rw [sameEnvelope_iff hr (Resource.Tidy.envelope hRow.members)
    (Resource.Tidy.envelope hRow'.members)]
  exact Shows.envelope hOwners h hRow hRow' hAgree

end Catalog

------------------------------------------------------------
-- Columns that are not discreet
------------------------------------------------------------

/- Cells with empty objects for all columns but some. -/
def Row.blank
    (columns : List Sql.Column)
    (others : List String) : Row :=
  ((columns.map Sql.Column.resultName).dedup.filter
    (· ∉ others)).map fun name => (name, .object [])

/- Blank cells and others make a row of their columns. -/
theorem Row.fits_blank
    {columns : List Sql.Column}
    (last : Row)
    (hDistinct : Fields.Distinct last)
    (hNames :
      ∀ name ∈ Fields.keys last,
        ∃ col ∈ columns, col.resultName = name)
    (hMembers :
      ∀ name members, (name, .object members) ∈ last →
        Fields.Distinct members) :
    Row.Fits columns
      (Row.blank columns (Fields.keys last) ++ last) := by
  have hBlank :
      Fields.keys (Row.blank columns (Fields.keys last)) =
        (columns.map Sql.Column.resultName).dedup.filter
          (· ∉ Fields.keys last) := by
    simp [Row.blank, Fields.keys, Function.comp_def]
  have hKeys :
      Fields.keys (Row.blank columns (Fields.keys last) ++ last) =
        (columns.map Sql.Column.resultName).dedup.filter
            (· ∉ Fields.keys last) ++ Fields.keys last := by
    rw [← hBlank]
    exact List.map_append
  refine ⟨?_, ?_, ?_⟩
  · unfold Fields.Distinct
    rw [hKeys, List.nodup_append]
    refine ⟨(List.nodup_dedup _).filter _, hDistinct, ?_⟩
    rintro a ha b hb rfl
    simpa [hb] using (List.mem_filter.mp ha).2
  · intro name
    rw [hKeys, List.mem_append, List.mem_filter, List.mem_dedup,
      List.mem_map]
    constructor
    · rintro (⟨hMem, _⟩ | hMem)
      · exact hMem
      · exact hNames name hMem
    · intro hMem
      by_cases hLast : name ∈ Fields.keys last
      · exact .inr hLast
      · exact .inl ⟨hMem, by simpa using hLast⟩
  · intro name members hMem
    rcases List.mem_append.mp hMem with hMem | hMem
    · rcases List.mem_map.mp hMem with ⟨_, _, hPair⟩
      cases hPair
      exact List.nodup_nil
    · exact hMembers name members hMem

/- All that an envelope has is objects. -/
def Resource.ObjectsOnly (e : Fields Json) : Prop :=
  ∀ name v, Fields.get? e name = some v →
    ∃ members, v = .object members

/- The envelope of blank cells has objects only. -/
theorem Resource.objectsOnly_blank
    (r : Resource)
    (columns : List Sql.Column)
    (others : List String) :
    ObjectsOnly (r.envelope (Row.blank columns others)) := by
  refine List.foldlRecOn (Row.blank columns others) r.place ?_ ?_
  · intro name v hFound
    cases hFound
  · intro e hObjects cell hCell name v hFound
    rcases List.mem_map.mp hCell with ⟨blank, _, rfl⟩
    rw [get?_place] at hFound
    by_cases hName : name = (r.spot blank).name
    · rw [if_pos hName, Option.some.injEq] at hFound
      cases hSpot : r.spot blank with
      | top n =>
          rw [hSpot] at hFound
          exact ⟨[], hFound.symm⟩
      | under label column =>
          rw [hSpot] at hFound
          rcases Spot.exists_settle label column
              (hObjects name) with ⟨members, hSettle⟩
          rw [hSettle] at hFound
          exact ⟨_, hFound.symm⟩
    · rw [if_neg hName] at hFound
      exact hObjects name v hFound

namespace Catalog

open Resource (Spot)

variable {c : Catalog}
variable {r : Resource}
variable {columns : List Sql.Column}

/- Where columns are concealed, envelopes show the same. -/
theorem shows_of_conceals
    {row row' : Row}
    (hr : r.Sound)
    (h : c.Conceals r columns)
    (hRow : row.Fits columns)
    (hRow' : row'.Fits columns)
    (hAgree : c.Agree r columns row row') :
    c.Shows r (r.envelope row) (r.envelope row') :=
  (sameEnvelope_iff hr (Resource.Tidy.envelope hRow.members)
    (Resource.Tidy.envelope hRow'.members)).mp
      (h row row' hRow hRow' hAgree)

/-
  If it does not show which of two values a cell has among
  objects, then its spot is removed.
-/
theorem strips_of_shows
    {e : Fields Json}
    {name : String}
    (hObjects : Resource.ObjectsOnly e)
    (h :
      c.Shows r (r.place e (name, .null))
        (r.place e (name, .bool true))) :
    c.Strips r (r.spot name) := by
  by_contra hKept
  have hSeen := h (r.spot name).name
  rw [Resource.get?_place, Resource.get?_place, if_pos rfl,
    if_pos rfl] at hSeen
  cases hSpot : r.spot name with
  | top top =>
      rw [hSpot] at hSeen hKept
      rcases hSeen hKept with hAlike | ⟨_, _, hNull, _⟩
      · cases hAlike
      · cases hNull
  | under label column =>
      rw [hSpot] at hSeen hKept
      rcases not_or.mp hKept with ⟨hLabel, hColumn⟩
      rcases Spot.exists_settle label column (hObjects label) with
        ⟨members, hSettle⟩
      have hAlike := hSeen hLabel
      simp only [Spot.name, hSettle] at hAlike
      have hFound := hAlike.get?_eq hColumn
      rw [Fields.get?_insert_self, Fields.get?_insert_self]
        at hFound
      cases hFound

/- Cells of hidden columns that are concealed are removed. -/
theorem strips_of_conceals
    (hr : r.Sound)
    (h : c.Conceals r columns)
    {col : Sql.Column}
    (hCol : col ∈ columns)
    (hHides : c.Hides r col) :
    c.Strips r (r.spot col.resultName) := by
  let others := Row.blank columns [col.resultName]
  have hFits :
      ∀ v, (∀ members, v ≠ Json.object members) →
        Row.Fits columns (others ++ [(col.resultName, v)]) := by
    intro v hFlat
    refine Row.fits_blank [(col.resultName, v)]
      (List.nodup_singleton _) ?_ ?_
    · intro name hName
      exact ⟨col, hCol, (List.mem_singleton.mp hName).symm⟩
    · intro name members hMem
      cases List.mem_singleton.mp hMem
      exact absurd rfl (hFlat members)
  have hAgree :
      c.Agree r columns (others ++ [(col.resultName, .null)])
        (others ++ [(col.resultName, .bool true)]) := by
    intro name hName
    have hOther := hName col hCol hHides
    simp [Fields.get?_append, Fields.get?, hOther]
  have hShows :=
    shows_of_conceals hr h (hFits .null (by simp))
      (hFits (.bool true) (by simp)) hAgree
  simp only [Resource.envelope, List.foldl_append,
    List.foldl_cons, List.foldl_nil] at hShows
  exact strips_of_shows
    (r.objectsOnly_blank columns [col.resultName]) hShows

/-
  If it does not show which of two cells came first, then
  neither takes the place of the other.
-/
theorem strips_under_of_shows
    {e : Fields Json}
    {first second label column : String}
    (hTop : r.spot first = .top label)
    (hUnder : r.spot second = .under label column)
    (h :
      c.Shows r
        (r.place (r.place e (first, .object [])) (second, .null))
        (r.place (r.place e (second, .null))
          (first, .object []))) :
    c.Strips r (.under label column) := by
  by_contra hKept
  rcases not_or.mp hKept with ⟨hLabel, hColumn⟩
  have hSeen := h label hLabel
  simp only [Resource.get?_place, hTop, hUnder, Spot.name,
    if_true] at hSeen
  have hFound := hSeen.get?_eq hColumn
  simp [Fields.get?] at hFound

/- Where columns are concealed, no cell takes another's place. -/
theorem apart_of_conceals
    (hr : r.Sound)
    (h : c.Conceals r columns)
    {a b : Sql.Column}
    (ha : a ∈ columns)
    (hb : b ∈ columns) :
    c.Apart r (r.spot a.resultName) (r.spot b.resultName) := by
  intro label column hTop hUnder
  rw [hUnder]
  have hNames : a.resultName ≠ b.resultName := by
    intro hNames
    rw [hNames, hUnder] at hTop
    cases hTop
  let others := Row.blank columns [a.resultName, b.resultName]
  let first : String × Json := (a.resultName, .object [])
  let second : String × Json := (b.resultName, .null)
  have hFits : Row.Fits columns (others ++ [first, second]) := by
    refine Row.fits_blank [first, second] ?_ ?_ ?_
    · simp [Fields.Distinct, Fields.keys, first, second, hNames]
    · intro name hName
      rcases List.mem_cons.mp hName with rfl | hName
      · exact ⟨a, ha, rfl⟩
      · exact ⟨b, hb, (List.mem_singleton.mp hName).symm⟩
    · intro name members hMem
      have hFirst : name = a.resultName ∧ members = [] := by
        simpa [first, second] using List.mem_pair.mp hMem
      rw [hFirst.2]
      exact List.nodup_nil
  have hPerm :
      (others ++ [first, second]).Perm
        (others ++ [second, first]) :=
    (List.Perm.swap second first []).append_left others
  have hShows := shows_of_conceals hr h hFits (hFits.perm hPerm)
    fun name _ => Fields.get?_perm hFits.distinct hPerm name
  simp only [Resource.envelope, List.foldl_append,
    List.foldl_cons, List.foldl_nil] at hShows
  exact strips_under_of_shows hTop hUnder hShows

/- Hidden columns are concealed exactly if they are discreet. -/
theorem conceals_iff_discreet
    (hr : r.Sound)
    (hOwners : ∀ col ∈ columns, col.qualifier ∈ r.owners) :
    c.Conceals r columns ↔ c.Discreet r columns :=
  ⟨fun h =>
      ⟨fun _ hCol => strips_of_conceals hr h hCol,
        fun _ ha _ hb => apart_of_conceals hr h ha hb⟩,
    conceals_of_discreet hr hOwners⟩

/- Columns that nothing captures are discreet. -/
theorem discreet_of_not_captures
    (hr : r.Sound)
    (hOffered : ∀ col ∈ columns, r.Offers col)
    (hFree : ∀ col ∈ columns, ¬ r.Captures col) :
    c.Discreet r columns := by
  have hSpot :
      ∀ col ∈ columns,
        r.spot col.resultName =
          if col.qualifier = r.table.name then .top col.name
          else .under col.qualifier col.name :=
    fun col hCol =>
      Resource.spot_resultName (hOffered col hCol).mem_owners
        (hFree col hCol)
  refine ⟨?_, ?_⟩
  · intro col hCol hHides
    rw [hSpot col hCol]
    unfold Hides at hHides
    by_cases hRoot : col.qualifier = r.table.name
    · rw [if_pos hRoot] at hHides ⊢
      exact hHides
    · rw [if_neg hRoot] at hHides ⊢
      exact .inr hHides
  · intro a ha b hb label column hTop hUnder
    rw [hSpot a ha] at hTop
    rw [hSpot b hb] at hUnder
    split at hTop
    · next hRoot =>
        split at hUnder
        · cases hUnder
        · next hRelation =>
            -- a column of the table has no name of a label
            have hName : a.name = label := Spot.top.inj hTop
            have hLabel : b.qualifier = label :=
              (Spot.under.inj hUnder).1
            have hOwns : a.name ∈ r.owns.keys := by
              rcases hOffered a ha with ⟨_, hOwns⟩ | hMem
              · exact hOwns
              · exact absurd hRoot
                  (hr.ne_table
                    (Resource.mem_relations_of_belongsTo hMem))
            rcases hOffered b hb with ⟨hTable, _⟩ | hMem
            · exact absurd hTable hRelation
            · exact absurd (hLabel.trans hName.symm)
                (hr.ne_of_owns hOwns hMem)
    · cases hTop

end Catalog

------------------------------------------------------------
-- Resolved catalogs
------------------------------------------------------------

/-
  Over a resolved catalog a projection always selects columns,
  and the hidden ones are concealed exactly if the columns are
  discreet.  They are if nothing captures one.
-/
theorem Catalog.Resolved.conceals_iff
    {c : Catalog}
    {r : Resource}
    (hResolved : c.Resolved)
    (hr : r ∈ c.resources)
    (p : Projection)
    {start : Sql.Query}
    (hStart : start.columns = []) :
    (p.apply c r start).error? = none ∧
      (c.Conceals r (p.apply c r start).query.columns ↔
        c.Discreet r (p.apply c r start).query.columns) ∧
      ((∀ col ∈ (p.apply c r start).query.columns,
          ¬ r.Captures col) →
        c.Discreet r (p.apply c r start).query.columns) := by
  have hSound := hResolved.sound
  have hResource := hSound.resources r hr
  have hSelection := p.selection_apply (r := r) c hStart
  refine ⟨p.error?_apply hSound hr start, ?_, ?_⟩
  · exact conceals_iff_discreet hResource fun col hCol =>
      (hSelection.offered col hCol).mem_owners
  · exact discreet_of_not_captures hResource hSelection.offered

/- The password of a member is concealed with all of an idea. -/
theorem Catalog.Resolved.conceals_iff_sample :
    sample.Conceals Resource.sample
      (Projection.everything.apply sample Resource.sample
        { root := Resource.sample.table }).query.columns := by
  have hSample :=
    conceals_iff sample_resolved mem_sample .everything
      (show ({ root := Resource.sample.table } :
        Sql.Query).columns = [] from rfl)
  exact hSample.2.1.mpr (hSample.2.2 (by decide))

/-
  A plan of a member, whose table begins with the label of the
  member: what the member hides as `plan_token` is called
  `user_plan_token` in a row, as a name of the table would be.
-/
def Declaration.betraying : List Declaration :=
  [ { name := "users"
      table := "member"
      primaryKey := some "id"
      hidden := ["plan_token"]
      fields :=
        [ ("id", { type := .named "int", props := ["default"] })
        , ("plan_token", { type := .named "string" }) ] }
  , { name := "subscriptions"
      table := "user_plan"
      primaryKey := some "id"
      fields :=
        [ ("id", { type := .named "int", props := ["default"] })
        , ("user_id", { type := .named "int" })
        , ("user",
            { type := .reference "users"
              relation := some "belongs_to"
              mapping := some "user_id" }) ] } ]

/- The catalog of members and their plans. -/
def Catalog.betraying : Catalog :=
  (Declaration.resolve Declaration.betraying).toOption.getD {}

/- The resource of plans. -/
def Resource.betraying : Resource :=
  (Catalog.betraying.find? "subscriptions").get rfl

/- The hidden token of a member is told at the top. -/
theorem Catalog.exists_not_concealed :
    Declaration.resolve Declaration.betraying = .ok betraying ∧
      betraying.find? "subscriptions" = some Resource.betraying ∧
      (Projection.apply (.requested ["id", "user.plan_token"])
          betraying Resource.betraying
          { root := Resource.betraying.table }).query.columns =
        [⟨"user_plan", "id"⟩, ⟨"user", "plan_token"⟩] ∧
      betraying.Hides Resource.betraying
        ⟨"user", "plan_token"⟩ ∧
      betraying.stripHidden Resource.betraying
          (Resource.betraying.envelope
            [("user_plan_id", .number (.int 1)),
              ("user_plan_token", .string "secret")]) =
        [("id", .number (.int 1)), ("token", .string "secret")] ∧
      ¬ betraying.Conceals Resource.betraying
        [⟨"user_plan", "id"⟩, ⟨"user", "plan_token"⟩] := by
  have hResolve :
      Declaration.resolve Declaration.betraying =
        .ok betraying := rfl
  have hMem : Resource.betraying ∈ betraying.resources :=
    mem_resources_of_find? (Option.some_get _).symm
  have hSound : Resource.betraying.Sound :=
    (sound_of_resolve hResolve).resources _ hMem
  have hHides :
      betraying.Hides Resource.betraying
        ⟨"user", "plan_token"⟩ := by decide
  refine ⟨hResolve, rfl, rfl, hHides, rfl, ?_⟩
  intro hConceals
  have hStrips :
      betraying.Strips Resource.betraying
        (Resource.betraying.spot "user_plan_token") :=
    strips_of_conceals hSound hConceals
      (List.mem_pair.mpr (.inr rfl)) hHides
  exact absurd hStrips (by decide)

end RelationalRest
