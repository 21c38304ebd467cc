import Mathlib.Data.List.Induction
import Mathlib.Data.List.Nodup
import Mathlib.Data.List.Perm.Basic
import RelationalRest.Fields

/-
  What is found in fields after they are changed, and that it
  does not depend on their order when names are distinct.

  Key definitions include:
    * `Fields.Collects`

  Main declarations:
    * `Fields.Distinct.eq_of_mem`
    * `Fields.get?_perm`
    * `Fields.ofList_eq_self`
    * `Fields.mem_keys_insert_iff`
    * `Fields.mem_keys_of_ofList`
    * `Fields.collects_ofList`
    * `Fields.get?_insert`
    * `Fields.get?_append`
    * `Fields.get?_adjust`
    * `Fields.perm_swapRemove`
    * `Fields.get?_swapRemove`
    * `Fields.filter_eq_toList`
    * `Fields.filter_insert`
    * `Fields.filter_erase`
-/

namespace RelationalRest

namespace Fields

variable {β : Type}
variable {m m' : Fields β}
variable {name other : String}

------------------------------------------------------------
-- Looking up
------------------------------------------------------------

/- With distinct names, what is found is what is an entry. -/
theorem get?_eq_some_iff
    (hDistinct : Distinct m)
    {v : β} :
    get? m name = some v ↔ (name, v) ∈ m :=
  ⟨mem_of_get?_eq_some, get?_eq_some_of_mem hDistinct⟩

/- With distinct names, a name has one value. -/
theorem Distinct.eq_of_mem
    (hDistinct : Distinct m)
    {v w : β}
    (hv : (name, v) ∈ m)
    (hw : (name, w) ∈ m) :
    v = w := by
  have hSame := get?_eq_some_of_mem hDistinct hv
  rw [get?_eq_some_of_mem hDistinct hw] at hSame
  exact (Option.some.inj hSame).symm

/- An entry before another one has a different name. -/
theorem Distinct.ne_of_mem_before
    {earlier later : Fields β}
    {name : String}
    {v : β}
    (h : Distinct (earlier ++ (name, v) :: later))
    {entry : String × β}
    (hEntry : entry ∈ earlier) :
    entry.1 ≠ name := by
  have hNodup : (keys earlier ++ name :: keys later).Nodup := by
    simpa [Distinct, keys] using h
  exact
    (List.nodup_append.mp hNodup).2.2 entry.1
      (List.mem_map_of_mem hEntry) name List.mem_cons_self

/- The order of entries with distinct names does not matter. -/
theorem get?_perm
    (hDistinct : Distinct m)
    (h : m.Perm m')
    (name : String) :
    get? m name = get? m' name := by
  have hDistinct' : Distinct m' :=
    (h.map Prod.fst).nodup_iff.mp hDistinct
  refine Option.ext fun v => ?_
  rw [get?_eq_some_iff hDistinct, get?_eq_some_iff hDistinct',
    h.mem_iff]

/- A name that is no key is not found. -/
theorem get?_eq_none_iff :
    get? m name = none ↔ name ∉ keys m := by
  rw [← contains_iff_mem_keys, contains,
    Option.not_isSome_iff_eq_none]

/- A name that is found is one of the keys. -/
theorem mem_keys_of_get?_eq_some
    {v : β}
    (h : get? m name = some v) :
    name ∈ keys m :=
  List.mem_map.mpr ⟨(name, v), mem_of_get?_eq_some h, rfl⟩

/- What is found in one list of entries or in the next. -/
theorem get?_append
    (m m' : Fields β)
    (name : String) :
    get? (m ++ m') name = (get? m name).or (get? m' name) := by
  induction m with
  | nil => rfl
  | cons entry m ih =>
      obtain ⟨k, v⟩ := entry
      by_cases hk : k = name
      · simp [get?, hk]
      · simpa [get?, hk] using ih

------------------------------------------------------------
-- Storing and adjusting
------------------------------------------------------------

/- Storing what is found changes nothing. -/
theorem insert_of_get?_eq_some
    {v : β}
    (h : get? m name = some v) :
    insert m name v = m := by
  induction m with
  | nil => cases h
  | cons entry rest ih =>
      obtain ⟨k, w⟩ := entry
      by_cases hk : k = name
      · simp only [get?, hk, if_true, Option.some.injEq] at h
        simp [insert, hk, h]
      · simp only [get?, hk, if_false] at h
        simp [insert, hk, ih h]

/- Storing under a name that is not found adds an entry. -/
theorem insert_of_get?_eq_none
    (h : get? m name = none)
    (v : β) :
    insert m name v = m ++ [(name, v)] := by
  induction m with
  | nil => rfl
  | cons entry rest ih =>
      obtain ⟨k, w⟩ := entry
      by_cases hk : k = name
      · simp [get?, hk] at h
      · simp only [get?, hk, if_false] at h
        simp [insert, hk, ih h]

/- Entries with distinct names are collected as they are. -/
theorem ofList_eq_self (hDistinct : Distinct m) :
    ofList m = m := by
  have hAll :
      ∀ first later : Fields β, Distinct (first ++ later) →
        later.foldl (fun m entry => insert m entry.1 entry.2)
            first =
          first ++ later := by
    intro first later hDistinct
    induction later generalizing first with
    | nil => simp
    | cons entry later ih =>
        obtain ⟨k, v⟩ := entry
        have hFresh : get? first k = none := by
          rw [get?_eq_none_iff]
          intro hMem
          rw [Distinct, keys, List.map_append,
            List.nodup_append] at hDistinct
          exact hDistinct.2.2 k hMem k (by simp) rfl
        have hMove :
            first ++ (k, v) :: later =
              first ++ [(k, v)] ++ later := by
          simp
        rw [hMove] at hDistinct ⊢
        rw [List.foldl_cons]
        dsimp only
        rw [insert_of_get?_eq_none hFresh, ih _ hDistinct]
  exact hAll [] m hDistinct

/- The names after storing are those before it and the new one. -/
theorem mem_keys_insert_iff
    {v : β} :
    other ∈ keys (insert m name v) ↔
      other ∈ keys m ∨ other = name := by
  rw [keys_insert]
  by_cases hName : name ∈ keys m
  · rw [if_pos hName]
    exact ⟨.inl, fun h => h.elim id fun hSame => hSame ▸ hName⟩
  · rw [if_neg hName, List.mem_append, List.mem_singleton]

/- Every name of collected pairs is that of one of the pairs. -/
theorem mem_keys_of_ofList
    {pairs : List (String × β)}
    (h : name ∈ keys (ofList pairs)) :
    ∃ pair ∈ pairs, pair.1 = name := by
  have hAll :
      ∀ first : Fields β,
        name ∈
            keys
              (pairs.foldl
                (fun m entry => insert m entry.1 entry.2) first) →
          name ∈ keys first ∨ ∃ pair ∈ pairs, pair.1 = name := by
    clear h
    induction pairs with
    | nil => exact fun first h => .inl h
    | cons entry pairs ih =>
        intro first h
        rcases ih _ h with hStored | ⟨pair, hPair, hName⟩
        · rcases mem_keys_insert_iff.mp hStored with hFirst | hLast
          · exact .inl hFirst
          · exact .inr ⟨entry, List.mem_cons_self, hLast.symm⟩
        · exact .inr
            ⟨pair, List.mem_cons_of_mem entry hPair, hName⟩
  exact (hAll [] h).resolve_left List.not_mem_nil

/- One more pair is collected last. -/
theorem ofList_append_singleton
    (pairs : List (String × β))
    (name : String)
    (v : β) :
    ofList (pairs ++ [(name, v)]) = insert (ofList pairs) name v := by
  simp [ofList]

/-
  Fields collect pairs: each name has the place of its first
  pair among the first pairs of all names, and the value of
  its last one.
-/
structure Collects
    (pairs : List (String × β))
    (m : Fields β) : Prop where
  names : keys m = (keys pairs).eraseDups
  values : ∀ name, get? m name = get? pairs.reverse name

/- What is found after storing. -/
theorem get?_insert
    (m : Fields β)
    (name : String)
    (v : β)
    (other : String) :
    get? (insert m name v) other =
      if other = name then some v else get? m other := by
  by_cases h : other = name
  · simp [h]
  · simp [h, get?_insert_of_ne m v h]

/- Collected pairs are fields that collect them. -/
theorem collects_ofList (pairs : List (String × β)) :
    Collects pairs (ofList pairs) := by
  induction pairs using List.reverseRecOn with
  | nil => exact ⟨rfl, fun _ => rfl⟩
  | append_singleton pairs pair ih =>
      obtain ⟨k, v⟩ := pair
      rw [ofList_append_singleton]
      refine ⟨?_, ?_⟩
      · have hKeys :
            keys (pairs ++ [(k, v)]) = keys pairs ++ [k] := by
          simp [keys]
        rw [keys_insert, ih.names, hKeys, List.eraseDups_append]
        by_cases hk : k ∈ keys pairs <;>
          simp [List.removeAll, List.eraseDups_cons, hk]
      · intro name
        rw [get?_insert, ih.values, List.reverse_append]
        by_cases hk : k = name
        · simp [get?, hk]
        · simp [get?, hk, Ne.symm hk]

/- What is found after adjusting a name. -/
theorem get?_adjust
    (m : Fields β)
    (name : String)
    (f : β → β)
    (other : String) :
    get? (adjust m name f) other =
      if other = name then (get? m other).map f
      else get? m other := by
  unfold adjust
  induction m with
  | nil => simp
  | cons entry rest ih =>
      obtain ⟨k, v⟩ := entry
      by_cases hk : k = other
      · subst hk
        by_cases hName : k = name
        · simp [get?, hName]
        · simp [get?, hName]
      · by_cases hName : k = name
        · subst hName
          simpa [get?, hk, Ne.symm hk] using ih
        · simpa [get?, hk, hName] using ih

------------------------------------------------------------
-- Removing
------------------------------------------------------------

/- Erasing takes one entry away at most. -/
theorem erase_sublist
    (m : Fields β)
    (name : String) :
    (erase m name).Sublist m := by
  induction m with
  | nil => exact List.Sublist.slnil
  | cons entry rest ih =>
      obtain ⟨k, v⟩ := entry
      by_cases hk : k = name
      · simp [erase, hk]
      · simpa [erase, hk] using ih

/- Erasing a name leaves the others alone. -/
theorem get?_erase_of_ne
    (m : Fields β)
    (h : other ≠ name) :
    get? (erase m name) other = get? m other := by
  induction m with
  | nil => rfl
  | cons entry rest ih =>
      obtain ⟨k, v⟩ := entry
      by_cases hk : k = name
      · simp [erase, get?, hk, h.symm]
      · simp [erase, get?, hk, ih]

/- An erased name is gone, if it was there once. -/
theorem get?_erase_self
    (hDistinct : Distinct m) :
    get? (erase m name) name = none := by
  induction m with
  | nil => rfl
  | cons entry rest ih =>
      obtain ⟨k, v⟩ := entry
      have hNodup := List.nodup_cons.mp hDistinct
      by_cases hk : k = name
      · subst hk
        have hGone : get? rest k = none :=
          get?_eq_none_iff.mpr hNodup.1
        simpa [erase] using hGone
      · simpa [erase, get?, hk] using ih hNodup.2

/- Erasing keeps names distinct. -/
theorem Distinct.erase
    (h : Distinct m)
    (name : String) :
    Distinct (Fields.erase m name) :=
  ((erase_sublist m name).map Prod.fst).nodup h

/- Erasing a name that is not found changes nothing. -/
theorem erase_of_get?_eq_none
    (h : get? m name = none) :
    erase m name = m := by
  induction m with
  | nil => rfl
  | cons entry rest ih =>
      obtain ⟨k, v⟩ := entry
      by_cases hk : k = name
      · simp [get?, hk] at h
      · simp only [get?, hk, if_false] at h
        simp [erase, hk, ih h]

/- What is erased may be stored before. -/
theorem erase_insert
    (m : Fields β)
    (name : String)
    (v : β) :
    erase (insert m name v) name = erase m name := by
  induction m with
  | nil => simp [insert, erase]
  | cons entry rest ih =>
      obtain ⟨k, w⟩ := entry
      by_cases hk : k = name
      · simp [insert, erase, hk]
      · simp [insert, erase, hk, ih]

/- Removing leaves the entries that erasing leaves. -/
theorem perm_swapRemove
    (m : Fields β)
    (name : String) :
    (swapRemove m name).Perm (erase m name) := by
  induction m with
  | nil => exact .refl []
  | cons entry rest ih =>
      obtain ⟨k, v⟩ := entry
      by_cases hk : k = name
      · simp only [swapRemove, erase, hk, if_true]
        cases hLast : rest.getLast? with
        | none => rw [List.getLast?_eq_none_iff.mp hLast]
        | some last =>
            have hRest : rest.dropLast ++ [last] = rest :=
              List.dropLast_append_getLast? last hLast
            have hMoved :=
              (List.perm_append_singleton last rest.dropLast).symm
            rwa [hRest] at hMoved
      · simpa [swapRemove, erase, hk] using ih

/- Removing keeps names distinct. -/
theorem Distinct.swapRemove
    (h : Distinct m)
    (name : String) :
    Distinct (Fields.swapRemove m name) := by
  exact ((perm_swapRemove m name).map Prod.fst).nodup_iff.mpr
    (h.erase name)

/- What is found after removing a name. -/
theorem get?_swapRemove
    (hDistinct : Distinct m)
    (name other : String) :
    get? (swapRemove m name) other =
      if other = name then none else get? m other := by
  rw [get?_perm (hDistinct.swapRemove name)
    (perm_swapRemove m name)]
  by_cases h : other = name
  · subst h
    simp [get?_erase_self hDistinct]
  · simp [h, get?_erase_of_ne m h]

------------------------------------------------------------
-- Entries of some names
------------------------------------------------------------

/- With distinct names, the entries of a name are what is found. -/
theorem filter_eq_toList
    (hDistinct : Distinct m)
    (name : String) :
    m.filter (fun entry => entry.1 = name) =
      ((get? m name).map fun v => (name, v)).toList := by
  induction m with
  | nil => rfl
  | cons entry rest ih =>
      obtain ⟨k, v⟩ := entry
      have hNodup := List.nodup_cons.mp hDistinct
      by_cases hk : k = name
      · subst hk
        have hGone : get? rest k = none :=
          get?_eq_none_iff.mpr hNodup.1
        simp [get?, ih hNodup.2, hGone]
      · simp [get?, hk, ih hNodup.2]

section Others

variable {keeps : String → Bool}

/- Storing under a name leaves the entries of others as they are. -/
theorem filter_insert
    (m : Fields β)
    (h : keeps name = false)
    (v : β) :
    (insert m name v).filter (fun entry => keeps entry.1) =
      m.filter fun entry => keeps entry.1 := by
  induction m with
  | nil => simp [insert, h]
  | cons entry rest ih =>
      obtain ⟨k, w⟩ := entry
      by_cases hk : k = name
      · simp [insert, hk, h]
      · simp [insert, hk, List.filter_cons, ih]

/- Erasing a name leaves the entries of others as they are. -/
theorem filter_erase
    (m : Fields β)
    (h : keeps name = false) :
    (erase m name).filter (fun entry => keeps entry.1) =
      m.filter fun entry => keeps entry.1 := by
  induction m with
  | nil => rfl
  | cons entry rest ih =>
      obtain ⟨k, w⟩ := entry
      by_cases hk : k = name
      · simp [erase, hk, h]
      · simp [erase, hk, List.filter_cons, ih]

end Others

end Fields

end RelationalRest
