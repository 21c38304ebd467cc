/-
  This file defines ordered fields: lists of named values
  in which the position of a name is part of the data.
  JSON objects, database rows, query parameters and the
  declared fields of a resource all have this shape.

  Every operation keeps names distinct when they are
  distinct before.

  Key definitions include:
    * `Fields`
    * `Fields.get?`
    * `Fields.insert`
    * `Fields.erase`
    * `Fields.swapRemove`
    * `Fields.ofList`
    * `Fields.Distinct`
-/

namespace RelationalRest

/- Named values in order. -/
abbrev Fields (β : Type) :=
  List (String × β)

namespace Fields

variable {β : Type}

------------------------------------------------------------
-- Looking up
------------------------------------------------------------

/- The names, in order. -/
def keys (m : Fields β) : List String :=
  m.map Prod.fst

/- The values, in order. -/
def values (m : Fields β) : List β :=
  m.map Prod.snd

/- The value stored under a name. -/
def get? : Fields β → String → Option β
| [], _ => none
| (k, v) :: rest, name =>
    if k = name then some v else get? rest name

/- A name is present. -/
def contains
    (m : Fields β)
    (name : String) : Bool :=
  (get? m name).isSome

/- No name occurs twice. -/
def Distinct (m : Fields β) : Prop :=
  (keys m).Nodup

instance (m : Fields β) : Decidable (Distinct m) := by
  unfold Distinct
  infer_instance

------------------------------------------------------------
-- Changing
------------------------------------------------------------

/-
  Store a value under a name: in the place of the name if it
  is present, and at the end otherwise.
-/
def insert : Fields β → String → β → Fields β
| [], name, v => [(name, v)]
| (k, w) :: rest, name, v =>
    if k = name then
      (k, v) :: rest
    else
      (k, w) :: insert rest name v

/- Remove a name; the others keep their order. -/
def erase : Fields β → String → Fields β
| [], _ => []
| (k, v) :: rest, name =>
    if k = name then
      rest
    else
      (k, v) :: erase rest name

/- Remove a name; the last entry takes the place it leaves. -/
def swapRemove : Fields β → String → Fields β
| [], _ => []
| (k, v) :: rest, name =>
    if k = name then
      match rest.getLast? with
      | none => []
      | some last => last :: rest.dropLast
    else
      (k, v) :: swapRemove rest name

/- Apply a function to the value under a name. -/
def adjust
    (m : Fields β)
    (name : String)
    (f : β → β) : Fields β :=
  m.map fun (k, v) => if k = name then (k, f v) else (k, v)

/-
  Collect pairs: a repeated name keeps its first position
  and its last value.
-/
def ofList (pairs : List (String × β)) : Fields β :=
  pairs.foldl (fun m (k, v) => insert m k v) []

------------------------------------------------------------
-- Small lemmas
------------------------------------------------------------

@[simp]
theorem get?_nil (name : String) :
    get? ([] : Fields β) name = none :=
  rfl

/- A name is present exactly when it is one of the keys. -/
theorem contains_iff_mem_keys
    {m : Fields β}
    {name : String} :
    contains m name = true ↔ name ∈ keys m := by
  induction m with
  | nil =>
      simp [contains, keys]
  | cons entry rest ih =>
      obtain ⟨k, v⟩ := entry
      by_cases hk : k = name
      · simp [contains, get?, keys, hk]
      · have hk' : name ≠ k := fun h => hk h.symm
        simpa [contains, get?, keys, hk, hk'] using ih

/- What is found under a name is an entry of that name. -/
theorem mem_of_get?_eq_some
    {m : Fields β}
    {name : String}
    {v : β}
    (h : get? m name = some v) :
    (name, v) ∈ m := by
  induction m with
  | nil => cases h
  | cons entry rest ih =>
      obtain ⟨k, w⟩ := entry
      by_cases hk : k = name
      · simp only [get?, hk, if_true, Option.some.injEq] at h
        simp [hk, h]
      · simp only [get?, hk, if_false] at h
        exact List.mem_cons_of_mem _ (ih h)

/- Every entry is found under its name, if names are distinct. -/
theorem get?_eq_some_of_mem
    {m : Fields β}
    {name : String}
    {v : β}
    (hDistinct : Distinct m)
    (h : (name, v) ∈ m) :
    get? m name = some v := by
  induction m with
  | nil => cases h
  | cons entry rest ih =>
      obtain ⟨k, w⟩ := entry
      have hNodup := List.nodup_cons.mp hDistinct
      rcases List.mem_cons.mp h with hHead | hRest
      · cases hHead
        simp [get?]
      · have hk : k ≠ name := by
          intro hk
          apply hNodup.1
          exact List.mem_map.mpr ⟨(name, v), hRest, hk.symm⟩
        simpa [get?, hk] using ih hNodup.2 hRest

/- A stored value is found again. -/
@[simp]
theorem get?_insert_self
    (m : Fields β)
    (name : String)
    (v : β) :
    get? (insert m name v) name = some v := by
  induction m with
  | nil =>
      simp [insert, get?]
  | cons entry rest ih =>
      obtain ⟨k, w⟩ := entry
      by_cases hk : k = name
      · simp [insert, get?, hk]
      · simp [insert, get?, hk, ih]

/- Storing under one name leaves the others alone. -/
theorem get?_insert_of_ne
    (m : Fields β)
    {name other : String}
    (v : β)
    (h : other ≠ name) :
    get? (insert m name v) other = get? m other := by
  induction m with
  | nil =>
      simp [insert, get?, h.symm]
  | cons entry rest ih =>
      obtain ⟨k, w⟩ := entry
      by_cases hk : k = name
      · subst hk
        simp [insert, get?, h.symm]
      · by_cases ho : k = other
        · subst ho
          simp [insert, get?, h]
        · simp [insert, get?, hk, ho, ih]

/- The names after storing. -/
theorem keys_insert
    (m : Fields β)
    (name : String)
    (v : β) :
    keys (insert m name v) =
      if name ∈ keys m then keys m else keys m ++ [name] := by
  induction m with
  | nil =>
      simp [insert, keys]
  | cons entry rest ih =>
      obtain ⟨k, w⟩ := entry
      by_cases hk : k = name
      · simp [insert, keys, hk]
      · have hk' : name ≠ k := fun h => hk h.symm
        simp only [keys] at ih
        by_cases hm : name ∈ rest.map Prod.fst
        · simp [insert, keys, hk, hm, ih]
        · simp only [List.mem_map, Prod.exists,
            exists_and_right, exists_eq_right,
            not_exists] at hm
          simp [insert, keys, hk, hk', ih, hm]

/- Storing keeps names distinct. -/
theorem Distinct.insert
    {m : Fields β}
    (h : Distinct m)
    (name : String)
    (v : β) :
    Distinct (Fields.insert m name v) := by
  unfold Distinct at *
  rw [keys_insert]
  by_cases hm : name ∈ keys m
  · simpa [hm] using h
  · simp only [hm, if_false]
    rw [List.nodup_append]
    refine ⟨h, by simp, ?_⟩
    intro a ha b hb
    have hb' : b = name := by simpa using hb
    subst hb'
    intro hab
    exact hm (hab ▸ ha)

/- Collected pairs have distinct names. -/
theorem distinct_ofList (pairs : List (String × β)) :
    Distinct (ofList pairs) := by
  unfold ofList
  suffices h :
      ∀ m : Fields β, Distinct m →
        Distinct
          (pairs.foldl (fun m (k, v) => Fields.insert m k v) m) from
    h [] (by simp [Distinct, keys])
  induction pairs with
  | nil =>
      intro m hm
      simpa using hm
  | cons entry rest ih =>
      intro m hm
      obtain ⟨k, v⟩ := entry
      simpa using ih (Fields.insert m k v) (hm.insert k v)

end Fields

end RelationalRest
