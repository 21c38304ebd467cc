import RelationalRest.Kind.Filter

/-
  The operator of a filter text and the operands that follow
  it.  Tokens are tried in order and none begins a later one,
  so the first token that begins a text is the longest one.  A
  kind accepts a text exactly if the text stands for a value
  of the kind, which is then the operand.

  Key definitions include:
    * `Kind.Resolves`
    * `Kind.StandsFor`

  Main declarations:
    * `Kind.operators_apart`
    * `Kind.longest_of_findSome?`
    * `Kind.resolves_resolve`
    * `Kind.standsFor_iff`
-/

namespace RelationalRest

namespace Kind

variable {k : Kind}
variable {op : FilterOperator}
variable {s rest : String}

------------------------------------------------------------
-- Operators
------------------------------------------------------------

/-
  The operator of a filter text and what follows it: that of
  the longest token that begins the text, and the default one
  for the whole text if no token begins it.
-/
inductive Resolves
    (k : Kind)
    (s : String) : FilterOperator → String → Prop
| token
    {token : String}
    {op : FilterOperator}
    {rest : String}
    (hToken : (token, op) ∈ k.operators)
    (hText : s = token ++ rest)
    (hLongest :
      ∀ other ∈ k.operators,
        other.1.toList <+: s.toList →
          other.1.length ≤ token.length) :
    Resolves k s op rest
| default
    (hNone :
      ∀ other ∈ k.operators, ¬ other.1.toList <+: s.toList) :
    Resolves k s k.defaultOperator s

/- No token of a kind begins one that is tried after it. -/
theorem operators_apart (k : Kind) :
    k.operators.Pairwise fun first later =>
      ¬ first.1.toList <+: later.1.toList := by
  cases k with
  | integer => decide
  | string => decide
  | timestamp => decide
  | boolean => exact List.Pairwise.nil
  | oneOf values => exact List.Pairwise.nil

/- A text begins with a token exactly if something follows it. -/
theorem prefix_iff_after?
    {token : String} :
    token.toList <+: s.toList ↔
      ∃ rest, Text.after? token s = some rest := by
  simp only [Text.after?_eq_some_iff]
  constructor
  · intro h
    rcases h with ⟨rest, hRest⟩
    refine ⟨String.ofList rest, String.toList_inj.mp ?_⟩
    simp [hRest]
  · intro h
    rcases h with ⟨rest, hRest⟩
    exact ⟨rest.toList, by simp [hRest]⟩

/- The operator of a token with what follows the token. -/
def matched
    (s : String)
    (entry : String × FilterOperator) :
    Option (FilterOperator × String) :=
  (Text.after? entry.1 s).map fun rest => (entry.2, rest)

/-
  A token that begins a text, but no token after it, is as long
  as any of these that begins the text: a longer one would
  begin with it.
-/
theorem longest_of_apart
    {token : String}
    {later : List (String × FilterOperator)}
    (hApart :
      ∀ other ∈ later, ¬ token.toList <+: other.1.toList)
    (hOwn : token.toList <+: s.toList)
    {other : String × FilterOperator}
    (hOther : other ∈ later)
    (hBegins : other.1.toList <+: s.toList) :
    other.1.length ≤ token.length := by
  refine Nat.not_lt.mp fun hLonger => ?_
  refine hApart other hOther ?_
  refine List.prefix_of_prefix_length_le hOwn hBegins ?_
  simp only [String.length_toList]
  omega

/-
  Where no token begins a later one, the first that begins a
  text is the longest that does.
-/
theorem longest_of_findSome?
    {table : List (String × FilterOperator)}
    (hApart :
      table.Pairwise fun first later =>
        ¬ first.1.toList <+: later.1.toList)
    (h : table.findSome? (matched s) = some (op, rest)) :
    ∃ token,
      (token, op) ∈ table ∧ s = token ++ rest ∧
        ∀ other ∈ table,
          other.1.toList <+: s.toList →
            other.1.length ≤ token.length := by
  induction table with
  | nil => cases h
  | cons entry table ih =>
      rw [List.pairwise_cons] at hApart
      cases hFirst : Text.after? entry.1 s with
      | some after =>
          simp only [List.findSome?_cons, matched, hFirst,
            Option.map_some, Option.some.injEq,
            Prod.mk.injEq] at h
          rcases h with ⟨hOp, hRest⟩
          subst hOp hRest
          refine
            ⟨entry.1, List.mem_cons_self,
              Text.after?_eq_some_iff.mp hFirst, ?_⟩
          intro other hOther hBegins
          rcases List.mem_cons.mp hOther with hSame | hLater
          · exact Nat.le_of_eq (by rw [hSame])
          · exact
              longest_of_apart hApart.1
                (prefix_iff_after?.mpr ⟨after, hFirst⟩) hLater
                hBegins
      | none =>
          simp only [List.findSome?_cons, matched, hFirst,
            Option.map_none] at h
          rcases ih hApart.2 h with
            ⟨token, hToken, hText, hLongest⟩
          refine
            ⟨token, List.mem_cons_of_mem _ hToken, hText, ?_⟩
          intro other hOther hBegins
          rcases List.mem_cons.mp hOther with hSame | hLater
          · rw [hSame] at hBegins
            rcases prefix_iff_after?.mp hBegins with
              ⟨after, hAfter⟩
            rw [hFirst] at hAfter
            cases hAfter
          · exact hLongest other hLater hBegins

/- A filter text is resolved by its longest token. -/
theorem resolves_resolve
    (k : Kind)
    (s : String) :
    k.Resolves s (k.resolve s).1 (k.resolve s).2 := by
  have hResolve :
      k.resolve s =
        (k.operators.findSome? (matched s)).getD
          (k.defaultOperator, s) := rfl
  cases hFound : k.operators.findSome? (matched s) with
  | some found =>
      obtain ⟨op, rest⟩ := found
      rw [hResolve, hFound, Option.getD_some]
      rcases longest_of_findSome? k.operators_apart hFound with
        ⟨token, hToken, hText, hLongest⟩
      exact .token hToken hText hLongest
  | none =>
      rw [hResolve, hFound, Option.getD_none]
      refine .default ?_
      intro other hOther hBegins
      rcases prefix_iff_after?.mp hBegins with ⟨after, hAfter⟩
      have hNone := List.findSome?_eq_none_iff.mp hFound other hOther
      simp [matched, hAfter] at hNone

------------------------------------------------------------
-- Operands
------------------------------------------------------------

/-
  The value that a text stands for as the operand of a filter:
  a number, a truth value or a point in time that the text
  writes, and for strings the text or a pattern around it.
-/
inductive StandsFor : Kind → FilterOperator → String → Sql.Value → Prop
| whole
    {op : FilterOperator}
    {part : String}
    {i : Int}
    (hRead : Text.int64? (Text.trim part.toList) = some i) :
    StandsFor .integer op part (.int i)
| float
    {op : FilterOperator}
    {part : String}
    {x : Binary64}
    (hWhole : Text.int64? (Text.trim part.toList) = none)
    (hRead :
      Binary64.finite? (Text.trim part.toList) = some x) :
    StandsFor .integer op part (.float x)
| truth
    {op : FilterOperator}
    {part : String}
    {b : Bool}
    (hRead : boolean? part = some b) :
    StandsFor .boolean op part (.bool b)
| time
    {op : FilterOperator}
    {part : String}
    {t : Timestamp}
    (hRead : Timestamp.read? part = some t) :
    StandsFor .timestamp op part (.timestamp t)
| pattern
    {op : FilterOperator}
    {part : String}
    (hContains : op.contains = true)
    (hSome : part ≠ "") :
    StandsFor .string op part (.string ("%" ++ part ++ "%"))
| text
    {op : FilterOperator}
    {part : String}
    (hContains : op.contains = false)
    (hSome : part ≠ "") :
    StandsFor .string op part (.string part)
| listed
    {op : FilterOperator}
    {part : String}
    {values : List String}
    (hListed : part ∈ values) :
    StandsFor (.oneOf values) op part (.string part)

/- What a text stands for is present. -/
theorem StandsFor.isNull
    {v : Sql.Value}
    (h : k.StandsFor op s v) :
    v.isNull = false := by
  cases h <;> rfl

/- A text stands for the number that it writes. -/
theorem standsFor_integer_iff
    {v : Sql.Value} :
    Kind.integer.StandsFor op s v ↔ number? s = some v := by
  constructor
  · intro h
    cases h with
    | whole hRead => simp [number?, hRead]
    | float hWhole hRead => simp [number?, hWhole, hRead]
  · intro h
    unfold number? at h
    dsimp only at h
    split at h
    · next i hRead =>
        rw [← Option.some_inj.mp h]
        exact .whole hRead
    · next hWhole =>
        rcases Option.map_eq_some_iff.mp h with ⟨x, hRead, hValue⟩
        rw [← hValue]
        exact .float hWhole hRead

/- A text stands for the truth value that it writes. -/
theorem standsFor_boolean_iff
    {v : Sql.Value} :
    Kind.boolean.StandsFor op s v ↔
      (boolean? s).map .bool = some v := by
  rw [Option.map_eq_some_iff]
  constructor
  · intro h
    cases h with
    | truth hRead => exact ⟨_, hRead, rfl⟩
  · intro h
    rcases h with ⟨b, hRead, hValue⟩
    rw [← hValue]
    exact .truth hRead

/- A text stands for the point in time that it writes. -/
theorem standsFor_timestamp_iff
    {v : Sql.Value} :
    Kind.timestamp.StandsFor op s v ↔
      (Timestamp.read? s).map .timestamp = some v := by
  rw [Option.map_eq_some_iff]
  constructor
  · intro h
    cases h with
    | time hRead => exact ⟨_, hRead, rfl⟩
  · intro h
    rcases h with ⟨t, hRead, hValue⟩
    rw [← hValue]
    exact .time hRead

/- A string stands for itself, or for a pattern around it. -/
theorem standsFor_string_iff
    {v : Sql.Value} :
    Kind.string.StandsFor op s v ↔
      s ≠ "" ∧
        .string (if op.contains then "%" ++ s ++ "%" else s) = v := by
  constructor
  · intro h
    cases h with
    | pattern hContains hSome =>
        rw [if_pos hContains]
        exact ⟨hSome, rfl⟩
    | text hContains hSome =>
        rw [hContains]
        exact ⟨hSome, rfl⟩
  · intro h
    rw [← h.2]
    cases hContains : op.contains with
    | true => exact .pattern hContains h.1
    | false => exact .text hContains h.1

/- One of some strings stands for itself. -/
theorem standsFor_oneOf_iff
    {values : List String}
    {v : Sql.Value} :
    (Kind.oneOf values).StandsFor op s v ↔
      s ∈ values ∧ .string s = v := by
  constructor
  · intro h
    cases h with
    | listed hListed => exact ⟨hListed, rfl⟩
  · intro h
    rw [← h.2]
    exact .listed h.1

/-
  A text stands for a value exactly if it is accepted, and the
  value is then the operand of the filter.
-/
theorem standsFor_iff
    {v : Sql.Value} :
    k.StandsFor op s v ↔
      k.acceptsText s = true ∧ k.operand op s = v := by
  cases k with
  | integer =>
      rw [standsFor_integer_iff]
      cases hRead : number? s <;>
        simp [acceptsText, operand, ofText, hRead]
  | boolean =>
      rw [standsFor_boolean_iff]
      cases hRead : boolean? s <;>
        simp [acceptsText, operand, ofText, hRead]
  | timestamp =>
      rw [standsFor_timestamp_iff]
      cases hRead : Timestamp.read? s <;>
        simp [acceptsText, operand, ofText, hRead]
  | string =>
      rw [standsFor_string_iff]
      cases hContains : op.contains <;>
        simp [acceptsText, operand, ofText, hContains]
  | oneOf values =>
      rw [standsFor_oneOf_iff]
      simp [acceptsText, operand, ofText]

end Kind

end RelationalRest
