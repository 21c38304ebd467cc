import RelationalRest.Proofs.Http.Serving
import RelationalRest.Proofs.Kind.PlainText
import RelationalRest.Proofs.Operation.Rejection

/-
  Where the location of a created record leads.

  The location ends with the plain text of the record's key.
  A request for it looks the key up exactly if its plain text
  stands for itself in a path.  That holds of all keys but
  strings of a kind that holds strings.

  Key definitions include:
    * `Creation.Returns`

  Main declarations:
    * `Http.Server.Serves.leads_plainText_iff`
    * `Creation.location_of_returns`
    * `Catalog.Resolved.location_leads_iff`
-/

namespace RelationalRest

variable {c : Catalog}
variable {r : Resource}

------------------------------------------------------------
-- Keys
------------------------------------------------------------

variable {key : String}
variable {kind : Kind}
variable {id : Json}

/- Kinds that hold strings tell all texts apart. -/
theorem Kind.eq_of_ofText
    {text text' : String}
    (hHolds :
      ¬ (kind = .integer ∨ kind = .boolean ∨ kind = .timestamp))
    (h : kind.ofText text = kind.ofText text') :
    text = text' := by
  cases kind with
  | integer => simp at hHolds
  | boolean => simp at hHolds
  | timestamp => simp at hHolds
  | string => exact Sql.Value.string.inj h
  | oneOf values => exact Sql.Value.string.inj h

/-
  The plain text of an accepted key leads to its value exactly
  if it stands for itself.
-/
theorem Http.Server.Serves.leads_plainText_iff
    {s : Server}
    {path : String}
    (h : s.Serves r path)
    (hSound : s.catalog.Sound)
    (hKind : r.keyKind = .ok (key, kind))
    (hFits : ∀ n, id = .number n → n.Fits)
    (hPresent : id ≠ .null)
    (hAccepts : kind.acceptsJson id = true) :
    s.Leads r (path ++ "/" ++ id.plainText) key
        (kind.ofJson id) ↔
      Uri.IsSegment id.plainText := by
  rw [h.leads_iff hSound]
  simp only [Resource.keyValue_eq_ok_iff hKind]
  constructor
  · rintro ⟨hSome, hSlash, found, hDecoded, _, hValue⟩
    by_cases hString :
        ∀ text, id = .string text →
          kind = .integer ∨ kind = .boolean ∨ kind = .timestamp
    · exact Kind.isSegment_plainText hFits hPresent hAccepts
        hString
    · push Not at hString
      rcases hString with ⟨text, rfl, hHolds⟩
      rw [(Kind.acceptsJson_string kind text).2] at hValue
      have hSame : found = text :=
        Kind.eq_of_ofText (by simpa using hHolds) hValue
      subst hSame
      exact Uri.isSegment_iff.mpr ⟨hSome, hSlash, hDecoded⟩
  · intro hSegment
    rcases Uri.isSegment_iff.mp hSegment with
      ⟨hSome, hSlash, hDecoded⟩
    rcases Kind.ofText_plainText hFits hPresent hAccepts with
      ⟨hText, hValue⟩
    exact ⟨hSome, hSlash, _, hDecoded, ⟨hSegment.1, hText⟩,
      hValue⟩

------------------------------------------------------------
-- Locations
------------------------------------------------------------

namespace Creation

variable {σ : Type}
variable {baseUrl : String}
variable {now : Timestamp}
variable {request : Request}
variable {body : Json}
variable {store : Store σ}
variable {state : σ}

/-
  A store answers the insertion of the records of a body with
  rows of which the first key is a value.
-/
def Returns
    (r : Resource)
    (now : Timestamp)
    (request : Request)
    (body : Json)
    (store : Store σ)
    (state : σ)
    (id : Json) : Prop :=
  ∃ items many values key inserted,
    records body = .ok (items, many) ∧
      rows r now request.actor items = .ok values ∧
      r.primaryKey = some key ∧
      (store.fetchRows (insertion r values).statement state).1 =
        .ok inserted ∧
      (inserted.filterMap fun row =>
        Fields.get? row key).head? = some id

/- After such an answer the location is that of the value. -/
theorem run_create_of_returns
    (c : Catalog)
    (baseUrl : String)
    (h : Returns r now request body store state id) :
    ∃ many ids state',
      (create c baseUrl now r request body).run store state =
        (expand c r request many ids
          (some (location baseUrl request id))).run
            store state' := by
  rcases h with
    ⟨items, many, values, key, inserted, hRecords, hRows, hKey,
      hInserted, hFirst⟩
  refine
    ⟨many, inserted.filterMap fun row => Fields.get? row key,
      (store.fetchRows (insertion r values).statement state).2,
      ?_⟩
  simp only [create, hRecords, hRows, insertAll, hKey,
    Conversation.run, hInserted, hFirst, Option.map_some]

/- Reading records back does not change their location. -/
theorem location_of_expand
    {many : Bool}
    {ids : List Json}
    {place : Option String}
    {created : Created}
    (h :
      ((expand c r request many ids place).run store state).1 =
        .ok created) :
    created.location = place := by
  unfold expand at h
  split at h
  · split at h
    · cases h
    · simp only [Conversation.run] at h
      split at h
      · cases h
      · cases h
        rfl
  · cases h
    rfl

/- The location of what was created. -/
theorem location_of_returns
    {created : Created}
    (h : Returns r now request body store state id)
    (hCreated :
      ((create c baseUrl now r request body).run store state).1 =
        .ok created) :
    created.location =
      some (baseUrl ++ (request.path ++ "/" ++ id.plainText)) := by
  rcases run_create_of_returns c baseUrl h with
    ⟨many, ids, state', hRun⟩
  rw [hRun] at hCreated
  rw [location_of_expand hCreated, location]
  simp [String.append_assoc]

/- Unless records are to be read back, they are created. -/
theorem exists_created
    (c : Catalog)
    (baseUrl : String)
    (h : Returns r now request body store state id)
    (hExpand : request.params.contains "expand" = false) :
    ∃ created,
      ((create c baseUrl now r request body).run store state).1 =
        .ok created := by
  rcases run_create_of_returns c baseUrl h with
    ⟨many, ids, state', hRun⟩
  rw [hRun]
  refine ⟨{ location := some (location baseUrl request id) }, ?_⟩
  simp [expand, hExpand, Conversation.run]

end Creation

------------------------------------------------------------
-- Resolved catalogs
------------------------------------------------------------

/- Notes whose key is a text. -/
def Declaration.labelled : List Declaration :=
  [ { name := "notes"
      table := "note"
      primaryKey := some "id"
      fields :=
        [ ("id", { type := .named "string", props := ["default"] })
        , ("text", { type := .named "string" }) ] } ]

/- The server of such notes. -/
def Http.Server.labelled : Server where
  catalog := (Declaration.resolve Declaration.labelled).toOption.getD {}
  baseUrl := "http://localhost:3000"
  bodyLimit := 100

/- The resource of such notes. -/
def Resource.labelled : Resource :=
  (Http.Server.labelled.catalog.find? "notes").get rfl

/- A request to the collection of notes. -/
def Request.labelled : Request where
  path := "/notes"
  params := {}
  actor := none

/- A note without a key. -/
def Creation.labelled : Json :=
  .object [("text", .string "a")]

/- A store that gives a text back as a key. -/
def Store.labelling (text : String) : Store Unit where
  fetchRows := fun _ state => (.ok [[("id", .string text)]], state)
  fetchCount := fun _ state => (.ok 0, state)
  execute := fun _ state => (.ok 0, state)

/- The notes are served. -/
theorem Http.Server.serves_labelled :
    labelled.Serves Resource.labelled "/notes" where
  plain := by simp
  routed := ⟨"notes", "notes", rfl, rfl, rfl⟩

/- The key that such a store gives back. -/
theorem Creation.returns_labelled (text : String) :
    Returns Resource.labelled ⟨0, 0, 0⟩ Request.labelled labelled
      (Store.labelling text) () (.string text) :=
  ⟨_, _, _, _, _, rfl, rfl, rfl, rfl, rfl⟩

namespace Catalog.Resolved

variable {σ : Type}

/-
  The records of a body are created under a location that ends
  with the plain text of the first key that the store gives
  back.  A request for it looks up a record with just the value
  by which created records are read back, exactly if that text
  stands for itself in a path; and so it does, unless the key
  is a string of a kind that holds strings.
-/
theorem location_leads_iff
    {s : Http.Server}
    (hResolved : s.catalog.Resolved)
    {request : Request}
    (hServes : s.Serves r request.path)
    {now : Timestamp}
    {body : Json}
    {store : Store σ}
    {state : σ}
    {id : Json}
    (hReturns :
      Creation.Returns r now request body store state id)
    (hFits : ∀ n, id = .number n → n.Fits)
    (hPresent : id ≠ .null) :
    ∃ key kind,
      r.keyKind = .ok (key, kind) ∧
      (∀ created,
        ((Creation.create s.catalog s.baseUrl now r request
            body).run store state).1 = .ok created →
          created.location =
            some
              (s.baseUrl ++
                (request.path ++ "/" ++ id.plainText))) ∧
      (request.params.contains "expand" = false →
        ∃ created,
          ((Creation.create s.catalog s.baseUrl now r request
            body).run store state).1 = .ok created) ∧
      (∀ ids, ∃ q,
        Creation.expansion s.catalog r ids = .ok q ∧
          .anyOf
              (ids.map fun id =>
                .equal (r.column key) (kind.ofJson id)) ∈
            q.conditions) ∧
      (kind.acceptsJson id = true →
        (s.Leads r (request.path ++ "/" ++ id.plainText) key
            (kind.ofJson id) ↔
          Uri.IsSegment id.plainText) ∧
        ((∀ text, id = .string text →
          kind = .integer ∨ kind = .boolean ∨
            kind = .timestamp) →
          Uri.IsSegment id.plainText)) := by
  have hSound := hResolved.sound
  have hr := hServes.mem_resources
  have hStored := hReturns
  rcases hStored with ⟨_, _, _, key, _, _, _, hKey, _, _⟩
  rcases hResolved.exists_keyKind hr hKey with ⟨kind, hKind⟩
  refine ⟨key, kind, hKind, ?_, ?_, ?_, ?_⟩
  · intro created hCreated
    exact Creation.location_of_returns hReturns hCreated
  · exact Creation.exists_created s.catalog s.baseUrl hReturns
  · exact Creation.exists_expansion_of_keyKind hSound hr hKind
  · intro hAccepts
    exact
      ⟨hServes.leads_plainText_iff hSound hKind hFits hPresent
          hAccepts,
        Kind.isSegment_plainText hFits hPresent hAccepts⟩

/- The location of a note leads to its key, and a plus sign stays. -/
theorem location_leads_iff_sample :
    Http.Server.labelled.catalog.Resolved ∧
      ((Creation.create Http.Server.labelled.catalog
          Http.Server.labelled.baseUrl ⟨0, 0, 0⟩
          Resource.labelled Request.labelled
          Creation.labelled).run
            (Store.labelling "a+b") ()).1.isOk = true ∧
      Http.Server.labelled.Leads Resource.labelled "/notes/a+b"
        "id" (.string "a+b") := by
  have hResolved : Http.Server.labelled.catalog.Resolved :=
    ⟨Declaration.labelled, Http.Server.labelled.catalog, rfl, rfl⟩
  have hServes :
      Http.Server.labelled.Serves Resource.labelled
        Request.labelled.path :=
    Http.Server.serves_labelled
  rcases location_leads_iff hResolved hServes
      (Creation.returns_labelled "a+b")
      (fun n hn => by cases hn) (by simp) with
    ⟨key, kind, hKind, _, _, _, hLeads⟩
  cases hKind
  have hSegment : Uri.IsSegment "a+b" := by
    refine Uri.isSegment_of_inert (by decide) ?_
    simp [Uri.Inert]
  exact ⟨hResolved, rfl, (hLeads rfl).1.mpr hSegment⟩

end Catalog.Resolved

/-
  A note is created with a key that has a percent sign, and its
  location leads to another key.
-/
theorem Http.Server.exists_location_astray :
    Declaration.resolve Declaration.labelled =
        .ok labelled.catalog ∧
      labelled.Serves Resource.labelled Request.labelled.path ∧
      Resource.labelled.keyKind = .ok ("id", .string) ∧
      Kind.acceptsJson .string (.string "50%25") = true ∧
      ((Creation.create labelled.catalog labelled.baseUrl
          ⟨0, 0, 0⟩ Resource.labelled Request.labelled
          Creation.labelled).run
            (Store.labelling "50%25") ()).1.toOption.bind
          Created.location =
        some "http://localhost:3000/notes/50%25" ∧
      labelled.Leads Resource.labelled "/notes/50%25" "id"
        (Kind.ofJson .string (.string "50%")) ∧
      ¬ labelled.Leads Resource.labelled "/notes/50%25" "id"
        (Kind.ofJson .string (.string "50%25")) := by
  have hSound : labelled.catalog.Sound :=
    Catalog.sound_of_resolve
      (show Declaration.resolve Declaration.labelled =
        .ok labelled.catalog from rfl)
  have hLeads :
      ∀ value,
        labelled.Leads Resource.labelled "/notes/50%25" "id"
            value ↔
          value = .string "50%" := by
    intro value
    have hTarget : "/notes/50%25" = "/notes" ++ "/" ++ "50%25" :=
      rfl
    have hSegment : Uri.segmentOf "50%25" = "50%25" := rfl
    have hDecoded : Uri.decodeSegment? "50%25" = some "50%" := rfl
    have hKey :
        Resource.labelled.keyValue "50%" =
          .ok ("id", .string "50%") := rfl
    rw [hTarget, serves_labelled.leads_iff hSound, hSegment,
      hDecoded]
    constructor
    · rintro ⟨_, _, found, hFound, hValue⟩
      cases hFound
      rw [hKey] at hValue
      cases hValue
      rfl
    · rintro rfl
      exact ⟨by decide, by decide, _, rfl, hKey⟩
  refine
    ⟨rfl, serves_labelled, rfl, rfl, rfl, (hLeads _).mpr rfl, ?_⟩
  rw [hLeads]
  exact fun hSame => absurd (Sql.Value.string.inj hSame) (by decide)

end RelationalRest
