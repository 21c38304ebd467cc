import RelationalRest.Http.Server
import RelationalRest.Proofs.Http.Uri
import RelationalRest.Proofs.Operation.SoftDeletion
import RelationalRest.Proofs.Text.Split

/-
  Requests for one record of a resource that is served.

  Behind the path of its records a target is routed by its last
  segment, which is decoded; the record is then looked up by
  what the segment is decoded to, and by nothing else.

  Key definitions include:
    * `Http.Server.Serves`
    * `Http.Server.Leads`

  Main declarations:
    * `Http.Route.ofPath?_append`
    * `Lookup.text_eq_of_find_eq`
    * `Http.Server.Serves.respond_eq`
    * `Http.Server.Serves.leads_iff`
-/

namespace RelationalRest

variable {c : Catalog}
variable {r : Resource}

------------------------------------------------------------
-- Routes
------------------------------------------------------------

namespace Http.Route

/- The path of a collection has one segment. -/
theorem eq_of_collection
    {path segment : String}
    (h : ofPath? path = some (.collection segment)) :
    path = "/" ++ segment ∧ '/' ∉ segment.toList := by
  have hPieces : Text.split '/' path = ["", segment] := by
    unfold ofPath? at h
    split at h
    · next hSplit =>
        split at h
        · cases h
        · cases h
          exact hSplit
    · split at h
      · cases h
      · cases h
    · cases h
  have hPath : path = "/" ++ segment := by
    have hParts := Text.eq_append_of_split hPieces
    simpa using hParts
  refine ⟨hPath, fun hSlash => ?_⟩
  rcases Text.exists_split_of_mem hSlash with
    ⟨first, second, rest, hSegment⟩
  have hSplit :
      Text.split '/' path = "" :: Text.split '/' segment := by
    rw [hPath]
    have hNone : '/' ∉ "".toList := by simp
    exact Text.split_append hNone segment
  rw [hPieces, hSegment] at hSplit
  simp at hSplit

/-
  A text behind the path of a collection is the key of one
  record, unless it is empty or has a slash.
-/
theorem ofPath?_append
    {path segment : String}
    (h : ofPath? path = some (.collection segment))
    (text : String) :
    ofPath? (path ++ "/" ++ text) =
      if text = "" ∨ '/' ∈ text.toList then none
      else some (.item segment text) := by
  rcases eq_of_collection h with ⟨rfl, hSegment⟩
  have hSplit :
      Text.split '/' ("/" ++ segment ++ "/" ++ text) =
        "" :: segment :: Text.split '/' text := by
    have hOuter :
        Text.split '/'
            ("" ++ String.singleton '/' ++
              (segment ++ "/" ++ text)) =
          "" :: Text.split '/' (segment ++ "/" ++ text) :=
      Text.split_append (by simp) _
    have hInner :
        Text.split '/' (segment ++ "/" ++ text) =
          segment :: Text.split '/' text :=
      Text.split_append hSegment text
    have hWhole :
        "/" ++ segment ++ "/" ++ text =
          "" ++ String.singleton '/' ++
            (segment ++ "/" ++ text) := by
      apply String.toList_inj.mp
      simp
    rw [hWhole, hOuter]
    exact congrArg ("" :: ·) hInner
  unfold ofPath?
  rw [hSplit]
  by_cases hSlash : '/' ∈ text.toList
  · rcases Text.exists_split_of_mem hSlash with
      ⟨first, second, rest, hPieces⟩
    rw [hPieces, if_pos (.inr hSlash)]
    rfl
  · rw [Text.split_eq_singleton hSlash]
    simp [hSlash]

end Http.Route

------------------------------------------------------------
-- Lookups
------------------------------------------------------------

/- Responses to causes with different wordings differ. -/
theorem Http.Response.message_eq_of_ofError
    {e e' : RequestError}
    (h : ofError e = ofError e') :
    e.message = e'.message := by
  simp only [ofError, ofJson, Response.mk.injEq,
    Option.some.injEq, Json.object.injEq, List.cons.injEq,
    Prod.mk.injEq, Json.string.injEq, true_and, and_true] at h
  exact h.2.2

namespace Lookup

/-
  The key of a lookup is that of its query: what precedes it
  are the conditions of a record that is not deleted.
-/
theorem keyValue_of_query
    {text key : String}
    {value : Sql.Value}
    {params : Params}
    {q : Sql.Query}
    (hSound : c.Sound)
    (hr : r ∈ c.resources)
    (hQuery : query c r text params = .ok q)
    (hConditions :
      q.conditions =
        r.liveCondition?.toList ++
          [.equal (r.column key) value]) :
    r.keyValue text = .ok (key, value) := by
  cases hKey : r.keyValue text with
  | error e => simp [query, hKey] at hQuery
  | ok found =>
      obtain ⟨name, other⟩ := found
      rcases exists_query hSound hr hKey params with
        ⟨q', hQuery', _, hConditions'⟩
      rw [hQuery] at hQuery'
      cases hQuery'
      rw [hConditions] at hConditions'
      have hLast := List.append_cancel_left hConditions'
      simp only [Sql.Condition.equal, Resource.column,
        List.cons.injEq, and_true, Sql.Condition.compare.injEq,
        Sql.Column.mk.injEq, true_and] at hLast
      rw [hLast.1, hLast.2]

/- A lookup with a query asks the store. -/
theorem not_silent_find
    {text : String}
    {request : Request}
    {q : Sql.Query}
    (hQuery : query c r text request.params = .ok q) :
    ¬ (find c r text request).Silent := by
  simp [find, hQuery, Conversation.Silent]

/- Lookups that are answered alike look up the same text. -/
theorem text_eq_of_find_eq
    {text text' : String}
    {request : Request}
    {q : Sql.Query}
    (hQuery : query c r text request.params = .ok q)
    (h :
      (find c r text request).map
          (Http.Response.ofResult Http.Response.ofOutcome) =
        (find c r text' request).map
          (Http.Response.ofResult Http.Response.ofOutcome)) :
    text = text' := by
  unfold find at h
  rw [hQuery] at h
  cases hOther : query c r text' request.params with
  | error e =>
      rw [hOther] at h
      cases h
  | ok q' =>
      rw [hOther] at h
      -- where nothing is found, the answer names the text
      have hMissing :
          Conversation.done
              (Http.Response.ofError (.noSuchRecord text)) =
            .done
              (Http.Response.ofError (.noSuchRecord text')) :=
        congrFun (Conversation.fetchRows.inj h).2 (.ok [])
      have hMessage :
          ErrorClass.notFound.opening ++ text =
            ErrorClass.notFound.opening ++ text' :=
        Http.Response.message_eq_of_ofError
          (Conversation.done.inj hMissing)
      simpa using hMessage

end Lookup

------------------------------------------------------------
-- Requests for one record
------------------------------------------------------------

/- What is done with each result does not change the others. -/
theorem Conversation.map_eq_self
    {α : Type}
    {f : α → α}
    (hSame : ∀ a, f a = a)
    (talk : Conversation α) :
    talk.map f = talk := by
  induction talk with
  | done a => exact congrArg Conversation.done (hSame a)
  | fetchRows s next ih =>
      exact congrArg (Conversation.fetchRows s) (funext ih)
  | fetchCount s next ih =>
      exact congrArg (Conversation.fetchCount s) (funext ih)
  | execute s next ih =>
      exact congrArg (Conversation.execute s) (funext ih)

namespace Http.Server

variable {s : Server}
variable {path : String}

/-
  A path without a query is that of the records of a resource.
-/
structure Serves
    (s : Server)
    (r : Resource)
    (path : String) : Prop where
  plain : ∀ c ∈ ['?', '#'], c ∉ path.toList
  routed :
    ∃ segment decoded,
      Route.ofPath? path = some (.collection segment) ∧
        Uri.decodeSegment? segment = some decoded ∧
        s.catalog.byPath? decoded = some r

/- A resource that is served is one of the catalog. -/
theorem Serves.mem_resources
    (h : s.Serves r path) :
    r ∈ s.catalog.resources := by
  rcases h.routed with ⟨segment, decoded, _, _, hResource⟩
  exact List.mem_of_find?_eq_some hResource

/-
  Every request for a target, once it has arrived, is answered
  by the lookup of one text, which demands a value of the key.
-/
def Leads
    (s : Server)
    (r : Resource)
    (target key : String)
    (value : Sql.Value) : Prop :=
  ∃ text,
    (∀ now request,
      request.method = "GET" →
        request.target = Uri.ofText target →
          s.declaresTooMuch request = false →
            s.respond now request =
              (Lookup.find s.catalog r text
                request.toResource).map
                  (Response.ofResult Response.ofOutcome)) ∧
    ∀ params, ∃ q,
      Lookup.query s.catalog r text params = .ok q ∧
        q.conditions =
          r.liveCondition?.toList ++
            [.equal (r.column key) value]

/- The path of a target behind a path that is served. -/
theorem Serves.path_ofText
    (h : s.Serves r path)
    (text : String) :
    (Uri.ofText (path ++ "/" ++ text)).path =
      path ++ "/" ++ Uri.segmentOf text := by
  rcases h.routed with ⟨segment, _, hRoute, _⟩
  have hPath := (Route.eq_of_collection hRoute).1
  refine Uri.path_ofText_append ?_ (h.plain '?' (by simp))
    (h.plain '#' (by simp)) text
  simp [hPath]

/- What is answered to a request behind a path that is served. -/
theorem Serves.respond_eq
    (h : s.Serves r path)
    (now : Timestamp)
    {request : Http.Request}
    {text : String}
    (hMethod : request.method = "GET")
    (hTarget : request.target = Uri.ofText (path ++ "/" ++ text))
    (hSize : s.declaresTooMuch request = false) :
    s.respond now request =
      if Uri.segmentOf text = "" ∨
          '/' ∈ (Uri.segmentOf text).toList then
        .done (.bare 404)
      else
        match Uri.decodeSegment? (Uri.segmentOf text) with
        | none => .done (.bare 400)
        | some key =>
            (Lookup.find s.catalog r key request.toResource).map
              (Response.ofResult Response.ofOutcome) := by
  rcases h.routed with
    ⟨segment, decoded, hRoute, hDecoded, hResource⟩
  unfold respond
  rw [hSize, hTarget, h.path_ofText, Route.ofPath?_append hRoute]
  split
  · next hTooMuch => cases hTooMuch
  · by_cases hNone :
        Uri.segmentOf text = "" ∨
          '/' ∈ (Uri.segmentOf text).toList
    · rw [if_pos hNone, if_pos hNone]
    · rw [if_neg hNone, if_neg hNone]
      dsimp only
      rw [Conversation.map_eq_self fun response => by
        simp [hMethod]]
      cases hKey : Uri.decodeSegment? (Uri.segmentOf text) with
      | none =>
          simp [follow, Route.action?, Route.decode?, hMethod,
            hDecoded, hKey]
      | some key =>
          simp [follow, Route.action?, Route.decode?, hMethod,
            hDecoded, hKey, actOn, Route.segment, Route.key,
            hResource, act]

/-
  A text behind a path that is served leads to a value exactly
  if its last segment is decoded to a text of the value.
-/
theorem Serves.leads_iff
    (h : s.Serves r path)
    (hSound : s.catalog.Sound)
    {text key : String}
    {value : Sql.Value} :
    s.Leads r (path ++ "/" ++ text) key value ↔
      Uri.segmentOf text ≠ "" ∧
        '/' ∉ (Uri.segmentOf text).toList ∧
        ∃ found,
          Uri.decodeSegment? (Uri.segmentOf text) = some found ∧
            r.keyValue found = .ok (key, value) := by
  have hr := h.mem_resources
  constructor
  · rintro ⟨found, hRespond, hQuery⟩
    let request : Http.Request :=
      { method := "GET"
        target := Uri.ofText (path ++ "/" ++ text)
        arrival := { path := path } }
    have hSize : s.declaresTooMuch request = false := rfl
    have hFind := hRespond ⟨0, 0, 0⟩ request rfl rfl hSize
    rw [h.respond_eq _ rfl rfl hSize] at hFind
    rcases hQuery request.toResource.params with
      ⟨q, hQuery, hConditions⟩
    have hSent :
        ¬ (Lookup.find s.catalog r found
            request.toResource).Silent :=
      Lookup.not_silent_find hQuery
    rw [← Conversation.silent_map_iff, ← hFind] at hSent
    split at hSent
    · exact absurd trivial hSent
    · next hPlain =>
        rw [not_or] at hPlain
        rw [if_neg (not_or.mpr hPlain)] at hFind
        cases hDecoded : Uri.decodeSegment? (Uri.segmentOf text) with
        | none =>
            rw [hDecoded] at hSent
            exact absurd trivial hSent
        | some other =>
            rw [hDecoded] at hFind
            have hSame : found = other :=
              Lookup.text_eq_of_find_eq hQuery hFind.symm
            subst hSame
            exact ⟨hPlain.1, hPlain.2, found, rfl,
              Lookup.keyValue_of_query hSound hr hQuery
                hConditions⟩
  · rintro ⟨hSome, hSlash, found, hDecoded, hKey⟩
    refine ⟨found, ?_, ?_⟩
    · intro now request hMethod hTarget hSize
      rw [h.respond_eq now hMethod hTarget hSize,
        if_neg (by simp [hSome, hSlash]), hDecoded]
    · intro params
      rcases Lookup.exists_query hSound hr hKey params with
        ⟨q, hQuery, _, hConditions⟩
      exact ⟨q, hQuery, hConditions⟩

end Http.Server

end RelationalRest
