import RelationalRest.Http.Message
import RelationalRest.Json.Reader
import RelationalRest.Operation.Removal
import RelationalRest.Text.Cut

/-
  This file defines the server: which resource and operation
  a request is for, and how it is answered in conversation
  with a store.

  Key definitions include:
    * `Http.Route`
    * `Http.Route.ofPath?`
    * `Http.Server`
    * `Http.Server.respond`
-/

namespace RelationalRest

namespace Http

------------------------------------------------------------
-- Routes
------------------------------------------------------------

/- All records of a resource, or one of them, by their segments. -/
inductive Route where
| collection (segment : String)
| item (segment key : String)
deriving DecidableEq, Repr

/-
  The route of a path.  The last segment must not be empty.
-/
def Route.ofPath? (path : String) : Option Route :=
  match Text.split '/' path with
  | ["", segment] =>
      if segment = "" then none else some (.collection segment)
  | ["", segment, key] =>
      if key = "" then none else some (.item segment key)
  | _ => none

/- The route with its segments decoded, if they are valid text. -/
def Route.decode? : Route → Option Route
| .collection segment =>
    (Uri.decodeSegment? segment).map Route.collection
| .item segment key =>
    match Uri.decodeSegment? segment, Uri.decodeSegment? key with
    | some segment, some key => some (.item segment key)
    | _, _ => none

/- What is done with all records of a resource, or with one. -/
inductive Action where
| list
| create
| read
| remove
deriving DecidableEq, Repr

/- The action of a method on a route. -/
def Route.action? : Route → String → Option Action
| .collection _, method =>
    if method = "GET" ∨ method = "HEAD" then some .list
    else if method = "POST" then some .create
    else none
| .item _ _, method =>
    if method = "GET" ∨ method = "HEAD" then some .read
    else if method = "DELETE" then some .remove
    else none

/- The segment that names the resource of a route. -/
def Route.segment : Route → String
| .collection segment => segment
| .item segment _ => segment

/- The segment that names the record of a route. -/
def Route.key : Route → String
| .collection _ => ""
| .item _ key => key

------------------------------------------------------------
-- The server
------------------------------------------------------------

/- The server of a catalog. -/
structure Server where
  catalog : Catalog
  baseUrl : String
  bodyLimit : Nat

/- The length of the longest body that is ever read. -/
def longestBody : Nat :=
  Nat.pow 2 21

namespace Server

/- The request declares a body that is too long. -/
def declaresTooMuch
    (s : Server)
    (r : Request) : Bool :=
  r.declaredLength?.any (s.bodyLimit < ·)

/-
  The length to which a body is read: no more than is allowed
  and no more than is declared.
-/
def readLimit
    (s : Server)
    (r : Request) : Nat :=
  min longestBody <|
    min s.bodyLimit (r.declaredLength?.getD s.bodyLimit)

/- The body of a request, or the status of its refusal. -/
def body
    (s : Server)
    (r : Request) : Except Nat Json :=
  if ¬ r.declaresJson then
    .error 415
  else if s.readLimit r < r.bodyLength then
    .error 413
  else
    match Json.readStart r.body with
    | .ok body => .ok body
    | .error .form => .error 400
    | .error .content => .error 422

/-
  The request for the creation of records.  Slashes at the end
  of the path do not become part of a location.
-/
def creationRequest (r : Request) : RelationalRest.Request :=
  let request := r.toResource
  { request with path := Text.withoutAtEnd '/' request.path }

/- Take an action on a resource. -/
def act
    (s : Server)
    (now : Timestamp)
    (action : Action)
    (resource : Resource)
    (key : String)
    (r : Request)
    (body : Json) : Conversation Response :=
  match action with
  | .list =>
      (Survey.list s.catalog s.baseUrl resource
        r.toResource).map (Response.ofResult Response.ofListing)
  | .create =>
      (Creation.create s.catalog s.baseUrl now resource
        (creationRequest r) body).map
          (Response.ofResult Response.ofCreated)
  | .read =>
      (Lookup.find s.catalog resource key r.toResource).map
        (Response.ofResult Response.ofOutcome)
  | .remove =>
      (Removal.remove resource key r.toResource).map
        (Response.ofResult fun _ => Response.ofRemoved)

/- Take an action on the resource of a route. -/
def actOn
    (s : Server)
    (now : Timestamp)
    (action : Action)
    (route : Route)
    (r : Request)
    (body : Json) : Conversation Response :=
  match s.catalog.byPath? route.segment with
  | none =>
      .done (Response.ofError (.noSuchResource route.segment))
  | some resource => s.act now action resource route.key r body

/- Answer a request on a route whose body is not too long. -/
def follow
    (s : Server)
    (now : Timestamp)
    (route : Route)
    (r : Request) : Conversation Response :=
  match route.action? r.method, route.decode? with
  | none, _ => .done (.bare 405)
  | some _, none => .done (.bare 400)
  | some .create, some route =>
      match s.body r with
      | .error status => .done (.bare status)
      | .ok body => s.actOn now .create route r body
  | some action, some route => s.actOn now action route r .null

/-
  Answer a request.  The answer to a request for headers only
  is that to the same request with its body left out.
-/
def respond
    (s : Server)
    (now : Timestamp)
    (r : Request) : Conversation Response :=
  if s.declaresTooMuch r then
    .done (.bare 413)
  else
    match Route.ofPath? r.target.path with
    | none => .done (.bare 404)
    | some route =>
        (s.follow now route r).map fun response =>
          if r.method = "HEAD" then response.headOnly
          else response

end Server

end Http

end RelationalRest
