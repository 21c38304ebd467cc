import RelationalRest.Error.Request
import RelationalRest.Hook
import RelationalRest.Http.MediaType
import RelationalRest.Http.Uri
import RelationalRest.Json.Printer
import RelationalRest.Operation.Creation
import RelationalRest.Operation.Survey

/-
  This file defines the messages between a caller and the
  server, and the responses for the results of operations.

  Key definitions include:
    * `Http.Request`
    * `Http.Response`
    * `Http.Response.bodyText`
    * `Http.Response.ofError`
    * `Http.Response.ofOutcome`
    * `Http.Response.ofListing`
    * `Http.Response.ofCreated`
-/

namespace RelationalRest

namespace Http

------------------------------------------------------------
-- Headers
------------------------------------------------------------

/- Headers in order; the names are in small letters. -/
abbrev Headers :=
  List (String × String)

namespace Headers

/- The first value of a header. -/
def get?
    (headers : Headers)
    (name : String) : Option String :=
  Fields.get? headers name

/- A text can be the value of a header. -/
def isValue (s : String) : Bool :=
  s.toList.all fun c =>
    c == '\t' || (0x20 ≤ c.toNat && c.toNat != 0x7f)

/- The header of a name, if a text can be its value. -/
def ofValue (name value : String) : Headers :=
  if isValue value then [(name, value)] else []

/- A value of which every character can be shown in ASCII. -/
def visible? (value : String) : Option String :=
  if value.toList.all fun c =>
      c == '\t' || (0x20 ≤ c.toNat && c.toNat < 0x7f) then
    some value
  else
    none

end Headers

------------------------------------------------------------
-- Requests
------------------------------------------------------------

/-
  A request, the actor who was recognized in it, and the
  target at which it arrived before it was routed here.
-/
structure Request where
  method : String
  target : Uri
  arrival : Uri
  headers : Headers := []
  body : String := ""
  actor : Option Actor := none

namespace Request

/- The length that a request declares for its body. -/
def declaredLength? (r : Request) : Option Nat :=
  ((r.headers.get? "content-length").bind
    Headers.visible?).bind fun value => Text.nat64? value.toList

/- The length of the body in octets. -/
def bodyLength (r : Request) : Nat :=
  r.body.utf8ByteSize

/- A request declares that its body is a JSON text. -/
def declaresJson (r : Request) : Bool :=
  (((r.headers.get? "content-type").bind
    Headers.visible?).bind MediaType.ofText?).any
      MediaType.isJson

/- What an operation on a resource needs of a request. -/
def toResource (r : Request) : RelationalRest.Request where
  path := r.arrival.path
  params := Params.parse (r.arrival.query.getD "")
  actor := r.actor

end Request

------------------------------------------------------------
-- Responses
------------------------------------------------------------

/- A response. -/
structure Response where
  status : Nat
  headers : Headers := []
  body : Option Json := none

namespace Response

/- A response without a body. -/
def bare (status : Nat) : Response where
  status := status

/- A response with a body. -/
def ofJson
    (status : Nat)
    (body : Json) : Response where
  status := status
  headers := [("content-type", "application/json")]
  body := some body

/- Put headers before those of a response. -/
def withHeaders
    (r : Response)
    (headers : Headers) : Response :=
  { r with headers := headers ++ r.headers }

/- A response with its headers only. -/
def headOnly (r : Response) : Response :=
  { r with body := none }

/- The response to a request that is refused or fails. -/
def ofError (e : RequestError) : Response :=
  ofJson e.status <|
    .object
      [("error",
        .object
          [("code", .string e.errorClass.code),
            ("message", .string e.message)])]

/- The text of the body as it is sent; empty without a body. -/
def bodyText (r : Response) : String :=
  (r.body.map Json.text).getD ""

/- A status of three digits. -/
def isStatus (n : Nat) : Bool :=
  100 ≤ n && n ≤ 999

/-
  The response for an outcome.  An answer in its place with a
  number that is no status is sent as a success.
-/
def ofOutcome : Outcome → Response
| .send body => ofJson 200 body
| .takeOver status body =>
    ofJson (if isStatus status then status else 200) body

/- The headers that lead to other pages. -/
def linkHeaders (links : PageLinks) : Headers :=
  Headers.ofValue "x-first" links.first ++
    Headers.ofValue "x-last" links.last ++
    Headers.ofValue "x-next" links.next ++
    Headers.ofValue "x-prev" links.previous

/- The response for a page of a listing. -/
def ofListing (l : Listing) : Response :=
  (ofOutcome l.outcome).withHeaders <|
    Headers.ofValue "x-length" (toString l.length) ++
      Headers.ofValue "x-total-length" (toString l.total) ++
      (l.links.map linkHeaders).getD []

/- The response for created records. -/
def ofCreated (c : Created) : Response :=
  let response :=
    match c.body with
    | some body => ofJson 201 body
    | none => bare 201
  response.withHeaders <|
    (c.location.map (Headers.ofValue "link")).getD []

/- The response for a removed record. -/
def ofRemoved : Response :=
  bare 204

/- The response for a result, if there is one. -/
def ofResult
    {α : Type}
    (success : α → Response) : Except RequestError α → Response
| .ok a => success a
| .error e => ofError e

end Response

end Http

end RelationalRest
