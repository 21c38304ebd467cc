import RelationalRest.Fields
import RelationalRest.Json.Basic
import RelationalRest.Text.FormEncoding

/-
  This file defines requests: the path they arrived on, their
  query parameters, and the actor who makes them.

  Key definitions include:
    * `Params`
    * `Params.parse`
    * `Params.encode`
    * `Actor`
    * `Request`
-/

namespace RelationalRest

------------------------------------------------------------
-- Query parameters
------------------------------------------------------------

/-
  Query parameters in the order of the request.  A repeated
  name keeps its first position and its last value.
-/
structure Params where
  pairs : Fields String := []
deriving DecidableEq, Repr

namespace Params

/- The parameters of a query text. -/
def parse (query : String) : Params :=
  ⟨Fields.ofList (FormEncoding.decode query)⟩

/- The query text of parameters. -/
def encode (p : Params) : String :=
  FormEncoding.encode p.pairs

/- The value of a parameter. -/
def get?
    (p : Params)
    (name : String) : Option String :=
  Fields.get? p.pairs name

/- A parameter is present. -/
def contains
    (p : Params)
    (name : String) : Bool :=
  Fields.contains p.pairs name

/- Set a parameter, in its place if it is present. -/
def set
    (p : Params)
    (name value : String) : Params :=
  ⟨Fields.insert p.pairs name value⟩

/- Remove a parameter; the others keep their order. -/
def remove
    (p : Params)
    (name : String) : Params :=
  ⟨Fields.erase p.pairs name⟩

/- A parameter is present if it has a value. -/
theorem contains_eq
    (p : Params)
    (name : String) :
    p.contains name = (p.get? name).isSome :=
  rfl

/- Parsed parameters have distinct names. -/
theorem distinct_parse (query : String) :
    Fields.Distinct (parse query).pairs :=
  Fields.distinct_ofList _

end Params

------------------------------------------------------------
-- Actors and requests
------------------------------------------------------------

/- The caller that was recognized, by the fields known of it. -/
structure Actor where
  fields : Fields Json

namespace Actor

/- The actor of whom only a number is known. -/
def ofId (id : Int) : Actor where
  fields := [("id", .number (.int id))]

/- What is known under a name. -/
def field?
    (a : Actor)
    (name : String) : Option Json :=
  Fields.get? a.fields name

end Actor

/- A request to a resource. -/
structure Request where
  path : String
  params : Params
  actor : Option Actor

/- What is known of the actor under a name, if there is one. -/
def Request.actorField?
    (r : Request)
    (name : String) : Option Json :=
  r.actor.bind fun a => a.field? name

end RelationalRest
