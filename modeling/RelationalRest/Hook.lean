import RelationalRest.Json.Basic

/-
  This file defines hooks, which see a response before it is
  sent and may change it or answer in its place.

  Key definitions include:
    * `Outcome`
    * `Hook`
    * `Hook.each`
    * `Hook.ofSingle`
-/

namespace RelationalRest

/- A body to send, or an answer in its place. -/
inductive Outcome where
| send (body : Json)
| takeOver (status : Nat) (body : Json)

/- What a resource does with one record and with a listing. -/
structure Hook where
  single : Json → Outcome
  collection : List Json → Outcome

namespace Hook

/-
  Treat the records of a listing one by one.  The first that
  is answered in its place answers for the listing.
-/
def each
    (single : Json → Outcome)
    (records : List Json) : Except Outcome (List Json) :=
  records.mapM fun record =>
    match single record with
    | .send body => .ok body
    | takeOver => .error takeOver

/- Treat a listing record by record. -/
def collectEach
    (single : Json → Outcome)
    (records : List Json) : Outcome :=
  match each single records with
  | .ok bodies => .send (.array bodies)
  | .error takeOver => takeOver

/- The hook that treats a listing record by record. -/
def ofSingle (single : Json → Outcome) : Hook where
  single := single
  collection := collectEach single

/- The hook that lets everything pass. -/
def pass : Hook :=
  ofSingle .send

end Hook

end RelationalRest
