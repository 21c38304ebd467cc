import RelationalRest.Text.Cut
import RelationalRest.Text.Numeral

/-
  This file defines the settings of a server, which are read
  from named variables.

  Key definitions include:
    * `Settings`
    * `Settings.Error`
    * `Settings.ofLookup`
-/

namespace RelationalRest

/- The settings of a server. -/
structure Settings where
  databaseUrl : String
  baseUrl : String
  listenAddress : String
  resourceConfig : String
  maxConnections : Nat
  bodyLimit : Nat
deriving DecidableEq, Repr

namespace Settings

/- What is wrong with the variables. -/
inductive Error where
| notSet (name : String)
| notANumber (name value : String)
deriving DecidableEq, Repr

/- The wording of an error. -/
def Error.message : Error → String
| .notSet name => s!"config load: {name} is not set"
| .notANumber name value =>
    s!"config load: {name} '{value}' is not a number"

/- A variable that must be set. -/
def required
    (lookup : String → Option String)
    (name : String) : Except Error String :=
  match lookup name with
  | some value => .ok value
  | none => .error (.notSet name)

/- A number below a bound, or a default where none is set. -/
def number
    (lookup : String → Option String)
    (name : String)
    (bound default : Nat) : Except Error Nat :=
  match lookup name with
  | none => .ok default
  | some value =>
      match Text.unsigned? bound value.toList with
      | some n => .ok n
      | none => .error (.notANumber name value)

/-
  The settings that variables give.  They are looked at in a
  fixed order, and the first error wins.
-/
def ofLookup
    (lookup : String → Option String) : Except Error Settings := do
  let databaseUrl ← required lookup "DATABASE_URL"
  let resourceConfig ← required lookup "RESOURCE_CONFIG"
  let maxConnections ←
    number lookup "DATABASE_MAX_CONNECTIONS" (Nat.pow 2 32) 5
  let bodyLimit ←
    number lookup "BODY_LIMIT_BYTES" (Nat.pow 2 64) 1048576
  return {
    databaseUrl
    baseUrl :=
      ((lookup "BASE_URL").map (Text.withoutAtEnd '/')).getD
        "http://localhost:3000"
    listenAddress :=
      (lookup "LISTEN_ADDR").getD "127.0.0.1:3000"
    resourceConfig
    maxConnections
    bodyLimit }

end Settings

end RelationalRest
