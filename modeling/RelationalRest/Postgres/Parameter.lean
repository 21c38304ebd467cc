import RelationalRest.Json.Printer
import RelationalRest.Postgres.Octets
import RelationalRest.Sql.Value
import RelationalRest.Text.Utf8

/-
  This file defines how the values of a statement are sent to
  the database as binary parameters.

  Key definitions include:
    * `Postgres.ParameterType`
    * `Sql.Value.parameterType`
    * `Sql.Value.octets?`
-/

namespace RelationalRest

namespace Postgres

/- The type of a parameter. -/
inductive ParameterType where
| text
| bool
| int8
| float8
| timestamp
| jsonb
deriving DecidableEq, Repr

namespace ParameterType

/- The name of a type. -/
def name : ParameterType → String
| .text => "TEXT"
| .bool => "BOOL"
| .int8 => "INT8"
| .float8 => "FLOAT8"
| .timestamp => "TIMESTAMP"
| .jsonb => "JSONB"

/- The number by which the database knows a type. -/
def oid : ParameterType → Nat
| .text => 25
| .bool => 16
| .int8 => 20
| .float8 => 701
| .timestamp => 1114
| .jsonb => 3802

end ParameterType

end Postgres

namespace Sql.Value

open Postgres

/- The type as which a value is sent. -/
def parameterType : Sql.Value → ParameterType
| .null => .text
| .bool _ => .bool
| .int _ => .int8
| .float _ => .float8
| .string _ => .text
| .timestamp _ => .timestamp
| .json _ => .jsonb

/-
  The octets of a value; the absent value has none.  A point
  in time is sent as the microseconds since the year 2000,
  and JSON as its text after a version.
-/
def octets? : Sql.Value → Option (List UInt8)
| .null => none
| .bool b => some [if b then 1 else 0]
| .int i => some (Octets.ofInt 8 i)
| .float x => some (Octets.ofNat 8 x.bits.toNat)
| .string s => some (Utf8.encode s)
| .timestamp t => some (Octets.ofInt 8 t.microsSinceEpoch)
| .json v => some (1 :: Utf8.encode v.text)

end Sql.Value

end RelationalRest
