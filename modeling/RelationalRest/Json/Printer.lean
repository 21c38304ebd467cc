import RelationalRest.Binary64.Shortest
import RelationalRest.Json.Basic
import RelationalRest.Text.Hex

/-
  This file defines the compact text of a JSON value: no
  spaces, members in order, and escapes only where the format
  requires one.

  Key definitions include:
    * `Json.text`
    * `Json.plainText`
-/

namespace RelationalRest

namespace Json

/- The text of a number. -/
def Number.text : Number → String
| .int i => toString i
| .float x => if x.isFinite then x.decimalText else "null"

/- The written form of a character in a string. -/
def escape (c : Char) : List Char :=
  if c = '"' then ['\\', '"']
  else if c = '\\' then ['\\', '\\']
  else if c = '\x08' then ['\\', 'b']
  else if c = '\x0c' then ['\\', 'f']
  else if c = '\n' then ['\\', 'n']
  else if c = '\r' then ['\\', 'r']
  else if c = '\t' then ['\\', 't']
  else if c.toNat < 0x20 then
    ['\\', 'u', '0', '0', Text.lowerHex (c.toNat / 16),
      Text.lowerHex (c.toNat % 16)]
  else [c]

/- The written form of a string. -/
def quote (s : String) : String :=
  String.ofList ('"' :: s.toList.flatMap escape ++ ['"'])

mutual

/- The text of a value. -/
def text : Json → String
| .null => "null"
| .bool true => "true"
| .bool false => "false"
| .number n => n.text
| .string s => quote s
| .array items => "[" ++ textItems items ++ "]"
| .object members => "\x7b" ++ textMembers members ++ "\x7d"
termination_by structural v => v

/- The items of an array, with commas between them. -/
def textItems : List Json → String
| [] => ""
| [v] => text v
| v :: rest => text v ++ "," ++ textItems rest
termination_by structural vs => vs

/- The members of an object, with commas between them. -/
def textMembers : List (String × Json) → String
| [] => ""
| [(name, v)] => quote name ++ ":" ++ text v
| (name, v) :: rest =>
    quote name ++ ":" ++ text v ++ "," ++ textMembers rest
termination_by structural ms => ms

end

/- The text of a value in a message or a path: a string as it is. -/
def plainText : Json → String
| .string s => s
| v => v.text

end Json

end RelationalRest
