import RelationalRest.Text.Cut

/-
  This file defines the reading of media types, such as
  `application/problem+json; charset=utf-8`.

  Key definitions include:
    * `MediaType`
    * `MediaType.ofText?`
    * `MediaType.isJson`
-/

namespace RelationalRest

/-
  A media type in small letters, by its type, its subtype and
  the suffix of the subtype.
-/
structure MediaType where
  type : String
  subtype : String
  suffix : Option String := none
deriving DecidableEq, Repr

namespace MediaType

/- The characters of a token. -/
def isTokenChar (c : Char) : Bool :=
  c.isAlphanum || "!#$%&'*+-.^_\x60|~".toList.contains c

/- The characters that may stand between quotes. -/
def isQuotedChar (c : Char) : Bool :=
  0x20 ≤ c.toNat && c.toNat != 0x7f

------------------------------------------------------------
-- Parameters
------------------------------------------------------------

/- Where in the parameters of a media type a reader stands. -/
inductive Place where
| beforeName
| inName
| beforeValue
| inValue
| afterOpeningQuote
| inQuotes
| afterQuotes
deriving DecidableEq, Repr

namespace Place

/- Where a character leads, if it may stand in a place. -/
def next? : Place → Char → Option Place
| .beforeName, c =>
    if c = ' ' then some .beforeName
    else if isTokenChar c then some .inName
    else none
| .inName, c =>
    if c = '=' then some .beforeValue
    else if isTokenChar c then some .inName
    else none
| .beforeValue, c =>
    if c = '"' then some .afterOpeningQuote
    else if isTokenChar c then some .inValue
    else none
| .inValue, c =>
    if c = ';' then some .beforeName
    else if isTokenChar c then some .inValue
    else none
| .afterOpeningQuote, c =>
    if isQuotedChar c then some .inQuotes else none
| .inQuotes, c =>
    if c = '"' then some .afterQuotes
    else if isQuotedChar c then some .inQuotes
    else none
| .afterQuotes, c =>
    if c = ';' then some .beforeName
    else if c = ' ' then some .afterQuotes
    else none

/- The parameters may end in a place. -/
def isEnd : Place → Bool
| .beforeName => true
| .beforeValue => true
| .inValue => true
| .afterQuotes => true
| _ => false

end Place

/- A list of parameters is well formed. -/
def areParameters (cs : List Char) : Bool :=
  (cs.foldlM Place.next? Place.beforeName).any Place.isEnd

------------------------------------------------------------
-- Reading
------------------------------------------------------------

/- A text in small letters. -/
def small (cs : List Char) : String :=
  String.ofList (cs.map Char.toLower)

/-
  A subtype and its suffix, which follows the last plus sign
  that is not its first character.
-/
def splitSuffix (cs : List Char) : List Char × Option (List Char) :=
  match Text.cut '+' cs.reverse with
  | some (suffix, c :: subtype) =>
      ((c :: subtype).reverse, some suffix.reverse)
  | _ => (cs, none)

/- The media type of a type and what follows its slash. -/
def ofParts? (type rest : List Char) : Option MediaType :=
  let name := rest.takeWhile isTokenChar
  let (subtype, suffix) := splitSuffix name
  let found : MediaType :=
    { type := small type
      subtype := small subtype
      suffix := suffix.map small }
  match rest.dropWhile isTokenChar with
  | [] => some found
  | ';' :: parameters =>
      if name ≠ [] ∧ areParameters parameters = true then
        some found
      else
        none
  | _ => none

/- The media type that a text writes. -/
def ofText? (s : String) : Option MediaType :=
  match Text.cut '/' s.toList with
  | some (type, rest) =>
      if type ≠ [] ∧ type.all isTokenChar = true then
        ofParts? type rest
      else
        none
  | none => none

/- A media type whose documents are JSON texts. -/
def isJson (m : MediaType) : Bool :=
  m.type == "application" &&
    (m.subtype == "json" || m.suffix == some "json")

end MediaType

end RelationalRest
