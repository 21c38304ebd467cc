import RelationalRest.Text.Cut
import RelationalRest.Text.FormEncoding

/-
  This file defines the parts of a request target that count
  here: its path and its query.  A scheme with its authority
  and a fragment are dropped.

  Key definitions include:
    * `Uri`
    * `Uri.ofText`
    * `Uri.decodeSegment?`
-/

namespace RelationalRest

/- The path and the query of a request target. -/
structure Uri where
  path : String
  query : Option String := none
deriving DecidableEq, Repr

namespace Uri

/- What precedes a separator, or all where there is none. -/
def before
    (separator : Char)
    (cs : List Char) : List Char :=
  cs.takeWhile (· != separator)

/- What follows the authority of a target that begins with it. -/
def afterAuthority (cs : List Char) : List Char :=
  cs.dropWhile fun c => c != '/' && c != '?' && c != '#'

/- What follows a scheme and its mark, if there is a scheme. -/
def afterScheme? (cs : List Char) : Option (List Char) :=
  match Text.cut ':' cs with
  | some (_, '/' :: '/' :: rest) => some rest
  | _ => none

/- The parts of a target that begins with its path. -/
def ofPath (cs : List Char) : Uri :=
  let cs := before '#' cs
  { path := String.ofList (before '?' cs)
    query := (Text.cut '?' cs).map fun (_, q) => String.ofList q }

/-
  The parts of a target.  Where a scheme stands before it, an
  empty path is the root.  The asterisk, which stands for the
  whole server, is its own path; any other target with neither
  a path nor a scheme has no parts.
-/
def ofText (s : String) : Uri :=
  match s.toList with
  | '/' :: rest => ofPath ('/' :: rest)
  | ['*'] => { path := "*" }
  | cs =>
      match afterScheme? cs with
      | none => { path := "" }
      | some rest =>
          let uri := ofPath (afterAuthority rest)
          if uri.path = "" then
            { uri with path := "/" }
          else
            uri

/- The text of a percent-encoded segment, if it is valid text. -/
def decodeSegment? (segment : String) : Option String :=
  Utf8.decode? (FormEncoding.percentDecode (Utf8.encode segment))

end Uri

end RelationalRest
