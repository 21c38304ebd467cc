/-
  This file defines the encoding of text as UTF-8 octets and
  its decoding.  A scan gives the characters in order, and a
  gap for each maximal run of octets that begins no character
  or leaves one unfinished.

  Key definitions include:
    * `Utf8.encode`
    * `Utf8.scan`
    * `Utf8.decode?`
    * `Utf8.decodeLossy`
-/

namespace RelationalRest

namespace Utf8

/- The octets of a text. -/
def encode (s : String) : List UInt8 :=
  s.toList.flatMap String.utf8EncodeChar

/-
  Between two characters, or inside one: how many octets are
  still owed, the range of the next one, and the code so far.
-/
inductive State where
| between
| inside (owed : Nat) (low high : Nat) (code : Nat)
deriving DecidableEq, Repr

/-
  Take the first octet of a character: what it completes, and
  where it leaves the scan.
-/
def start (b : Nat) : List (Option Char) × State :=
  if b ≤ 0x7f then
    ([some (Char.ofNat b)], .between)
  else if 0xc2 ≤ b ∧ b ≤ 0xdf then
    ([], .inside 1 0x80 0xbf (b - 0xc0))
  else if b = 0xe0 then
    ([], .inside 2 0xa0 0xbf 0)
  else if b = 0xed then
    ([], .inside 2 0x80 0x9f 0xd)
  else if 0xe1 ≤ b ∧ b ≤ 0xef then
    ([], .inside 2 0x80 0xbf (b - 0xe0))
  else if b = 0xf0 then
    ([], .inside 3 0x90 0xbf 0)
  else if 0xf1 ≤ b ∧ b ≤ 0xf3 then
    ([], .inside 3 0x80 0xbf (b - 0xf0))
  else if b = 0xf4 then
    ([], .inside 3 0x80 0x8f 4)
  else
    ([none], .between)

/-
  Take one octet.  One that cannot go on a character leaves a
  gap and is then taken as a first octet.
-/
def step (b : Nat) : State → List (Option Char) × State
| .between => start b
| .inside owed low high code =>
    if low ≤ b ∧ b ≤ high then
      let code := 64 * code + (b - 0x80)
      if owed ≤ 1 then
        ([some (Char.ofNat code)], .between)
      else
        ([], .inside (owed - 1) 0x80 0xbf code)
    else
      let (found, next) := start b
      (none :: found, next)

/- The characters and gaps from a state on. -/
def scanFrom : State → List UInt8 → List (Option Char)
| .between, [] => []
| .inside .., [] => [none]
| state, b :: rest =>
    let (found, next) := step b.toNat state
    found ++ scanFrom next rest

/- The characters and gaps of a list of octets. -/
def scan (bytes : List UInt8) : List (Option Char) :=
  scanFrom .between bytes

/- The text of octets without gaps. -/
def decode? (bytes : List UInt8) : Option String :=
  ((scan bytes).mapM id).map String.ofList

/- The text of octets, with U+FFFD for each gap. -/
def decodeLossy (bytes : List UInt8) : String :=
  String.ofList ((scan bytes).map (·.getD '\ufffd'))

end Utf8

end RelationalRest
