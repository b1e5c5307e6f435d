import RouteDoc.Number.Numeral
import RouteDoc.Text.Quoted

/-!
# Network addresses

An address of version 4 is four octets; one of version 6 is eight groups of sixteen bits, of which the
longest run of zeros is left out when it is written.

* `Address.ofText`, `Address.text` — reading and writing an address.
-/

namespace RouteDoc

/-- A network address. -/
inductive Address where
  | four (octets : List Nat)
  | six (groups : List Nat) (zone : Option String)
  deriving DecidableEq, Repr, Inhabited

namespace Address

/-- The number that decimal digits stand for. -/
def decimalValue (s : String) : Nat := (s.toNat?).getD 0

/-- The octets of an address of version 4. -/
def octetsOf (s : String) : List Nat := (s.splitOn ".").map decimalValue

/-- The number that hexadecimal digits stand for. -/
def hexValue (s : String) : Nat :=
  match Numeral.readInteger 16 s.toList with
  | .ok n => n.toNat
  | .error _ => 0

/-- The groups that a part between colons stands for: one, or two for an address of version 4. -/
def groupsOf (part : String) : List Nat :=
  if part.isEmpty then []
  else if part.contains '.' then
    match octetsOf part with
    | [a, b, c, d] => [a * 256 + b, c * 256 + d]
    | _ => [0, 0]
  else [hexValue part]

/-- The groups that a text without omissions stands for. -/
def groupsOfText (s : String) : List Nat := (s.splitOn ":").flatMap groupsOf

/-- All eight groups of a text. -/
def allGroups (s : String) : List Nat :=
  match s.splitOn "::" with
  | [front, back] =>
    let front := groupsOfText front
    let back := groupsOfText back
    front ++ List.replicate (8 - front.length - back.length) 0 ++ back
  | _ => groupsOfText s

/-- The address that a text denotes. -/
def ofText (s : String) : Address :=
  if s.contains ':' then
    match s.splitOn "%" with
    | body :: zone :: _ => .six (allGroups body) (some zone)
    | _ => .six (allGroups s) none
  else .four (octetsOf s)

/-- The length of the run of zeros at the front. -/
def zerosAtFront (groups : List Nat) : Nat := (groups.takeWhile (· == 0)).length

/-- The place and the length of the longest run of zeros, the first one of equal runs; places are counted
from a number on. -/
def longestRun (place : Nat) : List Nat → Nat × Nat
  | [] => (place, 0)
  | g :: rest =>
    let here := zerosAtFront (g :: rest)
    let (later, length) := longestRun (place + 1) rest
    if here ≥ length then (place, here) else (later, length)

/-- Groups between colons. -/
def groupsText (groups : List Nat) : String :=
  ":".intercalate (groups.map fun g => String.ofList (hexPadded 1 g))

/-- The text of an address. -/
def text : Address → String
  | four octets => ".".intercalate (octets.map toString)
  | six groups zone =>
    let (place, length) := longestRun 0 groups
    (if length > 1 then groupsText (groups.take place) ++ "::" ++ groupsText (groups.drop (place + length))
      else groupsText groups)
      ++ (zone.map fun z => "%" ++ z).getD ""

/-- The name of the version of an address. -/
def className : Address → String
  | four _ => "IPv4Address"
  | six _ _ => "IPv6Address"

end Address

end RouteDoc
