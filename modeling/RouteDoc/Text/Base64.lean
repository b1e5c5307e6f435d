/-!
# Octets as text

Octets are written with sixty-four characters, four for three octets, the last group filled up with equality
signs, in lines of at most seventy-six characters.  The reader passes over characters that are none of
these.

* `Base64.encode`, `Base64.decode?` — writing and reading octets.
-/

namespace RouteDoc.Base64

/-- The character for a number below sixty-four. -/
def digit (n : Nat) : Char :=
  if n < 26 then Char.ofNat (n + 65)
  else if n < 52 then Char.ofNat (n + 71)
  else if n < 62 then Char.ofNat (n - 4)
  else if n = 62 then '+' else '/'

/-- The number that a character stands for. -/
def value? (c : Char) : Option Nat :=
  let n := c.toNat
  if 'A' ≤ c ∧ c ≤ 'Z' then some (n - 65)
  else if 'a' ≤ c ∧ c ≤ 'z' then some (n - 71)
  else if '0' ≤ c ∧ c ≤ '9' then some (n + 4)
  else if c = '+' then some 62
  else if c = '/' then some 63
  else none

/-- The characters of octets. -/
def characters : List UInt8 → List Char
  | a :: b :: c :: rest =>
    let n := a.toNat * 65536 + b.toNat * 256 + c.toNat
    digit (n / 262144) :: digit (n / 4096 % 64) :: digit (n / 64 % 64) :: digit (n % 64) :: characters rest
  | [a, b] =>
    let n := a.toNat * 1024 + b.toNat * 4
    [digit (n / 4096), digit (n / 64 % 64), digit (n % 64), '=']
  | [a] => [digit (a.toNat / 4), digit (a.toNat % 4 * 16), '=', '=']
  | [] => []

/-- Characters in lines of at most seventy-six, each closed by a line feed; the count bounds the lines. -/
def inLines : Nat → List Char → List Char
  | 0, cs => cs
  | _, [] => []
  | count + 1, cs => cs.take 76 ++ '\n' :: inLines count (cs.drop 76)

/-- The text of octets. -/
def encode (octets : List UInt8) : String :=
  String.ofList (inLines (octets.length + 1) (characters octets))

/-- Reads characters from a place in a group on: the bits left over, and the equality signs in a row.  A
group that is complete with them ends the text. -/
def decodeFrom (place left pads : Nat) : List Char → Option (List UInt8)
  | [] => if place = 0 then some [] else none
  | c :: rest =>
    if c = '=' then
      if place ≥ 2 ∧ place + pads + 1 ≥ 4 then some [] else decodeFrom place left (pads + 1) rest
    else match value? c with
      | none => decodeFrom place left pads rest
      | some n =>
        match place with
        | 0 => decodeFrom 1 n 0 rest
        | 1 => (decodeFrom 2 (n % 16) 0 rest).map ((left * 4 + n / 16).toUInt8 :: ·)
        | 2 => (decodeFrom 3 (n % 4) 0 rest).map ((left * 16 + n / 4).toUInt8 :: ·)
        | _ => (decodeFrom 0 0 0 rest).map ((left * 64 + n).toUInt8 :: ·)

/-- The octets of a text. -/
def decode? (cs : List Char) : Option (List UInt8) := decodeFrom 0 0 0 cs

end RouteDoc.Base64
