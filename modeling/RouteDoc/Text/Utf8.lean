/-!
# Strict UTF-8

Octets are decoded one character at a time; the first octet that no character can continue stops the
reading.  `Utf8.decode` gives the characters or the place and the nature of the first fault, counted
over the longest run of octets that still began a character.  A text may begin with the mark of the octet
order, which `Utf8.withoutOrderMark` leaves out.
-/

namespace RouteDoc.Utf8

/-- The mark of the octet order. -/
def orderMark : Char := '\ufeff'

/-- A text without the mark of the octet order at its beginning; a second one is a character of the text. -/
def withoutOrderMark : List Char → List Char
  | [] => []
  | c :: rest => if c = orderMark then rest else c :: rest

/-- Why octets are no text. -/
inductive Reason where
  /-- The octet cannot begin a character. -/
  | start
  /-- A character was begun and the next octet does not continue it. -/
  | continuation
  /-- A character was begun and the octets end. -/
  | ended
  deriving DecidableEq, Repr

/-- The first fault: its place, its first octet, and how many octets it spans. -/
structure Fault where
  position : Nat
  octet : Nat
  span : Nat
  reason : Reason
  deriving DecidableEq, Repr

/-- A character under way: where it began and with which octet, how many octets it has so far and how
many it still owes, the bounds of the next octet, and the bits gathered. -/
structure Pending where
  position : Nat
  octet : Nat
  length : Nat
  owed : Nat
  low : Nat
  high : Nat
  bits : Nat

/-- A character begun by a first octet; it owes nothing when the octet stands alone. -/
def begin? (position b : Nat) : Option Pending :=
  if b ≤ 0x7F then some ⟨position, b, 1, 0, 0x80, 0xBF, b⟩
  else if 0xC2 ≤ b ∧ b ≤ 0xDF then some ⟨position, b, 1, 1, 0x80, 0xBF, b - 0xC0⟩
  else if b = 0xE0 then some ⟨position, b, 1, 2, 0xA0, 0xBF, 0⟩
  else if b = 0xED then some ⟨position, b, 1, 2, 0x80, 0x9F, 0xD⟩
  else if 0xE1 ≤ b ∧ b ≤ 0xEF then some ⟨position, b, 1, 2, 0x80, 0xBF, b - 0xE0⟩
  else if b = 0xF0 then some ⟨position, b, 1, 3, 0x90, 0xBF, 0⟩
  else if 0xF1 ≤ b ∧ b ≤ 0xF3 then some ⟨position, b, 1, 3, 0x80, 0xBF, b - 0xF0⟩
  else if b = 0xF4 then some ⟨position, b, 1, 3, 0x80, 0x8F, 4⟩
  else none

/-- Decodes octets from a place on, with the character under way and the characters so far, newest
first. -/
def decodeFrom (place : Nat) (pending : Option Pending) (out : List Char) :
    List Nat → Except Fault (List Char)
  | [] =>
    match pending with
    | none => .ok out.reverse
    | some p => .error ⟨p.position, p.octet, p.length, .ended⟩
  | b :: rest =>
    match pending with
    | none =>
      match begin? place b with
      | none => .error ⟨place, b, 1, .start⟩
      | some p =>
        if p.owed = 0 then decodeFrom (place + 1) none (Char.ofNat p.bits :: out) rest
        else decodeFrom (place + 1) (some p) out rest
    | some p =>
      if p.low ≤ b ∧ b ≤ p.high then
        let bits := p.bits * 64 + (b - 0x80)
        if p.owed ≤ 1 then decodeFrom (place + 1) none (Char.ofNat bits :: out) rest
        else
          let next : Pending := ⟨p.position, p.octet, p.length + 1, p.owed - 1, 0x80, 0xBF, bits⟩
          decodeFrom (place + 1) (some next) out rest
      else .error ⟨p.position, p.octet, p.length, .continuation⟩

/-- The characters of a sequence of octets, or the first fault. -/
def decode (octets : List UInt8) : Except Fault (List Char) :=
  decodeFrom 0 none [] (octets.map UInt8.toNat)

/-- Two lower-case hexadecimal digits. -/
def hex (b : Nat) : String :=
  String.ofList [Nat.digitChar (b / 16), Nat.digitChar (b % 16)]

/-- The account of a fault, with the words for its reason. -/
def Fault.describe (f : Fault) (words : String) : String :=
  if f.span = 1 then
    "'utf-8' codec can't decode byte 0x" ++ hex f.octet ++ " in position " ++ toString f.position
      ++ ": " ++ words
  else
    "'utf-8' codec can't decode bytes in position " ++ toString f.position ++ "-"
      ++ toString (f.position + f.span - 1) ++ ": " ++ words

/-- The account that names the reason. -/
def Fault.message (f : Fault) : String :=
  f.describe <| match f.reason with
    | .start => "invalid start byte"
    | .continuation => "invalid continuation byte"
    | .ended => "unexpected end of data"

/-- The account that does not name the reason. -/
def Fault.briefMessage (f : Fault) : String := f.describe "invalid utf-8"

end RouteDoc.Utf8
