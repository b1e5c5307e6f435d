import RouteDoc.Text.Surrogate
import RouteDoc.Value

/-!
# Reading JSON

A strict reader of the JSON grammar.  A number without point and exponent is an integer of any size,
any other number the nearest binary number.  Of two members with one name the later value counts, in
the place of the earlier one.
-/

namespace RouteDoc.Json

/-- The blank characters between tokens. -/
def isBlank (c : Char) : Bool := c == ' ' || c == '\t' || c == '\n' || c == '\r'

/-- What follows the blank characters. -/
def skipBlank (cs : List Char) : List Char := cs.dropWhile isBlank

/-- The value of a hexadecimal digit. -/
def hexValue? (c : Char) : Option Nat :=
  if '0' ≤ c ∧ c ≤ '9' then some (c.toNat - '0'.toNat)
  else if 'a' ≤ c ∧ c ≤ 'f' then some (c.toNat - 'a'.toNat + 10)
  else if 'A' ≤ c ∧ c ≤ 'F' then some (c.toNat - 'A'.toNat + 10)
  else none

/-- The value of four hexadecimal digits. -/
def hexQuad? (a b c d : Char) : Option Nat := do
  some ((← hexValue? a) * 4096 + (← hexValue? b) * 256 + (← hexValue? c) * 16 + (← hexValue? d))

/-- The character that stands for itself after a backslash. -/
def escaped? : Char → Option Char
  | '"' => some '"'
  | '\\' => some '\\'
  | '/' => some '/'
  | 'b' => some '\x08'
  | 'f' => some '\x0c'
  | 'n' => some '\n'
  | 'r' => some '\r'
  | 't' => some '\t'
  | _ => none

/-- Reads the rest of a text after its opening quote.  Half of a character is none. -/
def readText : List Char → Option (List Char × List Char)
  | [] => none
  | '"' :: rest => some ([], rest)
  | '\\' :: 'u' :: a :: b :: c :: d :: rest => do
    let n ← hexQuad? a b c d
    if Surrogate.isHigh n then
      match rest with
      | '\\' :: 'u' :: e :: f :: g :: h :: rest => do
        let low ← hexQuad? e f g h
        if Surrogate.isLow low then
          let (tail, rest) ← readText rest
          some (Surrogate.join n low :: tail, rest)
        else none
      | _ => none
    else if Surrogate.isLow n then none
    else
      let (tail, rest) ← readText rest
      some (Char.ofNat n :: tail, rest)
  | '\\' :: c :: rest => do
    let char ← escaped? c
    let (tail, rest) ← readText rest
    some (char :: tail, rest)
  | c :: rest =>
    if c.toNat < 32 then none
    else do
      let (tail, rest) ← readText rest
      some (c :: tail, rest)

/-- The number that decimal digits stand for. -/
def digitsValue (cs : List Char) : Nat :=
  cs.foldl (fun n c => 10 * n + (c.toNat - '0'.toNat)) 0

/-- The digits at the front, and what follows. -/
def spanDigits (cs : List Char) : List Char × List Char :=
  (cs.takeWhile Char.isDigit, cs.dropWhile Char.isDigit)

/-- Reads the digits of an integer part: a zero stands alone. -/
def readWhole : List Char → Option (List Char × List Char)
  | '0' :: rest => some (['0'], rest)
  | cs =>
    match spanDigits cs with
    | ([], _) => none
    | found => some found

/-- Reads a point with digits, when there is a point. -/
def readFraction : List Char → Option (Option (List Char) × List Char)
  | '.' :: rest =>
    match spanDigits rest with
    | ([], _) => none
    | (digits, rest) => some (some digits, rest)
  | cs => some (none, cs)

/-- Reads the sign and digits of an exponent. -/
def readSigned : List Char → Option (Int × List Char)
  | '-' :: rest =>
    match spanDigits rest with
    | ([], _) => none
    | (digits, rest) => some (-(digitsValue digits : Int), rest)
  | '+' :: rest =>
    match spanDigits rest with
    | ([], _) => none
    | (digits, rest) => some ((digitsValue digits : Int), rest)
  | cs =>
    match spanDigits cs with
    | ([], _) => none
    | (digits, rest) => some ((digitsValue digits : Int), rest)

/-- Reads an exponent, when there is one. -/
def readExponent : List Char → Option (Option Int × List Char)
  | 'e' :: rest => (readSigned rest).map fun (e, rest) => (some e, rest)
  | 'E' :: rest => (readSigned rest).map fun (e, rest) => (some e, rest)
  | cs => some (none, cs)

/-- Reads a number after its sign. -/
def readUnsigned (negative : Bool) (cs : List Char) : Option (Scalar × List Char) := do
  let (whole, rest) ← readWhole cs
  let (fraction, rest) ← readFraction rest
  let (exponent, rest) ← readExponent rest
  match fraction, exponent with
  | none, none =>
    let n : Int := digitsValue whole
    some (.int (if negative then -n else n), rest)
  | _, _ =>
    let places := fraction.getD []
    let scale := exponent.getD 0 - places.length
    some (.float (Binary64.ofDecimal negative (digitsValue (whole ++ places)) scale), rest)

/-- Reads a number. -/
def readNumber : List Char → Option (Scalar × List Char)
  | '-' :: rest => readUnsigned true rest
  | cs => readUnsigned false cs

mutual

/-- Reads a value that begins at the front; the count bounds the nesting. -/
def readValue : Nat → List Char → Option (Value × List Char)
  | 0, _ => none
  | fuel + 1, cs =>
    match cs with
    | 'n' :: 'u' :: 'l' :: 'l' :: rest => some (.null, rest)
    | 't' :: 'r' :: 'u' :: 'e' :: rest => some (.bool true, rest)
    | 'f' :: 'a' :: 'l' :: 's' :: 'e' :: rest => some (.bool false, rest)
    | '"' :: rest => do
      let (text, rest) ← readText rest
      some (.str (String.ofList text), rest)
    | '[' :: rest =>
      match skipBlank rest with
      | ']' :: rest => some (.list [], rest)
      | rest => do
        let (items, rest) ← readItems fuel rest
        some (.list items, rest)
    | '\x7b' :: rest =>
      match skipBlank rest with
      | '\x7d' :: rest => some (.map [], rest)
      | rest => do
        let (members, rest) ← readMembers fuel rest
        some (.map (Entries.ofPairs members), rest)
    | cs => do
      let (number, rest) ← readNumber cs
      some (.scalar number, rest)

/-- Reads the items of a list up to its closing bracket. -/
def readItems : Nat → List Char → Option (List Value × List Char)
  | 0, _ => none
  | fuel + 1, cs => do
    let (item, rest) ← readValue fuel (skipBlank cs)
    match skipBlank rest with
    | ',' :: rest => do
      let (items, rest) ← readItems fuel rest
      some (item :: items, rest)
    | ']' :: rest => some ([item], rest)
    | _ => none

/-- Reads the members of an object up to its closing brace. -/
def readMembers : Nat → List Char → Option (List (Key × Value) × List Char)
  | 0, _ => none
  | fuel + 1, cs =>
    match skipBlank cs with
    | '"' :: rest => do
      let (name, rest) ← readText rest
      match skipBlank rest with
      | ':' :: rest => do
        let (value, rest) ← readValue fuel (skipBlank rest)
        match skipBlank rest with
        | ',' :: rest => do
          let (members, rest) ← readMembers fuel rest
          some ((.str (String.ofList name), value) :: members, rest)
        | '\x7d' :: rest => some ([(.str (String.ofList name), value)], rest)
        | _ => none
      | _ => none
    | _ => none

end

/-- The value that a JSON text denotes. -/
def read? (s : String) : Option Value := do
  let cs := s.toList
  let (value, rest) ← readValue (cs.length + 1) (skipBlank cs)
  if (skipBlank rest).isEmpty then some value else none

end RouteDoc.Json
