import RouteDoc.Failure
import RouteDoc.Number.Binary64
import RouteDoc.Text.Blank
import RouteDoc.Text.Digit

/-!
# Numbers as written

The numbers that texts denote.  Blanks may stand around a number, the digits of every script count, and
single low lines may stand between digits.

* `Numeral.readInteger` — an integer to a base;
* `Numeral.readFloat` — a number with a point or an exponent, or one of the words for numbers that are not
  finite;
* `Numeral.spanFloat` — such a number at the front of a text.
-/

namespace RouteDoc.Numeral

/-! ### Characters -/

/-- Digits of every script as the common ones, and blanks beyond the first code page as spaces. -/
def plainChar (c : Char) : Char :=
  if c.toNat < 128 then c
  else if Text.isBlank c then ' '
  else match Text.digitValue? c with
    | some n => Nat.digitChar n
    | none => c

/-- A space or one of the controls that move on. -/
def isSpace (c : Char) : Bool := c == ' ' || ('\t' ≤ c && c ≤ '\r')

/-- A text without blanks at either end, in common digits. -/
def core (cs : List Char) : List Char :=
  (((cs.map plainChar).dropWhile isSpace).reverse.dropWhile isSpace).reverse

/-- The sign in front of a number and what follows. -/
def splitSign : List Char → Bool × List Char
  | '-' :: rest => (true, rest)
  | '+' :: rest => (false, rest)
  | cs => (false, cs)

/-- A number with a sign. -/
def signed (negative : Bool) (n : Int) : Int := if negative then -n else n

/-! ### Integers -/

/-- The most digits that an integer may be read from or written with, powers of two as bases apart. -/
def digitLimit : Nat := 4300

/-- The value of a digit: one of the decimal digits, or a letter from ten on. -/
def digitIn? (base : Nat) (c : Char) : Option Nat :=
  let value :=
    if c.isDigit then some (c.toNat - '0'.toNat)
    else if 'a' ≤ c ∧ c ≤ 'z' then some (c.toNat - 'a'.toNat + 10)
    else if 'A' ≤ c ∧ c ≤ 'Z' then some (c.toNat - 'A'.toNat + 10)
    else none
  value.filter (· < base)

/-- The values of the digits at the front, with single low lines between them, and what follows.  A digit has
to come next when `due`. -/
def spanDigits (base : Nat) (due : Bool) : List Char → Option (List Nat × List Char)
  | [] => if due then none else some ([], [])
  | c :: rest =>
    if c == '_' then if due then none else spanDigits base true rest
    else match digitIn? base c with
      | some d => (spanDigits base false rest).map fun (ds, after) => (d :: ds, after)
      | none => if due then none else some ([], c :: rest)

/-- The number that digits to a base make up. -/
def number (base : Nat) (digits : List Nat) : Nat := digits.foldl (fun n d => base * n + d) 0

/-- The base that a mark after a leading zero names. -/
def markedBase? (c : Char) : Option Nat :=
  match c with
  | 'b' | 'B' => some 2
  | 'o' | 'O' => some 8
  | 'x' | 'X' => some 16
  | _ => none

/-- Digits without the mark of their base, if there is one; a low line may follow the mark. -/
def dropMark (base : Nat) : List Char → List Char
  | '0' :: c :: rest =>
    if markedBase? c == some base then
      match rest with
      | '_' :: rest => rest
      | rest => rest
    else '0' :: c :: rest
  | cs => cs

/-- The base in which digits are to be read when it is left open: the marked one, or ten. -/
def openBase : List Char → Nat
  | '0' :: c :: _ => (markedBase? c).getD 10
  | _ => 10

/-- Digits to a base whose number is not limited. -/
def isUnlimited (base : Nat) : Bool := [2, 4, 8, 16, 32].contains base

/-- The integer that a text denotes to a base; base zero leaves it to a mark in the text. -/
def readInteger (base : Nat) (cs : List Char) : Except Failure Int :=
  let refused : Except Failure Int := .error (.badInteger base (displayText (String.ofList cs)))
  let (negative, body) := splitSign (core cs)
  let actual := if base = 0 then openBase body else base
  match spanDigits actual true (dropMark actual body) with
  | none => refused
  | some (digits, rest) =>
    if !isUnlimited actual && digits.length > digitLimit then .error (.longInteger digits.length)
    else if !rest.isEmpty then refused
    else
      let n := number actual digits
      if base = 0 && actual = 10 && body.head? == some '0' && n != 0 then refused
      else .ok (signed negative n)

/-- The decimal digits of an integer. -/
def integerDigits (i : Int) : List Char :=
  if i < 0 then '-' :: Nat.toDigits 10 i.natAbs else Nat.toDigits 10 i.natAbs

/-- The decimal digits of an integer that has few enough of them to be written. -/
def integerText (i : Int) : Except Failure (List Char) :=
  if i.natAbs < Nat.pow 10 digitLimit then .ok (integerDigits i) else .error .longIntegerText

/-! ### Numbers with a point -/

/-- The decimal digits at the front, as their values, and what follows. -/
def spanDecimals (cs : List Char) : List Nat × List Char :=
  ((cs.takeWhile Char.isDigit).map fun c => c.toNat - '0'.toNat, cs.dropWhile Char.isDigit)

/-- The exponent at the front, and what follows; without one it is zero. -/
def spanScale (cs : List Char) : Int × List Char :=
  match cs with
  | e :: rest =>
    if e == 'e' || e == 'E' then
      let (negative, body) := splitSign rest
      match spanDecimals body with
      | ([], _) => (0, cs)
      | (digits, after) => (signed negative (number 10 digits), after)
    else (0, cs)
  | [] => (0, [])

/-- The number in decimal notation at the front, and what follows. -/
def spanDecimal (negative : Bool) (cs : List Char) : Option (Binary64 × List Char) :=
  let (whole, rest) := spanDecimals cs
  let (places, rest) := match rest with
    | '.' :: after => spanDecimals after
    | rest => ([], rest)
  if whole.isEmpty && places.isEmpty then none
  else
    let (scale, rest) := spanScale rest
    some (Binary64.ofDecimal negative (number 10 (whole ++ places)) (scale - places.length), rest)

/-- What follows a word, in any letter case, at the front. -/
def afterWord? (word : List Char) (cs : List Char) : Option (List Char) :=
  if (cs.take word.length).map Char.toLower == word then some (cs.drop word.length) else none

/-- The number at the front of a text, and what follows. -/
def spanFloat (cs : List Char) : Option (Binary64 × List Char) :=
  let (negative, body) := splitSign cs
  match afterWord? "infinity".toList body, afterWord? "inf".toList body, afterWord? "nan".toList body with
  | some rest, _, _ => some (.infinite negative, rest)
  | _, some rest, _ => some (.infinite negative, rest)
  | _, _, some rest => some (.nan false, rest)
  | _, _, _ => spanDecimal negative body

/-- A text without the low lines that stand between digits, when all of them do; the character before is
given. -/
def withoutLines (before : Char) : List Char → Option (List Char)
  | [] => if before == '_' then none else some []
  | c :: rest =>
    if c == '_' then if before.isDigit then withoutLines c rest else none
    else if before == '_' && !c.isDigit then none
    else (withoutLines c rest).map (c :: ·)

/-- The number that a text denotes. -/
def readFloat (cs : List Char) : Except Failure Binary64 :=
  match (withoutLines ' ' (core cs)).bind spanFloat with
  | some (x, []) => .ok x
  | _ => .error (.badFloat (displayText (String.ofList cs)))

end RouteDoc.Numeral
