import RouteDoc.Number.Numeral
import RouteDoc.Number.Shortest

/-!
# Complex numbers

Numbers with a real and an imaginary part, and the two ways in which they are written: in parentheses with
short parts when they are displayed, and without parentheses and exponents in a document.

* `Complex.ofText` — the number that a text denotes;
* `Complex.display`, `Complex.text` — the two ways of writing.
-/

namespace RouteDoc

/-- A complex number. -/
structure Complex where
  re : Binary64
  im : Binary64
  deriving DecidableEq, Repr, Inhabited

namespace Complex

/-! ### Reading -/

/-- One, with a sign. -/
def unit (negative : Bool) : Binary64 := Binary64.ofInt (if negative then -1 else 1)

/-- What follows the mark of an imaginary part. -/
def afterMark? : List Char → Option (List Char)
  | c :: rest => if c == 'j' || c == 'J' then some rest else none
  | [] => none

/-- Does a text begin with a sign? -/
def beginsSigned : List Char → Bool
  | c :: _ => c == '+' || c == '-'
  | [] => false

/-- The number at the front of a text, and what follows. -/
def span (cs : List Char) : Option (Complex × List Char) :=
  match Numeral.spanFloat cs with
  | some (z, rest) =>
    if beginsSigned rest then do
      let (im, rest) := (Numeral.spanFloat rest).getD (unit (rest.head? == some '-'), rest.tail)
      some (⟨z, im⟩, ← afterMark? rest)
    else
      match afterMark? rest with
      | some rest => some (⟨.zero, z⟩, rest)
      | none => some (⟨z, .zero⟩, rest)
  | none => do
    let (negative, rest) := Numeral.splitSign cs
    some (⟨.zero, unit negative⟩, ← afterMark? rest)

/-- The number that a text denotes, which may stand in parentheses. -/
def ofText (s : String) : Option Complex := do
  let cs ← Numeral.withoutLines ' ' (Numeral.core s.toList)
  match cs with
  | '(' :: inner => do
    let (z, rest) ← span (inner.dropWhile Numeral.isSpace)
    if rest.dropWhile Numeral.isSpace == [')'] then some z else none
  | _ => do
    let (z, rest) ← span cs
    if rest.isEmpty then some z else none

/-! ### Writing -/

/-- The text of a part: whole numbers have no point. -/
def shortText (x : Binary64) : String :=
  let cs := x.text.toList
  String.ofList <|
    match cs.reverse with
    | '0' :: '.' :: rest => rest.reverse
    | _ => cs

/-- Is the number positive zero? -/
def isPlainZero (x : Binary64) : Bool := x == .zero

/-- Does a number bear a minus sign? -/
def isNegative : Binary64 → Bool
  | .nan _ => false
  | .infinite n => n
  | .finite n _ _ => n

/-- The display: the imaginary part alone when nothing else is there, or both in parentheses. -/
def display (z : Complex) : String :=
  if isPlainZero z.re then shortText z.im ++ "j"
  else "(" ++ shortText z.re ++ (if isNegative z.im then "" else "+") ++ shortText z.im ++ "j)"

/-- The text of a part without an exponent. -/
def longText : Binary64 → String
  | .nan _ => "NaN"
  | .infinite n => if n then "-inf" else "inf"
  | .finite n e f =>
    let digits : List Char :=
      if Binary64.significandOf e f = 0 then ['0']
      else
        let (digits, scale) := Binary64.shortest e f
        let ds := Binary64.digitChars digits
        let point : Int := ds.length + scale
        if scale ≥ 0 then ds ++ List.replicate scale.toNat '0'
        else if point ≤ 0 then '0' :: '.' :: List.replicate (-point).toNat '0' ++ ds
        else ds.take point.toNat ++ '.' :: ds.drop point.toNat
    String.ofList (if n then '-' :: digits else digits)

/-- Is a number zero, of either sign? -/
def isZero (x : Binary64) : Bool := x.sameNumber .zero

/-- Is a number at least zero? -/
def isAtLeastZero : Binary64 → Bool
  | .nan _ => false
  | .infinite n => !n
  | x => isZero x || !isNegative x

/-- The text: without parentheses, and the imaginary part alone when the real one is zero. -/
def text (z : Complex) : String :=
  if isZero z.re then longText z.im ++ "j"
  else longText z.re ++ (if isAtLeastZero z.im then "+" else "") ++ longText z.im ++ "j"

end Complex

end RouteDoc
