import RouteDoc.Number.Numeral

/-!
# Decimal numbers

A decimal number keeps its coefficient and its exponent, so numbers of one value may differ in their final
zeros.  It is written positionally while its exponent is not positive and its leading digit stands no
further than six places behind the point, and with an exponent otherwise.

* `Decimal.ofText`, `Decimal.text` — reading and writing a number;
* `Decimal.normal?` — value of a finite number, by a coefficient without final zeros;
* `Decimal.isRatio` — does a number equal a fraction?
-/

namespace RouteDoc

/-- A decimal number, `coefficient · 10 ^ exponent` when it is finite. -/
inductive Decimal where
  | finite (negative : Bool) (coefficient : Nat) (exponent : Int)
  | infinite (negative : Bool)
  /-- Not a number, with a number that says why. -/
  | nan (negative signalling : Bool) (payload : Nat)
  deriving DecidableEq, Repr, Inhabited

namespace Decimal

/-! ### Writing -/

/-- The layout of `digits · 10 ^ exponent`. -/
def layout (digits : List Char) (exponent : Int) : List Char :=
  let lead : Int := exponent + digits.length - 1
  if exponent ≤ 0 ∧ lead ≥ -6 then
    if exponent = 0 then digits
    else
      let point : Int := digits.length + exponent
      if point ≤ 0 then '0' :: '.' :: List.replicate (-point).toNat '0' ++ digits
      else digits.take point.toNat ++ '.' :: digits.drop point.toNat
  else
    let mantissa := match digits with
      | d :: e :: more => d :: '.' :: e :: more
      | short => short
    mantissa ++ 'E' :: (if lead < 0 then '-' else '+') :: Nat.toDigits 10 lead.natAbs

/-- The sign of a number as written. -/
def signText (negative : Bool) : String := if negative then "-" else ""

/-- The text of a number. -/
def text : Decimal → String
  | finite negative coefficient exponent =>
    signText negative ++ String.ofList (layout (Nat.toDigits 10 coefficient) exponent)
  | infinite negative => signText negative ++ "Infinity"
  | nan negative signalling payload =>
    signText negative ++ (if signalling then "sNaN" else "NaN")
      ++ (if payload = 0 then "" else toString payload)

/-! ### Reading -/

/-- The number that digits after a word stand for. -/
def payload? (cs : List Char) : Option Nat :=
  match Numeral.spanDecimals cs with
  | (digits, []) => some (Numeral.number 10 digits)
  | _ => none

/-- The finite number in decimal notation. -/
def readFinite (negative : Bool) (cs : List Char) : Option Decimal :=
  let (whole, rest) := Numeral.spanDecimals cs
  let (places, rest) := match rest with
    | '.' :: after => Numeral.spanDecimals after
    | rest => ([], rest)
  if whole.isEmpty && places.isEmpty then none
  else match Numeral.spanScale rest with
    | (scale, []) => some (.finite negative (Numeral.number 10 (whole ++ places)) (scale - places.length))
    | _ => none

/-- The number that a text denotes; blanks may stand around it, and low lines anywhere. -/
def ofText (s : String) : Option Decimal :=
  let kept := (Text.trimEnd (s.toList.dropWhile Text.isBlank)).filter (· != '_')
  let (negative, body) := Numeral.splitSign (kept.map Numeral.plainChar)
  let word := (String.ofList body).map Char.toLower
  if word == "inf" || word == "infinity" then some (.infinite negative)
  else
    match Numeral.afterWord? "nan".toList body, Numeral.afterWord? "snan".toList body with
    | some rest, _ => (payload? rest).map (.nan negative false)
    | _, some rest => (payload? rest).map (.nan negative true)
    | none, none => readFinite negative body

/-! ### Values -/

/-- A coefficient without final zeros, which move into the exponent; the count bounds the zeros. -/
def dropZeros : Nat → Nat → Int → Nat × Int
  | 0, n, e => (n, e)
  | count + 1, n, e => if n ≠ 0 ∧ n % 10 = 0 then dropZeros count (n / 10) (e + 1) else (n, e)

/-- The value of a finite number: a coefficient without final zeros and an exponent. -/
def normal? : Decimal → Option (Int × Int)
  | finite negative coefficient exponent =>
    let (n, e) := dropZeros (Binary64.digitCount coefficient) coefficient exponent
    if n = 0 then some (0, 0) else some (if negative then -(n : Int) else n, e)
  | _ => none

/-- Is a decimal number with this coefficient and exponent equal to a fraction with a power of two as its
denominator?  Magnitudes far beyond the range of the fraction are settled without writing out their power of
ten. -/
def isRatio (coefficient exponent : Int) (num : Int) (den : Nat) : Bool :=
  if exponent ≥ 0 then
    exponent ≤ Binary64.digitCount num.natAbs && coefficient * Nat.pow 10 exponent.toNat * den == num
  else -exponent ≤ 1100 && coefficient * den == num * Nat.pow 10 (-exponent).toNat

end Decimal

end RouteDoc
