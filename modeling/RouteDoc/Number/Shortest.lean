import RouteDoc.Number.Binary64

/-!
# Shortest decimal text

A binary number is written with the fewest decimal digits that read back to it.  The reals that round
to the number form an interval; for one digit, two digits, and so on, the two neighbours of the number
on that decimal grid are tried, and the first grid with a neighbour inside the interval wins.

* `Binary64.shortest` gives the digits and the power of ten of the last one;
* `Binary64.text` lays them out: positional while the leading digit stands between `10 ^ -4` and
  `10 ^ 15`, with an exponent otherwise, always with a point or an exponent.
-/

namespace RouteDoc.Binary64

/-- The reals that round to a finite number, in units of `2 ^ unit`: `low` and `high` are the ends,
`value` the number, and the ends belong to the interval when `closed`. -/
structure Interval where
  low : Nat
  value : Nat
  high : Nat
  unit : Int
  closed : Bool

/-- The rounding interval of a positive finite number.  Below a power of two the gap is half as wide. -/
def interval (biased : Fin 2047) (fraction : Fin leadingBit) : Interval :=
  let m := significandOf biased fraction
  let narrow := fraction.val = 0 ∧ biased.val > 1
  { low := if narrow then 4 * m - 1 else 4 * m - 2
    value := 4 * m
    high := 4 * m + 2
    unit := exponentOf biased - 2
    closed := m % 2 = 0 }

/-- `a · 2 ^ unit` and `b · 10 ^ scale` over a common denominator. -/
def commonScale (a : Nat) (unit : Int) (b : Nat) (scale : Int) : Nat × Nat :=
  let left := if unit < 0 then a else a * Nat.pow 2 unit.toNat
  let right := if unit < 0 then b * Nat.pow 2 (-unit).toNat else b
  if scale < 0 then (left * Nat.pow 10 (-scale).toNat, right) else (left, right * Nat.pow 10 scale.toNat)

/-- Does the decimal `digits · 10 ^ scale` round to the number of the interval? -/
def Interval.holds (i : Interval) (digits : Nat) (scale : Int) : Bool :=
  let (low, d₁) := commonScale i.low i.unit digits scale
  let (high, d₂) := commonScale i.high i.unit digits scale
  if i.closed then low ≤ d₁ && d₂ ≤ high else low < d₁ && d₂ < high

/-- The greatest multiple of `10 ^ scale` not above the number, counted in that unit. -/
def Interval.below (i : Interval) (scale : Int) : Nat :=
  let (value, grid) := commonScale i.value i.unit 1 scale
  value / grid

/-- Of two neighbours on a grid the one nearer to the number, an exact tie to the even digit. -/
def Interval.nearer (i : Interval) (digits : Nat) (scale : Int) : Nat :=
  let (value, middle) := commonScale (2 * i.value) i.unit (2 * digits + 1) scale
  if value < middle then digits
  else if value > middle then digits + 1
  else if digits % 2 = 0 then digits else digits + 1

/-- The first hit on the grids `10 ^ scale`, `10 ^ (scale - 1)`, …; the count bounds the search. -/
def Interval.search (i : Interval) : Nat → Int → Nat × Int
  | 0, scale => (i.below scale, scale)
  | count + 1, scale =>
    let low := i.below scale
    let lowHit := low > 0 && i.holds low scale
    let highHit := i.holds (low + 1) scale
    if lowHit && highHit then (i.nearer low scale, scale)
    else if lowHit then (low, scale)
    else if highHit then (low + 1, scale)
    else i.search count (scale - 1)

/-- The decimal exponent of the leading digit of the number. -/
def Interval.magnitude (i : Interval) : Int :=
  let binary : Int := (Nat.log2 i.value : Int) + i.unit
  let guess := (binary * 30103).fdiv 100000
  let (value, next) := commonScale i.value i.unit 1 (guess + 1)
  if value ≥ next then guess + 1
  else
    let (value, this) := commonScale i.value i.unit 1 guess
    if value < this then guess - 1 else guess

/-- Trailing zeros move from the digits into the power of ten. -/
def dropZeros : Nat → Nat → Int → Nat × Int
  | 0, digits, scale => (digits, scale)
  | fuel + 1, digits, scale =>
    if digits ≠ 0 ∧ digits % 10 = 0 then dropZeros fuel (digits / 10) (scale + 1) else (digits, scale)

/-- The fewest digits that read back to a positive finite number, and the power of ten of the last. -/
def shortest (biased : Fin 2047) (fraction : Fin leadingBit) : Nat × Int :=
  let i := interval biased fraction
  let (digits, scale) := i.search 18 i.magnitude
  dropZeros 20 digits scale

/-- The digits of a natural number, as characters. -/
def digitChars (n : Nat) : List Char := Nat.toDigits 10 n

/-- An exponent as written: the mark, the sign, and at least two digits. -/
def exponentText (e : Int) : List Char :=
  let digits := digitChars e.natAbs
  'e' :: (if e < 0 then '-' else '+') :: (if digits.length < 2 then '0' :: digits else digits)

/-- The layout of `digits · 10 ^ scale`: positional while the leading digit stands between `10 ^ -4`
and `10 ^ 15`, with an exponent otherwise. -/
def layout (digits : Nat) (scale : Int) : List Char :=
  let ds := digitChars digits
  let point : Int := ds.length + scale
  let lead := point - 1
  if lead < -4 ∨ lead ≥ 16 then
    match ds with
    | [] => []
    | [d] => d :: exponentText lead
    | d :: more => d :: '.' :: more ++ exponentText lead
  else if point ≤ 0 then
    '0' :: '.' :: List.replicate (-point).toNat '0' ++ ds
  else if scale ≥ 0 then
    ds ++ List.replicate scale.toNat '0' ++ ['.', '0']
  else
    ds.take point.toNat ++ '.' :: ds.drop point.toNat

/-- The text of a number: the fewest digits that read back, with a point or an exponent; `nan`, `inf`
and `-inf` for the rest. -/
def text : Binary64 → String
  | nan _ => "nan"
  | infinite false => "inf"
  | infinite true => "-inf"
  | finite negative biased fraction =>
    let body :=
      if significandOf biased fraction = 0 then ['0', '.', '0']
      else
        let (digits, scale) := shortest biased fraction
        layout digits scale
    String.ofList (if negative then '-' :: body else body)

end RouteDoc.Binary64
