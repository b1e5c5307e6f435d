/-!
# Binary floating-point numbers

The numbers a document writes with a point or an exponent are the 64-bit binary ones.  They are kept
as their three fields, so equality is structural, and all arithmetic is exact on naturals followed by
one rounding:

* `Binary64.ofRatio` rounds a quotient of naturals to nearest, ties to even;
* `Binary64.ofDecimal` reads `digits · 10 ^ scale`;
* `Binary64.add` and `Binary64.mul` are the exact sum and product, rounded once;
* `Binary64.ratio?` is the number as a fraction.
-/

namespace RouteDoc

/-- The leading bit of a significand, which is not stored: `2 ^ 52`. -/
abbrev leadingBit : Nat := 4503599627370496

/-- A 64-bit binary floating-point number, by its fields.  The finite ones carry the biased exponent
and the fraction below the leading bit; biased exponent `0` marks the subnormal numbers. -/
inductive Binary64 where
  /-- Not a number.  The common one is one thing wherever it occurs; the others are one thing each. -/
  | nan (common : Bool)
  | infinite (negative : Bool)
  | finite (negative : Bool) (biased : Fin 2047) (fraction : Fin leadingBit)
  deriving DecidableEq, Repr

namespace Binary64

/-- Positive zero. -/
def zero : Binary64 := .finite false 0 0

instance : Inhabited Binary64 := ⟨zero⟩

/-- The integer significand of the fields: the fraction, with the leading bit of a normal number. -/
def significandOf (biased : Fin 2047) (fraction : Fin leadingBit) : Nat :=
  if biased.val = 0 then fraction.val else leadingBit + fraction.val

/-- The power of two that the significand counts. -/
def exponentOf (biased : Fin 2047) : Int :=
  (Nat.max biased.val 1 : Nat) - (1075 : Int)

/-- The number with the given significand (below `2 ^ 53`) and exponent, infinite when the exponent is
out of range. -/
def assemble (negative : Bool) (significand : Nat) (exponent : Int) : Binary64 :=
  if significand < leadingBit then
    .finite negative 0 (Fin.ofNat _ significand)
  else if exponent > 971 then
    .infinite negative
  else
    .finite negative (Fin.ofNat _ (exponent + 1075).toNat) (Fin.ofNat _ (significand - leadingBit))

/-- `num / den` rounded to the nearest natural number, a tie to the even one. -/
def roundHalfEven (num den : Nat) : Nat :=
  let low := num / den
  let twice := 2 * (num % den)
  if twice < den then low
  else if twice > den then low + 1
  else if low % 2 = 0 then low else low + 1

/-- The quotient `num / (den · 2 ^ exponent)` as a pair of naturals. -/
def scaled (num den : Nat) (exponent : Int) : Nat × Nat :=
  if exponent < 0 then (num * Nat.pow 2 (-exponent).toNat, den) else (num, den * Nat.pow 2 exponent.toNat)

/-- The number nearest to `num / den`, ties to even; `den` is positive. -/
def ofRatio (negative : Bool) (num den : Nat) : Binary64 :=
  if num = 0 then .finite negative 0 0
  else
    let guess : Int := (Nat.log2 num : Int) - (Nat.log2 den : Int) - 53
    let (n, d) := scaled num den guess
    let fitted := if n / d ≥ 2 * leadingBit then guess + 1 else guess
    let exponent := max fitted (-1074)
    let (n, d) := scaled num den exponent
    let significand := roundHalfEven n d
    if significand = 2 * leadingBit then assemble negative leadingBit (exponent + 1)
    else assemble negative significand exponent

/-- The number of decimal digits of a natural number; `0` has one. -/
def digitCount (n : Nat) : Nat := (Nat.toDigits 10 n).length

/-- The number nearest to `digits · 10 ^ scale`.  Magnitudes far beyond the range are settled without
writing out their power of ten. -/
def ofDecimal (negative : Bool) (digits : Nat) (scale : Int) : Binary64 :=
  if digits = 0 then .finite negative 0 0
  else if scale + digitCount digits > 400 then .infinite negative
  else if scale + digitCount digits < -400 then .finite negative 0 0
  else if scale < 0 then ofRatio negative digits (Nat.pow 10 (-scale).toNat)
  else ofRatio negative (digits * Nat.pow 10 scale.toNat) 1

/-- The nearest number to an integer. -/
def ofInt (i : Int) : Binary64 := ofRatio (decide (i < 0)) i.natAbs 1

/-- The same magnitude with the opposite sign. -/
def neg : Binary64 → Binary64
  | nan _ => nan false
  | infinite n => infinite (!n)
  | finite n e f => finite (!n) e f

/-- A finite number as `value · 2 ^ exponent` with an integer value. -/
def dyadic? : Binary64 → Option (Int × Int)
  | finite n e f =>
    let m : Int := significandOf e f
    some (if n then -m else m, exponentOf e)
  | _ => none

/-- The number nearest to `value · 2 ^ exponent`; an exact zero has the given sign. -/
def ofDyadic (zeroNegative : Bool) (value : Int) (exponent : Int) : Binary64 :=
  if value = 0 then .finite zeroNegative 0 0
  else if exponent < 0 then ofRatio (decide (value < 0)) value.natAbs (Nat.pow 2 (-exponent).toNat)
  else ofRatio (decide (value < 0)) (value.natAbs * Nat.pow 2 exponent.toNat) 1

/-- The sum of two numbers, rounded once.  Infinities of opposite sign have none. -/
def add (x y : Binary64) : Binary64 :=
  match x, y with
  | nan _, _ => nan false
  | _, nan _ => nan false
  | infinite m, infinite n => if m == n then infinite m else nan false
  | infinite m, _ => infinite m
  | _, infinite n => infinite n
  | finite m e f, finite n e' f' =>
    let p := exponentOf e
    let q := exponentOf e'
    let r := min p q
    let signed (negative : Bool) (size : Nat) : Int := if negative then -(size : Int) else size
    let total := signed m (significandOf e f * Nat.pow 2 (p - r).toNat)
      + signed n (significandOf e' f' * Nat.pow 2 (q - r).toNat)
    ofDyadic (m && n && total == 0) total r

/-- The number nearest to `size · 2 ^ exponent` with the given sign. -/
def ofScaled (negative : Bool) (size : Nat) (exponent : Int) : Binary64 :=
  if exponent < 0 then ofRatio negative size (Nat.pow 2 (-exponent).toNat)
  else ofRatio negative (size * Nat.pow 2 exponent.toNat) 1

/-- The product of two numbers, rounded once.  Zero times infinity has none. -/
def mul (x y : Binary64) : Binary64 :=
  match x, y with
  | nan _, _ => nan false
  | _, nan _ => nan false
  | infinite m, infinite n => infinite (m != n)
  | infinite m, finite n e f => if significandOf e f = 0 then nan false else infinite (m != n)
  | finite m e f, infinite n => if significandOf e f = 0 then nan false else infinite (m != n)
  | finite m e f, finite n e' f' =>
    ofScaled (m != n) (significandOf e f * significandOf e' f') (exponentOf e + exponentOf e')

/-- A finite number as a fraction with a positive denominator. -/
def ratio? (x : Binary64) : Option (Int × Nat) :=
  (dyadic? x).map fun (a, p) => if p ≥ 0 then (a * Nat.pow 2 p.toNat, 1) else (a, Nat.pow 2 (-p).toNat)

/-- The integer that a finite number equals, when it equals one. -/
def toInt? (x : Binary64) : Option Int :=
  match dyadic? x with
  | some (a, p) =>
    if p ≥ 0 then some (a * Nat.pow 2 p.toNat)
    else
      let d : Int := (Nat.pow 2 (-p).toNat : Nat)
      if a % d = 0 then some (a / d) else none
  | none => none

/-- Numeric equality: a NaN differs from itself and the two zeros are equal. -/
def sameNumber : Binary64 → Binary64 → Bool
  | nan _, _ => false
  | _, nan _ => false
  | finite n e f, finite n' e' f' =>
    (n == n' && e == e' && f == f') || (e.val == 0 && f.val == 0 && e'.val == 0 && f'.val == 0)
  | x, y => x == y

/-- True of the numbers that are neither infinite nor NaN. -/
def isFinite : Binary64 → Bool
  | finite _ _ _ => true
  | _ => false

end Binary64

end RouteDoc
