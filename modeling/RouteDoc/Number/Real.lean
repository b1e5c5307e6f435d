import RouteDoc.Number.Complex
import RouteDoc.Number.Decimal

/-!
# Real numbers across their kinds

Integers, binary numbers and decimal ones are equal when they are so exactly.

* `RealNumber.same` — equality of numbers of any kind.
-/

namespace RouteDoc

/-- A real number of any kind. -/
inductive RealNumber where
  | ratio (num : Int) (den : Nat)
  | decimal (coefficient exponent : Int)
  | infinite (negative : Bool)
  | nan
  deriving DecidableEq, Repr

namespace RealNumber

/-- Exact equality. -/
def same : RealNumber → RealNumber → Bool
  | ratio a b, ratio c d => a * d == c * b
  | ratio a b, decimal c e => Decimal.isRatio c e a b
  | decimal c e, ratio a b => Decimal.isRatio c e a b
  | decimal c e, decimal c' e' => c == c' && e == e'
  | infinite m, infinite n => m == n
  | _, _ => false

/-- The number of a binary one. -/
def ofBinary (x : Binary64) : RealNumber :=
  match x, x.ratio? with
  | .infinite n, _ => infinite n
  | _, some (a, b) => ratio a b
  | _, none => nan

/-- The number of a decimal one. -/
def ofDecimal (d : Decimal) : RealNumber :=
  match d, d.normal? with
  | .infinite n, _ => infinite n
  | _, some (c, e) => decimal c e
  | _, none => nan

end RealNumber

end RouteDoc
