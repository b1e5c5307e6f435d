import RouteDoc.Number.Real

/-!
# Codes of values

The code of a value is a number of 64 bits that equal values share, whatever their kinds.  A number is
coded by its residue modulo the prime `2 ^ 61 - 1`, in which a fraction has one too, with the sign of the
number; a sequence by mixing the codes of its items in order.

* `Code.ofReal`, `Code.ofComplex` — the codes of numbers;
* `Code.ofItems` — the code of a sequence.
-/

namespace RouteDoc

/-- A code. -/
abbrev Code := UInt64

namespace Code

/-- The modulus of the residues of numbers. -/
def modulus : Nat := 2305843009213693951

/-- The power of a residue. -/
def power (base exponent : Nat) : Nat :=
  if _ : exponent = 0 then 1
  else
    let half := power (base * base % modulus) (exponent / 2)
    if exponent % 2 = 1 then half * base % modulus else half
termination_by exponent
decreasing_by omega

/-- The inverse of a residue. -/
def inverse (n : Nat) : Nat := power (n % modulus) (modulus - 2)

/-- The code `-1` is not in use: `-2` stands for it. -/
def proper (c : Code) : Code := if c = 0 - 1 then 0 - 2 else c

/-- A residue with a sign as a code. -/
def signed (negative : Bool) (residue : Nat) : Code :=
  proper (if negative then 0 - UInt64.ofNat residue else UInt64.ofNat residue)

/-- The code of an infinite number, but for its sign. -/
def infiniteResidue : Nat := 314159

/-- The code of a real number; a NaN has none. -/
def ofReal : RealNumber → Option Code
  | .ratio num den => some (signed (num < 0) (num.natAbs % modulus * inverse den % modulus))
  | .decimal coefficient exponent =>
    let scale := power (if exponent < 0 then inverse 10 else 10) exponent.natAbs
    some (signed (coefficient < 0) (coefficient.natAbs % modulus * scale % modulus))
  | .infinite negative => some (signed negative infiniteResidue)
  | .nan => none

/-- The code of an integer. -/
def ofInteger (i : Int) : Code := signed (i < 0) (i.natAbs % modulus)

/-- The weight of the code of an imaginary part. -/
def imaginaryWeight : Code := 1000003

/-- The code of a number by its real part and its imaginary part. -/
def ofComplex (re : RealNumber) (im : Binary64) : Option Code := do
  let real ← ofReal re
  let imaginary ← ofReal (.ofBinary im)
  return proper (real + imaginaryWeight * imaginary)

/-- The bits of a code moved around to the left. -/
def rotated (c : Code) (count : UInt64) : Code := (c <<< count) ||| (c >>> (64 - count))

/-- The code of a sequence with the given codes of items. -/
def ofItems (codes : List Code) : Code :=
  let mixed := codes.foldl
    (fun acc c => rotated (acc + c * 14029467366897019727) 31 * 11400714785074694791) 2870177450012600261
  let sum := mixed + (UInt64.ofNat codes.length ^^^ (2870177450012600261 ^^^ 3527539))
  if sum = 0 - 1 then 1546275796 else sum

end Code

end RouteDoc
