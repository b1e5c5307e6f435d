/-!
# Characters in two halves

A character beyond the first plane can be written as two codes of sixteen bits, which by themselves stand for
no character.

* `Surrogate.join` — the character of two halves;
* `Surrogate.replacement` — what stands for a half by itself.
-/

namespace RouteDoc.Surrogate

/-- Is a code the first half of a character? -/
def isHigh (n : Nat) : Bool := 0xD800 ≤ n && n < 0xDC00

/-- Is a code the second half of a character? -/
def isLow (n : Nat) : Bool := 0xDC00 ≤ n && n < 0xE000

/-- The character of two halves. -/
def join (high low : Nat) : Char := Char.ofNat (0x10000 + (high - 0xD800) * 0x400 + (low - 0xDC00))

/-- The character that stands for a half by itself. -/
def replacement : Char := '\ufffd'

end RouteDoc.Surrogate
