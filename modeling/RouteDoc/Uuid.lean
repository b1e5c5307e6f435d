import RouteDoc.Number.Numeral
import RouteDoc.Text.Quoted

/-!
# Identifiers of 128 bits

An identifier is a number that is written with thirty-two hexadecimal digits in five groups.

* `Uuid.ofText`, `Uuid.text` — reading and writing an identifier.
-/

namespace RouteDoc

/-- An identifier. -/
structure Uuid where
  bits : Nat
  deriving DecidableEq, Repr, Inhabited

namespace Uuid

/-- The identifier that a text denotes; hyphens, braces and the words of a resource name do not count. -/
def ofText (s : String) : Uuid :=
  let bare := (s.replace "urn:" "").replace "uuid:" ""
  match Numeral.readInteger 16 (bare.toList.filter fun c => c != '\x7b' && c != '\x7d' && c != '-') with
  | .ok n => ⟨n.toNat⟩
  | .error _ => ⟨0⟩

/-- The text of an identifier. -/
def text (u : Uuid) : String :=
  let cs := hexPadded 32 u.bits
  let group (first length : Nat) : List Char := (cs.drop first).take length
  String.ofList (group 0 8 ++ '-' :: group 8 4 ++ '-' :: group 12 4 ++ '-' :: group 16 4 ++ '-' :: group 20 12)

end Uuid

end RouteDoc
