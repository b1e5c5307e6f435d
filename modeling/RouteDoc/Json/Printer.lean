import RouteDoc.Number.Numeral
import RouteDoc.Number.Shortest
import RouteDoc.Value

/-!
# Writing JSON

A document is laid out with two blanks per level, one member or item to a line; characters beyond ASCII
stand as themselves.  Numbers, truth values and null may be keys and are written as their texts.  What
JSON cannot hold is refused with the name of its type.
-/

namespace RouteDoc.Json

/-- A hexadecimal digit. -/
def hexDigit (n : Nat) : Char := Nat.digitChar (n % 16)

/-- A character inside quotes: quotes, backslashes and control characters are escaped. -/
def quotedChar (c : Char) : List Char :=
  if c = '"' then ['\\', '"']
  else if c = '\\' then ['\\', '\\']
  else if c = '\n' then ['\\', 'n']
  else if c = '\r' then ['\\', 'r']
  else if c = '\t' then ['\\', 't']
  else if c = '\x0c' then ['\\', 'f']
  else if c = '\x08' then ['\\', 'b']
  else if c.toNat < 32 then ['\\', 'u', '0', '0', hexDigit (c.toNat / 16), hexDigit c.toNat]
  else [c]

/-- A text in quotes. -/
def quoted (s : String) : List Char := '"' :: s.toList.flatMap quotedChar ++ ['"']

/-- The text of a number with a point; those that are not finite have names of their own. -/
def floatText : Binary64 → String
  | .nan _ => "NaN"
  | .infinite false => "Infinity"
  | .infinite true => "-Infinity"
  | x => x.text

/-- The text of a scalar that JSON can hold. -/
def scalarText : Scalar → Except Failure (List Char)
  | .null => .ok "null".toList
  | .bool b => .ok (if b then "true" else "false").toList
  | .int i => Numeral.integerText i
  | .float x => .ok (floatText x).toList
  | .str s => .ok (quoted s)
  | other => .error (.unwritable other.kind)

/-- The text of a key: a text as it is, the other simple scalars by their own texts in quotes. -/
def keyText : Key → Except Failure (List Char)
  | .scalar (.str s) => .ok (quoted s)
  | .scalar .null => .ok (quoted "null")
  | .scalar (.bool b) => .ok (quoted (if b then "true" else "false"))
  | .scalar (.int i) => do .ok (quoted (String.ofList (← Numeral.integerText i)))
  | .scalar (.float x) => .ok (quoted (floatText x))
  | .scalar other => .error (.unwritableKey other.kind)
  | .tuple _ => .error (.unwritableKey "tuple")

/-- A line break and the blanks of a level. -/
def newline (level : Nat) : List Char := '\n' :: List.replicate (2 * level) ' '

mutual

/-- The text of a value whose parts stand one level further in. -/
def valueText (level : Nat) : Value → Except Failure (List Char)
  | .scalar s => scalarText s
  | .list [] => .ok ['[', ']']
  | .list (v :: rest) => do
    let head ← valueText (level + 1) v
    let tail ← itemsText (level + 1) rest
    .ok ('[' :: newline (level + 1) ++ head ++ tail ++ newline level ++ [']'])
  | .set _ => .error (.unwritable "set")
  | .map [] => .ok ['\x7b', '\x7d']
  | .map ((k, v) :: rest) => do
    let key ← keyText k
    let head ← valueText (level + 1) v
    let tail ← membersText (level + 1) rest
    .ok ('\x7b' :: newline (level + 1) ++ key ++ [':', ' '] ++ head ++ tail ++ newline level ++ ['\x7d'])
  | .enclosing _ => .error .circularDocument

/-- The texts of the items after the first. -/
def itemsText (level : Nat) : List Value → Except Failure (List Char)
  | [] => .ok []
  | v :: rest => do
    let head ← valueText level v
    let tail ← itemsText level rest
    .ok (',' :: newline level ++ head ++ tail)

/-- The texts of the members after the first. -/
def membersText (level : Nat) : List (Key × Value) → Except Failure (List Char)
  | [] => .ok []
  | (k, v) :: rest => do
    let key ← keyText k
    let head ← valueText level v
    let tail ← membersText level rest
    .ok (',' :: newline level ++ key ++ [':', ' '] ++ head ++ tail)

end

/-- The text of a document, closed by a line break. -/
def render (v : Value) : Except Failure String := do
  .ok (String.ofList ((← valueText 0 v) ++ ['\n']))

end RouteDoc.Json
