import RouteDoc.Failure
import RouteDoc.Value

/-!
# Validation of fields

What the fields of a record accept.  A text field accepts texts alone; a truth field also accepts zero and
one and the common words for yes and no, in any letter case, be they texts or octets.

* `Field.text`, `Field.truth`, `Field.texts` — reading a field, or saying what is wrong with it;
* `Value.isTruthy` — does a value count as true where only that is asked?
* `Field.Given` — what is given for a truth field, which may count otherwise than it is read.
-/

namespace RouteDoc

/-- Does a value count as true?  Zero and what is empty do not. -/
def Value.isTruthy : Value → Bool
  | .null => false
  | .bool b => b
  | .int i => i != 0
  | .str s => !s.isEmpty
  | .scalar (.float x) => x.toInt? != some 0
  | .scalar (.bytes octets) => !octets.isEmpty
  | .scalar _ => true
  | .list items => !items.isEmpty
  | .set items => !items.isEmpty
  | .map entries => !entries.isEmpty
  | .enclosing _ => true

/-- The words for yes. -/
def wordsForTrue : List String := ["1", "true", "t", "yes", "y", "on"]

/-- The words for no. -/
def wordsForFalse : List String := ["0", "false", "f", "no", "n", "off"]

namespace Field

/-- The result of reading a field: its value or what is wrong. -/
abbrev Reading (α : Type) := Except (List Problem) α

/-- Something is wrong with a field as a whole. -/
def wrong {α : Type} (field fault : String) : Reading α := .error [⟨[field], fault⟩]

/-- The problems of a reading. -/
def problems {α : Type} : Reading α → List Problem
  | .ok _ => []
  | .error ps => ps

/-- A field that has to be there and to be a text. -/
def text (field : String) : Option Value → Reading String
  | some (.str s) => .ok s
  | some _ => wrong field "string_type"
  | none => wrong field "missing"

/-- The truth value of a number: zero and one have one. -/
def truthOfNumber (field : String) : Option Int → Reading Bool
  | some 0 => .ok false
  | some 1 => .ok true
  | _ => wrong field "bool_parsing"

/-- The truth value of a word. -/
def truthOfWord (field word : String) : Reading Bool :=
  let lower := word.map Char.toLower
  if wordsForTrue.contains lower then .ok true
  else if wordsForFalse.contains lower then .ok false
  else wrong field "bool_parsing"

/-- A field that is a truth value. -/
def truth (field : String) : Value → Reading Bool
  | .bool b => .ok b
  | .int i => truthOfNumber field (some i)
  | .scalar (.float x) => truthOfNumber field x.toInt?
  | .str s => truthOfWord field s
  | .scalar (.bytes octets) =>
    match Utf8.decode octets with
    | .ok cs => truthOfWord field (String.ofList cs)
    | .error _ => wrong field "bool_parsing"
  | _ => wrong field "bool_type"

/-- What is given for a truth field: the plain value that it is read as, and whether it counts as true where only that
is asked.  An object of a class of its own, such as a decimal number or a member of an enumeration, answers the two
questions for itself. -/
structure Given where
  value : Value
  counts : Bool
  deriving Repr, Inhabited

/-- A plain value as it is given. -/
def Given.plain (v : Value) : Given := ⟨v, v.isTruthy⟩

/-- The items of a list of texts, counted from a number on. -/
def textItems (field : String) (index : Nat) : List Value → Reading (List String)
  | [] => .ok []
  | .str s :: rest => (textItems field (index + 1) rest).map (s :: ·)
  | _ :: rest =>
    .error (⟨[field, toString index], "string_type"⟩ :: problems (textItems field (index + 1) rest))

/-- A field that is a list of texts. -/
def texts (field : String) : Value → Reading (List String)
  | .list items => textItems field 0 items
  | _ => wrong field "list_type"

end Field

end RouteDoc
