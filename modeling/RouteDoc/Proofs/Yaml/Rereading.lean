import RouteDoc.Number.Numeral
import RouteDoc.Proofs.Json.Grammar
import RouteDoc.Proofs.Yaml.Positions
import RouteDoc.Yaml.Token.Scalar

/-!
# JSON texts in the eyes of a YAML reader

JSON and YAML agree on the outlines of a text, and differ in the small: blanks, line ends inside quotes, names
before a colon and the look of numbers follow other rules.  Here is what those rules make of a JSON text.

* `Body.refold?` — a text in quotes, with its line ends folded;
* `Checks`, `Node.all` — conditions on the leaves of a value;
* `Source.readable` — is the text YAML at all?
* `Source.reread` — the value that it then has.
-/

namespace RouteDoc.Json

open Yaml

/-! ### Texts in quotes -/

namespace Piece

/-- The first character of the spelling. -/
def first : Piece → Char
  | plain c _ => c
  | _ => '\\'

/-- Is it a blank? -/
def isSpace (p : Piece) : Bool := p.first == ' '

/-- Does it end a line? -/
def endsLine (p : Piece) : Bool := isBreak p.first

/-- Is it one of the escapes of a character in two halves? -/
def isPair : Piece → Bool
  | pair .. => true
  | _ => false

end Piece

/-- Blanks and line ends in quotes whose meaning depends on what follows. -/
inductive Held where
  /-- Blanks on a line. -/
  | blanks (count : Nat)
  /-- The first line end and those after it. -/
  | breaks (first more : List Char)

namespace Held

/-- The text that they stand for. -/
def text : Held → List Char
  | blanks count => List.replicate count ' '
  | breaks first more => foldBreaks first more

/-- One more blank; those at the start of a line do not count. -/
def blank : Held → Held
  | blanks count => blanks (count + 1)
  | breaks first more => breaks first more

/-- One more line end; blanks in front of the first do not count. -/
def lineEnd (c : Char) : Held → Held
  | blanks _ => breaks (Yaml.lineEnd c) []
  | breaks first more => breaks first (more ++ Yaml.lineEnd c)

end Held

namespace Body

/-- Does a line begin with the mark of a document? -/
def beginsMark (b : Body) : Bool := (Cursor.start (b.chars ++ ['"'])).atDocumentMark

/-- The text after blanks and line ends, with line ends folded; none when a mark of a document stands in it. -/
def refoldAfter? : Held → Body → Option (List Char)
  | held, [] => some held.text
  | held, p :: rest =>
    if p.isSpace then refoldAfter? held.blank rest
    else if p.endsLine then if beginsMark rest then none else refoldAfter? (held.lineEnd p.char) rest
    else (refoldAfter? (.blanks 0) rest).map fun cs => held.text ++ p.char :: cs

/-- The text with line ends folded. -/
def refold? (b : Body) : Option (List Char) := refoldAfter? (.blanks 0) b

/-- The text that is read between quotes. -/
def reread (b : Body) : String := String.ofList (b.refold?.getD [])

/-- Are all characters beyond the first plane written as they are? -/
def unpaired (b : Body) : Bool := b.all fun p => !p.isPair

end Body

/-! ### Leaves -/

/-- Are there no tabs among blanks? -/
def Blanks.untabbed (bs : Blanks) : Bool := bs.chars.all (· != '\t')

/-- The most characters from the beginning of a name up to its colon. -/
def keyLimit : Nat := 1024

/-- Is a name read as a key: does the colon follow on the same line, and near enough? -/
def isNear (name : Body) (behind : Blanks) : Bool :=
  !(name.chars ++ behind.chars).any isBreak && name.chars.length + behind.length + 2 ≤ keyLimit

namespace Number

/-- Does a number have the look of one with a point: a point, and a sign in front of the exponent? -/
def hasFloatLook (n : Number) : Bool := n.places.isSome && n.exponent.all fun e => e.sign.isSome

/-- Does an integer have few enough digits to be read? -/
def fits (n : Number) : Bool := !n.isInteger || n.whole.chars.length ≤ Numeral.digitLimit

/-- What a number is read as: a text, when it does not have the look of a number. -/
def reread (n : Number) : Scalar :=
  if n.isInteger then .int n.integer
  else if n.hasFloatLook then .float n.nearest
  else .str (String.ofList n.chars)

end Number

/-! ### Values -/

mutual

/-- What a value is read as. -/
def Node.reread : Node → Value
  | .word w => .scalar w.value
  | .number n => .scalar n.reread
  | .text b => .str b.reread
  | .emptyList _ => .list []
  | .list items => .list items.reread
  | .emptyObject _ => .map []
  | .object members => .map (Entries.ofPairs members.reread)

/-- What items are read as. -/
def Items.reread : Items → List Value
  | .last _ item _ => [item.reread]
  | .more _ item _ rest => item.reread :: rest.reread

/-- The keys and values that members are read as. -/
def Members.reread : Members → List (Key × Value)
  | .last _ name _ _ item _ => [(.str name.reread, item.reread)]
  | .more _ name _ _ item _ rest => (.str name.reread, item.reread) :: rest.reread

end

/-- Conditions on the leaves of a value. -/
structure Checks where
  blanks : Blanks → Bool := fun _ => true
  text : Body → Bool := fun _ => true
  /-- A name with the blanks behind it. -/
  key : Body → Blanks → Bool := fun _ _ => true
  number : Number → Bool := fun _ => true

mutual

/-- Do the leaves of a value meet conditions? -/
def Node.all (c : Checks) : Node → Bool
  | .word _ => true
  | .number n => c.number n
  | .text b => c.text b
  | .emptyList inside => c.blanks inside
  | .list items => items.all c
  | .emptyObject inside => c.blanks inside
  | .object members => members.all c

/-- Do the leaves of items meet conditions? -/
def Items.all (c : Checks) : Items → Bool
  | .last before item after => c.blanks before && (item.all c && c.blanks after)
  | .more before item after rest => c.blanks before && (item.all c && (c.blanks after && rest.all c))

/-- Do the leaves of members meet conditions? -/
def Members.all (c : Checks) : Members → Bool
  | .last before name behind ahead item after =>
    (c.blanks before && (c.text name && (c.key name behind && (c.blanks behind && c.blanks ahead))))
      && (item.all c && c.blanks after)
  | .more before name behind ahead item after rest =>
    (c.blanks before && (c.text name && (c.key name behind && (c.blanks behind && c.blanks ahead))))
      && (item.all c && (c.blanks after && rest.all c))

end

namespace Checks

/-- The leaves make up tokens. -/
def scanned : Checks := { blanks := Blanks.untabbed, text := fun b => b.refold?.isSome }

/-- Names are read as keys. -/
def keyed : Checks := { key := isNear }

/-- Numbers have values. -/
def sized : Checks := { number := Number.fits }

/-- The leaves are read as what they denote. -/
def faithful : Checks :=
  { text := fun b => b.refold? == some (b.map Piece.char), number := fun n => n.isInteger || n.hasFloatLook }

/-- No text is written with characters in two halves. -/
def unpaired : Checks := { text := Body.unpaired }

end Checks

namespace Source

/-- Is the text of an object? -/
def isObject (s : Source) : Bool :=
  match s.node with
  | .emptyObject _ | .object _ => true
  | _ => false

/-- Is the text YAML?  Its characters are admitted, its leaves make up tokens, its names are keys and its
numbers have values. -/
def readable (s : Source) : Bool :=
  s.chars.all isAdmitted && (s.lead.untabbed && s.trail.untabbed) && s.node.all .scanned && s.node.all .keyed
    && s.node.all .sized

/-- What the text is read as. -/
def reread (s : Source) : Value := s.node.reread

end Source

end RouteDoc.Json
