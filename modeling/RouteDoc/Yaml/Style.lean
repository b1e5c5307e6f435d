import RouteDoc.Yaml.Cursor
import RouteDoc.Yaml.Tag

/-!
# Styles of scalars

The ways in which a scalar can be written, and the choice among them.  A scalar is written plain when its
look gives it its tag and nothing in it could be taken for structure; otherwise in single quotes, in which
every character stands for itself; otherwise in double quotes, in which characters can be escaped.  Octets
are written as lines under a bar.

* `Style.isPlain`, `Style.isSingle` — what can be written plain or in single quotes;
* `Style.choose` — the style of a scalar.
-/

namespace RouteDoc.Yaml

/-- A way of writing a scalar. -/
inductive Style where
  | plain
  | single
  | double
  | literal
  deriving DecidableEq, Repr

namespace Style

/-- The characters that end a line inside of a scalar. -/
def endsLine (c : Char) : Bool := c == '\n' || c == '\u0085' || c == '\u2028' || c == '\u2029'

/-- The characters that can stand as themselves outside of double quotes, a line feed apart. -/
def isOrdinary (c : Char) : Bool :=
  let n := c.toNat
  c != Utf8.orderMark
    && ((0x20 ≤ n && n ≤ 0x7e) || n == 0x85 || (0xa0 ≤ n && n ≤ 0xd7ff) || (0xe000 ≤ n && n ≤ 0xfffd)
      || (0x10000 ≤ n && n < 0x10ffff))

/-- The characters that mark structure when they stand first. -/
def indicators : List Char :=
  ['#', ',', '[', ']', '\x7b', '\x7d', '&', '*', '!', '|', '>', '\'', '"', '%', '@', '\x60']

/-- Does a text begin with what marks structure? -/
def beginsMarked : List Char → Bool
  | [] => false
  | '-' :: '-' :: '-' :: _ => true
  | '.' :: '.' :: '.' :: _ => true
  | c :: rest => indicators.contains c || ((c == '?' || c == '-') && (rest.isEmpty || rest.head? == some ' '))

/-- Does a colon before a blank or at the end, or a number sign behind a blank, stand in a text? -/
def holdsMark : List Char → Bool
  | [] => false
  | [c] => c == ':'
  | a :: b :: rest => (a == ':' && b == ' ') || (a == ' ' && b == '#') || holdsMark (b :: rest)

/-- Does a blank stand at either end of a text? -/
def hasOuterBlank (cs : List Char) : Bool := cs.head? == some ' ' || cs.getLast? == some ' '

/-- Do a blank and the end of a line stand next to each other? -/
def hasBlankAtBreak : List Char → Bool
  | a :: b :: rest => (a == ' ' && endsLine b) || (endsLine a && b == ' ') || hasBlankAtBreak (b :: rest)
  | _ => false

/-- Can a text be written plain? -/
def isPlain (cs : List Char) : Bool :=
  !beginsMarked cs && !holdsMark cs && !hasOuterBlank cs && cs.all fun c => isOrdinary c && !endsLine c

/-- Can a text be written in single quotes? -/
def isSingle (cs : List Char) : Bool := !hasBlankAtBreak cs && cs.all fun c => c == '\n' || isOrdinary c

/-- The style of a scalar with a tag. -/
def choose (tag : Tag) (text : String) : Style :=
  if tag == .binary then if text.isEmpty then double else literal
  else if tag == Tag.ofPlain text && isPlain text.toList then plain
  else if isSingle text.toList then single
  else double

/-- Does a style by itself give a scalar this tag? -/
def implies (style : Style) (tag : Tag) (text : String) : Bool :=
  match style with
  | plain => tag == Tag.ofPlain text
  | _ => tag == .str

end Style

end RouteDoc.Yaml
