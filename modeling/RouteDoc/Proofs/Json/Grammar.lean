import RouteDoc.Json.Reader

/-!
# The grammar of JSON

A JSON text as a tree that keeps the layout: the blanks between tokens, the spelling of every character in
quotes, the digits of every number.  What a tree looks like as a text and what it denotes are read off it, so
a text is JSON when it is the text of a tree.

Beside the words of the grammar the trees admit three more that writers use for numbers that are not finite;
trees without them are strict.

* `Json.Piece`, `Json.Number`, `Json.Word` — the tokens;
* `Json.Node`, `Json.Items`, `Json.Members` — values, the items of lists and the members of objects;
* `Json.Source` — a whole text;
* `chars` and `value` of each — its text and what it denotes.
-/

namespace RouteDoc.Json

/-! ### Tokens -/

/-- A blank character between tokens. -/
abbrev Blank := {c : Char // isBlank c = true}

/-- Blanks between two tokens. -/
abbrev Blanks := List Blank

/-- The text of blanks. -/
def Blanks.chars (bs : Blanks) : List Char := bs.map (·.1)

@[simp] theorem Blanks.chars_nil : Blanks.chars [] = [] := rfl

/-- The characters that stand for themselves in quotes. -/
def isPlain (c : Char) : Bool := 32 ≤ c.toNat && c != '"' && c != '\\'

/-- Four hexadecimal digits with the code that they are. -/
structure Quad where
  a : Char
  b : Char
  c : Char
  d : Char
  code : Nat
  read : hexQuad? a b c d = some code

/-- The text of four hexadecimal digits behind their mark. -/
def Quad.chars (q : Quad) : List Char := ['\\', 'u', q.a, q.b, q.c, q.d]

/-- A character in quotes, as it is spelled. -/
inductive Piece where
  | plain (c : Char) (h : isPlain c = true)
  | letter (c : Char) (h : (escaped? c).isSome = true)
  | code (q : Quad) (h : Surrogate.isHigh q.code = false ∧ Surrogate.isLow q.code = false)
  /-- A character in two halves. -/
  | pair (high low : Quad) (h : Surrogate.isHigh high.code = true ∧ Surrogate.isLow low.code = true)

/-- The text of a spelled character. -/
def Piece.chars : Piece → List Char
  | plain c _ => [c]
  | letter c _ => ['\\', c]
  | code q _ => q.chars
  | pair high low _ => high.chars ++ low.chars

/-- The character that is spelled. -/
def Piece.char : Piece → Char
  | plain c _ => c
  | letter c h => (escaped? c).get h
  | code q _ => Char.ofNat q.code
  | pair high low _ => Surrogate.join high.code low.code

/-- What stands between quotes. -/
abbrev Body := List Piece

/-- The text between quotes, as it is spelled. -/
def Body.chars (b : Body) : List Char := b.flatMap Piece.chars

/-- The text that is spelled between quotes. -/
def Body.text (b : Body) : String := String.ofList (b.map Piece.char)

/-- Decimal digits, at least one. -/
structure Digits where
  chars : List Char
  ne_nil : chars ≠ []
  all_digits : ∀ c ∈ chars, c.isDigit = true

/-- An exponent as written. -/
structure Exponent where
  capital : Bool
  /-- The sign, if there is one: is it a minus? -/
  sign : Option Bool
  digits : Digits

namespace Exponent

/-- The text of a sign that need not be there. -/
def signChars : Option Bool → List Char
  | none => []
  | some minus => [if minus then '-' else '+']

/-- The text of an exponent. -/
def chars (e : Exponent) : List Char :=
  (if e.capital then 'E' else 'e') :: (signChars e.sign ++ e.digits.chars)

/-- The power of ten of an exponent. -/
def value (e : Exponent) : Int :=
  if e.sign = some true then -(digitsValue e.digits.chars : Int) else digitsValue e.digits.chars

end Exponent

/-- A number as written; a zero at the front of the integer part stands alone. -/
structure Number where
  negative : Bool
  whole : Digits
  leading : whole.chars.head? = some '0' → whole.chars = ['0']
  places : Option Digits
  exponent : Option Exponent

namespace Number

/-- The digits behind the point. -/
def placeDigits (n : Number) : List Char := (n.places.map Digits.chars).getD []

/-- The text behind the integer part: the point with its digits, and the exponent. -/
def tail (n : Number) : List Char :=
  (n.places.map fun ds => '.' :: ds.chars).getD [] ++ (n.exponent.map Exponent.chars).getD []

/-- The text of a number. -/
def chars (n : Number) : List Char := (if n.negative then ['-'] else []) ++ (n.whole.chars ++ n.tail)

/-- A number without point and exponent is an integer. -/
def isInteger (n : Number) : Bool := n.places.isNone && n.exponent.isNone

/-- The integer that the digits of the integer part are. -/
def integer (n : Number) : Int := if n.negative then -(digitsValue n.whole.chars : Int) else digitsValue n.whole.chars

/-- The power of ten of the last digit. -/
def scale (n : Number) : Int := (n.exponent.map Exponent.value).getD 0 - n.placeDigits.length

/-- The binary number nearest to a number with point or exponent. -/
def nearest (n : Number) : Binary64 :=
  Binary64.ofDecimal n.negative (digitsValue (n.whole.chars ++ n.placeDigits)) n.scale

/-- What a number denotes. -/
def value (n : Number) : Scalar := if n.isInteger then .int n.integer else .float n.nearest

end Number

/-- The words. -/
inductive Word where
  | null
  | truth (b : Bool)
  /-- The words that are not JSON. -/
  | nan
  | infinity (negative : Bool)
  deriving DecidableEq

namespace Word

/-- The text of a word. -/
def chars : Word → List Char
  | null => "null".toList
  | truth b => (if b then "true" else "false").toList
  | nan => "NaN".toList
  | infinity n => (if n then "-Infinity" else "Infinity").toList

/-- What a word denotes. -/
def value : Word → Scalar
  | null => .null
  | truth b => .bool b
  | nan => .float (.nan true)
  | infinity n => .float (.infinite n)

/-- Is it a word of the grammar? -/
def isStrict : Word → Bool
  | null => true
  | truth _ => true
  | nan => false
  | infinity _ => false

end Word

/-! ### Values -/

mutual

/-- A value as written. -/
inductive Node where
  | word (w : Word)
  | number (n : Number)
  | text (b : Body)
  | emptyList (inside : Blanks)
  | list (items : Items)
  | emptyObject (inside : Blanks)
  | object (members : Members)

/-- The items of a list, each between blanks. -/
inductive Items where
  | last (before : Blanks) (item : Node) (after : Blanks)
  | more (before : Blanks) (item : Node) (after : Blanks) (rest : Items)

/-- The members of an object, with blanks around names and values. -/
inductive Members where
  | last (before : Blanks) (name : Body) (behind ahead : Blanks) (item : Node) (after : Blanks)
  | more (before : Blanks) (name : Body) (behind ahead : Blanks) (item : Node) (after : Blanks) (rest : Members)

end

/-- The text of a name with the colon and the blanks around it. -/
def nameChars (before : Blanks) (name : Body) (behind ahead : Blanks) : List Char :=
  before.chars ++ '"' :: (name.chars ++ '"' :: (behind.chars ++ ':' :: ahead.chars))

mutual

/-- The text of a value. -/
def Node.chars : Node → List Char
  | .word w => w.chars
  | .number n => n.chars
  | .text b => '"' :: (b.chars ++ ['"'])
  | .emptyList inside => '[' :: (inside.chars ++ [']'])
  | .list items => '[' :: (items.chars ++ [']'])
  | .emptyObject inside => '\x7b' :: (inside.chars ++ ['\x7d'])
  | .object members => '\x7b' :: (members.chars ++ ['\x7d'])

/-- The text of items. -/
def Items.chars : Items → List Char
  | .last before item after => before.chars ++ (item.chars ++ after.chars)
  | .more before item after rest => before.chars ++ (item.chars ++ (after.chars ++ ',' :: rest.chars))

/-- The text of members. -/
def Members.chars : Members → List Char
  | .last before name behind ahead item after => nameChars before name behind ahead ++ (item.chars ++ after.chars)
  | .more before name behind ahead item after rest =>
    nameChars before name behind ahead ++ (item.chars ++ (after.chars ++ ',' :: rest.chars))

end

mutual

/-- What a value denotes: of two members with one name the later value counts, in the place of the earlier. -/
def Node.value : Node → Value
  | .word w => .scalar w.value
  | .number n => .scalar n.value
  | .text b => .str b.text
  | .emptyList _ => .list []
  | .list items => .list items.values
  | .emptyObject _ => .map []
  | .object members => .map (Entries.ofPairs members.pairs)

/-- What items denote. -/
def Items.values : Items → List Value
  | .last _ item _ => [item.value]
  | .more _ item _ rest => item.value :: rest.values

/-- The names of members with what they denote. -/
def Members.pairs : Members → List (Key × Value)
  | .last _ name _ _ item _ => [(.str name.text, item.value)]
  | .more _ name _ _ item _ rest => (.str name.text, item.value) :: rest.pairs

end

mutual

/-- Are all words of a value words of the grammar? -/
def Node.isStrict : Node → Bool
  | .word w => w.isStrict
  | .number _ | .text _ | .emptyList _ | .emptyObject _ => true
  | .list items => items.isStrict
  | .object members => members.isStrict

/-- Are all words of items words of the grammar? -/
def Items.isStrict : Items → Bool
  | .last _ item _ => item.isStrict
  | .more _ item _ rest => item.isStrict && rest.isStrict

/-- Are all words of members words of the grammar? -/
def Members.isStrict : Members → Bool
  | .last _ _ _ _ item _ => item.isStrict
  | .more _ _ _ _ item _ rest => item.isStrict && rest.isStrict

end

/-- A JSON text, with blanks around its value. -/
structure Source where
  lead : Blanks
  node : Node
  trail : Blanks

namespace Source

/-- The characters of a text. -/
def chars (s : Source) : List Char := s.lead.chars ++ (s.node.chars ++ s.trail.chars)

/-- What a text denotes. -/
def value (s : Source) : Value := s.node.value

/-- Is the text JSON by the letter of the grammar? -/
def isStrict (s : Source) : Bool := s.node.isStrict

end Source

/-- A text is JSON by the grammar and denotes a value. -/
def Denotes (text : String) (v : Value) : Prop :=
  ∃ s : Source, s.isStrict = true ∧ text.toList = s.chars ∧ s.value = v

end RouteDoc.Json
