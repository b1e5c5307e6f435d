import RouteDoc.Yaml.Token.Property
import RouteDoc.Yaml.Token.Scalar

/-!
# The tokens of a text

Outside brackets the column of a token decides which blocks are open: a token further in may open one, and
a token further out closes those that are indented deeper.  A node may turn out to be a key when a colon
follows it on the same line, within a bounded distance; then the mark of a key is put in front of it.

* `Lexer.step` — the next tokens of a text;
* `Lexer.read` — all tokens, as far as the text has any.
-/

namespace RouteDoc.Yaml

/-- A place where a key may have begun. -/
structure KeyPlace where
  /-- The number of tokens before it. -/
  token : Nat
  /-- Must a key stand there? -/
  required : Bool
  index : Nat
  line : Nat
  column : Nat
  deriving Repr

/-- The state of reading tokens. -/
structure Lexer where
  position : Cursor
  /-- The number of open brackets. -/
  flow : Nat
  /-- The column of the innermost block, and those of the blocks around it. -/
  indent : Int
  indents : List Int
  /-- May a key begin here? -/
  keyAllowed : Bool
  /-- The places where a key may have begun, by the number of open brackets. -/
  keys : List (Nat × KeyPlace)
  /-- The tokens so far, the latest first. -/
  tokens : List Token
  count : Nat
  finished : Bool
  deriving Repr

namespace Lexer

/-- The state before a text. -/
def start (cs : List Char) : Lexer :=
  { position := Cursor.start cs, flow := 0, indent := -1, indents := [], keyAllowed := true, keys := []
    tokens := [], count := 0, finished := false }

/-- Are all brackets closed? -/
def inBlock (l : Lexer) : Bool := l.flow == 0

/-- Adds a token. -/
def push (t : Token) (l : Lexer) : Lexer := { l with tokens := t :: l.tokens, count := l.count + 1 }

/-- Adds a token in front of those from a place on. -/
def insertAt (place : Nat) (t : Token) (l : Lexer) : Lexer :=
  { l with tokens := l.tokens.insertIdx (l.count - place) t, count := l.count + 1 }

/-- Moves on. -/
def moveTo (c : Cursor) (l : Lexer) : Lexer := { l with position := c }

/-! ### Blocks and keys -/

/-- Closes the blocks that are indented deeper than a column; the count bounds the blocks. -/
def closeBlocks (column : Int) : Nat → Lexer → Lexer
  | 0, l => l
  | count + 1, l =>
    if column < l.indent then
      closeBlocks column count
        ({ l with indent := l.indents.headD (-1), indents := l.indents.tail }.push .blockEnd)
    else l

/-- Closes the blocks that are indented deeper than a column, unless brackets are open. -/
def unwind (column : Int) (l : Lexer) : Lexer :=
  if l.inBlock then closeBlocks column (l.indents.length + 1) l else l

/-- Opens a block at a column, unless one is open there, with its token at a place. -/
def openBlock (column place : Nat) (t : Token) (l : Lexer) : Lexer :=
  if l.indent < column then
    { l with indent := column, indents := l.indent :: l.indents }.insertAt place t
  else l

/-- Gives up the places where no key can begin any more: on earlier lines, or too far back. -/
def dropStaleKeys (l : Lexer) : Read Lexer :=
  let isStale := fun (k : KeyPlace) => k.line != l.position.line || l.position.index - k.index > 1024
  if l.keys.any fun (_, k) => isStale k && k.required then malformed
  else .ok { l with keys := l.keys.filter fun (_, k) => !isStale k }

/-- Gives up the place where a key may have begun between the present brackets. -/
def dropKey (l : Lexer) : Read Lexer :=
  match l.keys.lookup l.flow with
  | some k => if k.required then malformed else .ok { l with keys := l.keys.filter fun (n, _) => n != l.flow }
  | none => .ok l

/-- Remembers that a key may begin here. -/
def noteKey (l : Lexer) : Read Lexer :=
  if l.keyAllowed then do
    let c := l.position
    let k : KeyPlace :=
      { token := l.count, required := l.inBlock && l.indent == c.column, index := c.index, line := c.line
        column := c.column }
    let l ← l.dropKey
    .ok { l with keys := (l.flow, k) :: l.keys }
  else .ok l

/-! ### Tokens -/

/-- The position of the next token, after blanks, comments and line ends.  The count bounds the lines. -/
def skipToToken : Nat → Lexer → Lexer
  | 0, l => l
  | count + 1, l =>
    let c := l.position.skipSpaces
    let c := if c.peek == some '#' then c.skipLine else c
    if c.peek.any isBreak then
      skipToToken count { l with position := c.lineBreak.2, keyAllowed := l.keyAllowed || l.inBlock }
    else l.moveTo c

/-- The position after the mark of the octet order at the beginning of a text. -/
def skipOrderMark (l : Lexer) : Lexer :=
  if l.position.index == 0 && l.position.peek == some Utf8.orderMark then l.moveTo l.position.advance else l

/-- The end of the text. -/
def readEnd (l : Lexer) : Read Lexer := do
  let l ← (l.unwind (-1)).dropKey
  .ok ({ l with keyAllowed := false, keys := [], finished := true }.push .streamEnd)

/-- A directive. -/
def readDirectiveLine (l : Lexer) : Read Lexer := do
  let l ← (l.unwind (-1)).dropKey
  let (d, c) ← readDirective l.position
  .ok ({ l with keyAllowed := false, position := c }.push (.directive d))

/-- The mark of the beginning or the end of a document. -/
def readDocumentMark (t : Token) (l : Lexer) : Read Lexer := do
  let l ← (l.unwind (-1)).dropKey
  .ok ({ l with keyAllowed := false, position := l.position.advanceBy 3 }.push t)

/-- An opening bracket. -/
def openBracket (t : Token) (l : Lexer) : Read Lexer := do
  let l ← l.noteKey
  .ok ({ l with flow := l.flow + 1, keyAllowed := true, position := l.position.advance }.push t)

/-- A closing bracket. -/
def closeBracket (t : Token) (l : Lexer) : Read Lexer := do
  let l ← l.dropKey
  if l.inBlock then malformed
  else .ok ({ l with flow := l.flow - 1, keyAllowed := false, position := l.position.advance }.push t)

/-- A comma between brackets. -/
def readComma (l : Lexer) : Read Lexer := do
  let l ← l.dropKey
  .ok ({ l with keyAllowed := true, position := l.position.advance }.push .flowEntry)

/-- Opens a block for a token that stands at the beginning of an entry. -/
def openEntry (t : Token) (l : Lexer) : Read Lexer :=
  if l.inBlock then
    if l.keyAllowed then .ok (l.openBlock l.position.column l.count t) else malformed
  else .ok l

/-- A hyphen in front of an item. -/
def readHyphen (l : Lexer) : Read Lexer := do
  let l ← (← l.openEntry .blockSequenceStart).dropKey
  .ok ({ l with keyAllowed := true, position := l.position.advance }.push .blockEntry)

/-- A question mark in front of a key. -/
def readQuestionMark (l : Lexer) : Read Lexer := do
  let l ← (← l.openEntry .blockMappingStart).dropKey
  .ok ({ l with keyAllowed := l.inBlock, position := l.position.advance }.push .key)

/-- A colon: what stood at the remembered place was a key. -/
def readColon (l : Lexer) : Read Lexer := do
  match l.keys.lookup l.flow with
  | some k =>
    let l := { l with keys := l.keys.filter fun (n, _) => n != l.flow }.insertAt k.token .key
    let l := if l.inBlock then l.openBlock k.column k.token .blockMappingStart else l
    .ok ({ l with keyAllowed := false, position := l.position.advance }.push .value)
  | none =>
    let l ← (← l.openEntry .blockMappingStart).dropKey
    .ok ({ l with keyAllowed := l.inBlock, position := l.position.advance }.push .value)

/-- A part of a node, which may turn out to be a key. -/
def readPart (read : Cursor → Read (Token × Cursor)) (l : Lexer) : Read Lexer := do
  let l ← l.noteKey
  let (t, c) ← read l.position
  .ok ({ l with keyAllowed := false, position := c }.push t)

/-- A block of lines. -/
def readBlockScalar (folded : Bool) (l : Lexer) : Read Lexer := do
  let l ← l.dropKey
  let (text, c) ← readBlock folded l.indent l.position
  .ok ({ l with keyAllowed := true, position := c }.push (.scalar (String.ofList text) false))

/-- A plain scalar. -/
def readPlainScalar (l : Lexer) : Read Lexer := do
  let l ← l.noteKey
  let p := readPlain (!l.inBlock) l.indent l.position
  .ok ({ l with keyAllowed := p.broken, position := p.position }.push (.scalar (String.ofList p.text) true))

/-- The characters that no plain scalar begins with. -/
def isIndicator (c : Char) : Bool := "-?:,[]\x7b\x7d#&*!|>'\"%@\x60".toList.contains c

/-- Does a plain scalar begin with this character, followed by the other one? -/
def beginsPlain (inBlock : Bool) (c : Char) (next : Option Char) : Bool :=
  (!isSeparator c && !isIndicator c)
    || (!endsWord next && (c == '-' || (inBlock && (c == '?' || c == ':'))))

/-- Reads the tokens that begin with a character. -/
def readAt (ch : Char) (l : Lexer) : Read Lexer :=
  let c := l.position
  let next := c.peekAt 1
  if ch == '%' && c.column == 0 then l.readDirectiveLine
  else if c.column == 0 && c.atMark '-' then l.readDocumentMark .documentStart
  else if c.column == 0 && c.atMark '.' then l.readDocumentMark .documentEnd
  else if ch == '[' then l.openBracket .flowSequenceStart
  else if ch == '\x7b' then l.openBracket .flowMappingStart
  else if ch == ']' then l.closeBracket .flowSequenceEnd
  else if ch == '\x7d' then l.closeBracket .flowMappingEnd
  else if ch == ',' then l.readComma
  else if ch == '-' && endsWord next then l.readHyphen
  else if ch == '?' && (!l.inBlock || endsWord next) then l.readQuestionMark
  else if ch == ':' && (!l.inBlock || endsWord next) then l.readColon
  else if ch == '*' then l.readPart fun c => (readName c).map fun (n, c) => (.reference n, c)
  else if ch == '&' then l.readPart fun c => (readName c).map fun (n, c) => (.anchor n, c)
  else if ch == '!' then l.readPart fun c => (readTag c).map fun (t, c) => (.tag t, c)
  else if ch == '|' && l.inBlock then l.readBlockScalar false
  else if ch == '>' && l.inBlock then l.readBlockScalar true
  else if ch == '\'' || ch == '"' then
    l.readPart fun c => (readQuoted c).map fun (text, c) => (.scalar (String.ofList text) false, c)
  else if beginsPlain l.inBlock ch next then l.readPlainScalar
  else malformed

/-- Reads the next tokens. -/
def step (l : Lexer) : Read Lexer := do
  let l := skipToToken l.position.limit l.skipOrderMark
  let l ← l.dropStaleKeys
  let l := l.unwind l.position.column
  match l.position.peek with
  | none => l.readEnd
  | some ch => l.readAt ch

/-- The number of the tokens that are settled: those before the first place where a key may have begun, which
the mark of a key can no longer be put in front of. -/
def settled (l : Lexer) : Nat :=
  match l.dropStaleKeys with
  | .ok l => l.keys.foldl (fun n (_, k) => min n k.token) l.count
  | .error _ => l.count

/-- Reads tokens up to the end of the text, or up to a failure, in front of which only the settled ones count.
The count bounds the steps. -/
def run : Nat → Lexer → List Token × Option Failure
  | 0, l => (l.tokens.reverse, some .yaml)
  | count + 1, l =>
    if l.finished then (l.tokens.reverse, none)
    else
      match l.step with
      | .ok next => run count next
      | .error f => (l.tokens.reverse.take l.settled, some f)

/-- The tokens of a text, with the failure that ended the reading early, if there was one. -/
def read (cs : List Char) : List Token × Option Failure :=
  if cs.all isAdmitted then run (cs.length + 2) (start cs) else ([], some .yaml)

end Lexer

end RouteDoc.Yaml
