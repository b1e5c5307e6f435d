import RouteDoc.Text.Surrogate
import RouteDoc.Yaml.Cursor
import RouteDoc.Yaml.Escape

/-!
# Scalars as written

The three ways to write a scalar: plain, in quotes, or as an indented block of lines.  Where a scalar runs
over several lines, a single line end becomes a blank and further ones stay; blocks marked as literal keep
all of them.

* `readPlain`, `readQuoted`, `readBlock` — the text of a scalar and the position after it.
-/

namespace RouteDoc.Yaml

/-! ### Plain scalars -/

/-- The marks of lists and mappings in brackets. -/
def isFlowMark (c : Char) : Bool := c == ',' || c == '[' || c == ']' || c == '\x7b' || c == '\x7d'

/-- Does a colon in front of this character end a plain scalar? -/
def endsKey (flow : Bool) (next : Option Char) : Bool := endsWord next || (flow && next.any isFlowMark)

/-- The number of characters of a plain scalar up to a blank or a mark. -/
def plainLength (flow : Bool) : List Char → Nat
  | [] => 0
  | c :: rest =>
    if isSeparator c || (c == ':' && endsKey flow rest.head?) || (flow && (isFlowMark c || c == '?')) then 0
    else plainLength flow rest + 1

/-- What separates two pieces of a plain scalar, the position after it, and whether a line ended. -/
structure Gap where
  text : List Char
  position : Cursor
  broken : Bool

/-- The line ends and blanks at the start of lines, up to the mark of a document; nothing when there is
such a mark.  The count bounds the characters. -/
def gapLines : Nat → Cursor → List Char → Option (List Char) × Cursor
  | 0, c, out => (some out, c)
  | count + 1, c, out =>
    if c.peek == some ' ' then gapLines count c.advance out
    else if c.peek.any isBreak then
      let (text, next) := c.lineBreak
      if next.atDocumentMark then (none, next) else gapLines count next (out ++ text)
    else (some out, c)

/-- The text that stands for a line end and the further line ends after it. -/
def foldBreaks (first more : List Char) : List Char :=
  (if first != ['\n'] then first else if more.isEmpty then [' '] else []) ++ more

/-- Reads what separates two pieces of a plain scalar. -/
def readGap (c : Cursor) : Gap :=
  let (spaces, next) := c.span (· == ' ')
  if next.peek.any isBreak then
    let (first, next) := next.lineBreak
    if next.atDocumentMark then ⟨[], next, true⟩
    else
      match gapLines next.limit next [] with
      | (some more, next) => ⟨foldBreaks first more, next, true⟩
      | (none, next) => ⟨[], next, true⟩
  else ⟨spaces, next, false⟩

/-- A plain scalar read so far. -/
structure PlainText where
  text : List Char
  position : Cursor
  /-- Did the last line end after it? -/
  broken : Bool

/-- Reads the pieces of a plain scalar that is indented by at least a number of columns, after a text read
so far with its last character first; the count bounds the pieces. -/
def readPieces (flow : Bool) (indent : Int) : Nat → Gap → List Char → PlainText
  | 0, gap, out => ⟨out.reverse, gap.position, gap.broken⟩
  | count + 1, gap, out =>
    let length := plainLength flow gap.position.rest
    if gap.position.peek == some '#' || length == 0 then
      ⟨out.reverse, gap.position, gap.broken⟩
    else
      let out := (gap.text ++ gap.position.rest.take length).reverse ++ out
      let next := readGap (gap.position.advanceBy length)
      if next.text.isEmpty || next.position.peek == some '#'
          || (!flow && (next.position.column : Int) < indent) then
        ⟨out.reverse, next.position, next.broken⟩
      else readPieces flow indent count next out

/-- Reads a plain scalar inside a block of an indentation. -/
def readPlain (flow : Bool) (indent : Int) (c : Cursor) : PlainText :=
  readPieces flow (indent + 1) c.limit ⟨[], c, false⟩ []

/-! ### Quoted scalars -/

/-- Reads the line ends after the first one in a quoted scalar, with the blanks at the start of lines; the
count bounds the lines. -/
def readQuotedBreaks : Nat → Cursor → List Char → Read (List Char × Cursor)
  | 0, c, out => .ok (out, c)
  | count + 1, c, out =>
    if c.atDocumentMark then malformed
    else
      let next := c.skip fun ch => ch == ' ' || ch == '\t'
      if next.peek.any isBreak then
        let (text, next) := next.lineBreak
        readQuotedBreaks count next (out ++ text)
      else .ok (out, next)

/-- Reads blanks in a quoted scalar. -/
def readQuotedSpaces (c : Cursor) : Read (List Char × Cursor) :=
  let (spaces, next) := c.span fun ch => ch == ' ' || ch == '\t'
  match next.peek with
  | none => malformed
  | some ch =>
    if isBreak ch then do
      let (first, next) := next.lineBreak
      let (more, next) ← readQuotedBreaks next.limit next []
      .ok (foldBreaks first more, next)
    else .ok (spaces, next)

/-- Reads a code of so many hexadecimal digits. -/
def readCode (count : Nat) (c : Cursor) : Read (Nat × Cursor) :=
  let digits := c.rest.take count
  match hexNumber? digits with
  | some n => if digits.length < count then malformed else .ok (n, c.advanceBy count)
  | none => malformed

/-- The second half of a character, as an escape of its own. -/
def secondHalf? (c : Cursor) : Option (Nat × Cursor) :=
  if c.peek == some '\\' then
    match (c.advance.peek.bind Escape.digits?).map fun count => readCode count c.advance.advance with
    | some (.ok (n, next)) => if Surrogate.isLow n then some (n, next) else none
    | _ => none
  else none

/-- The character with a code, which may be half of one. -/
def characterOf (n : Nat) (c : Cursor) : Read (List Char × Cursor) :=
  if n > 0x7fffffff then .error .largeCode
  else if n ≥ 0x110000 then .error .badCharacter
  else if Surrogate.isHigh n then
    match secondHalf? c with
    | some (low, next) => .ok ([Surrogate.join n low], next)
    | none => .ok ([Surrogate.replacement], c)
  else if Surrogate.isLow n then .ok ([Surrogate.replacement], c)
  else .ok ([Char.ofNat n], c)

/-- Reads what a backslash stands in front of. -/
def readEscape (c : Cursor) : Read (List Char × Cursor) :=
  match c.peek with
  | none => malformed
  | some ch =>
    match Escape.simple? ch, Escape.digits? ch with
    | some d, _ => .ok ([d], c.advance)
    | none, some count => do
      let (n, next) ← readCode count c.advance
      characterOf n next
    | none, none =>
      if isBreak ch then
        let next := c.lineBreak.2
        readQuotedBreaks next.limit next []
      else malformed

/-- Reads the rest of a quoted scalar, after a text read so far with its last character first; the count
bounds the steps. -/
def readQuotedFrom (double : Bool) : Nat → Cursor → List Char → Read (List Char × Cursor)
  | 0, _, _ => malformed
  | count + 1, c, out =>
    match c.peek with
    | none => malformed
    | some ch =>
      if isSeparator ch then do
        let (text, next) ← readQuotedSpaces c
        readQuotedFrom double count next (text.reverse ++ out)
      else if double && ch == '\\' then do
        let (text, next) ← readEscape c.advance
        readQuotedFrom double count next (text.reverse ++ out)
      else if !double && ch == '\'' && c.peekAt 1 == some '\'' then
        readQuotedFrom double count (c.advanceBy 2) ('\'' :: out)
      else if ch == (if double then '"' else '\'') then .ok (out.reverse, c.advance)
      else readQuotedFrom double count c.advance (ch :: out)

/-- Reads a quoted scalar. -/
def readQuoted (c : Cursor) : Read (List Char × Cursor) :=
  readQuotedFrom (c.peek == some '"') c.limit c.advance []

/-! ### Blocks of lines -/

/-- What happens to the line ends after a block. -/
inductive Chomping where
  | clip | strip | keep
  deriving DecidableEq, Repr

/-- The marks behind the sign of a block: what happens at its end, and its further indentation. -/
structure BlockHeader where
  chomping : Chomping
  increment : Option Nat

/-- The treatment of the end that a sign asks for. -/
def chomping? : Option Char → Option Chomping
  | some '+' => some .keep
  | some '-' => some .strip
  | _ => none

/-- The digit that a character is. -/
def digit? : Option Char → Option Nat
  | some c => if c.isDigit then some (c.toNat - '0'.toNat) else none
  | none => none

/-- Reads the marks behind the sign of a block, in either order. -/
def readHeader (c : Cursor) : Read (BlockHeader × Cursor) :=
  let (header, next) : BlockHeader × Cursor :=
    match chomping? c.peek with
    | some chomping =>
      match digit? c.advance.peek with
      | some n => (⟨chomping, some n⟩, c.advanceBy 2)
      | none => (⟨chomping, none⟩, c.advance)
    | none =>
      match digit? c.peek with
      | some n =>
        match chomping? c.advance.peek with
        | some chomping => (⟨chomping, some n⟩, c.advanceBy 2)
        | none => (⟨.clip, some n⟩, c.advance)
      | none => (⟨.clip, none⟩, c)
  if header.increment == some 0 || !endsItem next.peek then malformed else .ok (header, next)

/-- Reads the rest of a line that may hold a comment only. -/
def readIgnoredLine (c : Cursor) : Read Cursor :=
  let next := c.skipSpaces
  let next := if next.peek == some '#' then next.skipLine else next
  if endsLine next.peek then .ok next.lineBreak.2 else malformed

/-- Reads empty lines, and finds the deepest indentation among them; the count bounds the characters. -/
def readLeadingLines : Nat → Cursor → List Char → Nat → List Char × Nat × Cursor
  | 0, c, out, deepest => (out, deepest, c)
  | count + 1, c, out, deepest =>
    if c.peek == some ' ' then readLeadingLines count c.advance out (max deepest c.advance.column)
    else if c.peek.any isBreak then
      let (text, next) := c.lineBreak
      readLeadingLines count next (out ++ text) deepest
    else (out, deepest, c)

/-- The position after blanks, up to a column. -/
def skipIndent (indent : Nat) (c : Cursor) : Cursor :=
  c.advanceBy (min (c.rest.takeWhile (· == ' ')).length (indent - c.column))

/-- Reads empty lines up to an indentation; the count bounds the lines. -/
def readEmptyLines (indent : Nat) : Nat → Cursor → List Char → List Char × Cursor
  | 0, c, out => (out, c)
  | count + 1, c, out =>
    let next := skipIndent indent c
    if next.peek.any isBreak then
      let (text, next) := next.lineBreak
      readEmptyLines indent count next (out ++ text)
    else (out, next)

/-- Does a line of a block begin with a blank? -/
def beginsBlank (c : Cursor) : Bool := c.peek == some ' ' || c.peek == some '\t'

/-- The text of a block, with the last line end and the empty lines after it. -/
structure BlockText where
  /-- The text, its last character first. -/
  text : List Char
  lastBreak : List Char
  after : List Char
  position : Cursor

/-- Reads the lines of a block: in a folded one, a single line end between lines that do not begin with a
blank becomes a blank.  The count bounds the lines. -/
def readBlockLines (folded : Bool) (indent : Nat) : Nat → BlockText → BlockText
  | 0, b => b
  | count + 1, b =>
    if b.position.column != indent || b.position.peek.isNone then b
    else
      let (line, next) := b.position.span fun ch => !isBreak ch
      let (lastBreak, next) := next.lineBreak
      let (after, next) := readEmptyLines indent next.limit next []
      let text := (b.after ++ line).reverse ++ b.text
      if next.column == indent && next.peek.isSome then
        let joined :=
          if folded && lastBreak == ['\n'] && !beginsBlank b.position && !beginsBlank next then
            if after.isEmpty then [' '] else []
          else lastBreak
        readBlockLines folded indent count ⟨joined.reverse ++ text, lastBreak, after, next⟩
      else ⟨text, lastBreak, after, next⟩

/-- Reads a block of lines inside a block of an indentation. -/
def readBlock (folded : Bool) (indent : Int) (c : Cursor) : Read (List Char × Cursor) := do
  let (header, next) ← readHeader c.advance
  let next ← readIgnoredLine next
  let least := max 1 (indent + 1).toNat
  let (depth, leading, next) : Nat × List Char × Cursor :=
    match header.increment with
    | some n =>
      let depth := least + n - 1
      let (leading, next) := readEmptyLines depth next.limit next []
      (depth, leading, next)
    | none =>
      let (leading, deepest, next) := readLeadingLines next.limit next [] 0
      (max least deepest, leading, next)
  let b := readBlockLines folded depth next.limit ⟨[], [], leading, next⟩
  .ok <|
    match header.chomping with
    | .strip => (b.text.reverse, b.position)
    | .clip => (b.text.reverse ++ b.lastBreak, b.position)
    | .keep => (b.text.reverse ++ b.lastBreak ++ b.after, b.position)

end RouteDoc.Yaml
