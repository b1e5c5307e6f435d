import RouteDoc.Yaml.Node.OfValue
import RouteDoc.Yaml.Sheet

/-!
# Writing YAML

A document is laid out in blocks: one entry or item to a line, two more blanks to a level.  A sequence that
is the value of an entry is not indented further than its key.  Short keys of one line stand in front of a
colon; other keys stand on lines of their own behind a question mark.

* `Node.isSimpleKey` — can a node stand in front of a colon?
* `Node.layOut` — writes a node;
* `Yaml.render` — the text of a document.
-/

namespace RouteDoc.Yaml

namespace Node

/-! ### Names and tags -/

/-- The name of a part that is referred to. -/
def nameText (n : Nat) : List Char :=
  let digits := Nat.toDigits 10 n
  ['i', 'd'] ++ List.replicate (3 - digits.length) '0' ++ digits

/-- Writes the name of a part, if it has one. -/
def writeName (number : Option Nat) (s : Sheet) : Sheet :=
  match number with
  | some n => s.mark ('&' :: nameText n)
  | none => s

/-- Writes a tag, unless it is understood. -/
def writeTag (understood : Bool) (tag : Tag) (s : Sheet) : Sheet :=
  if understood then s else s.mark tag.shortText.toList

/-- The length of a name. -/
def nameLength (number : Option Nat) : Nat := (number.map fun n => (nameText n).length).getD 0

/-- The greatest length of a key in front of a colon, its name and its tag counted. -/
def keyWidth : Nat := 127

/-- Can a node stand as a key in front of a colon? -/
def isSimpleKey : Node → Bool
  | reference _ => true
  | scalar number tag text =>
    !text.isEmpty && !text.toList.any Style.endsLine
      && nameLength number + tag.shortText.length + text.length ≤ keyWidth
  | sequence _ _ items => items.isEmpty
  | mapping _ _ entries => entries.isEmpty

/-! ### Layout -/

/-- Where a node stands. -/
inductive Position where
  | root
  | item
  /-- A value of an entry, or a key on lines of its own. -/
  | entry
  /-- A key in front of a colon. -/
  | key
  deriving DecidableEq, Repr

/-- The level of indentation inside of another. -/
def levelWithin : Option Nat → Nat
  | none => 0
  | some level => level + 2

/-- The level of indentation of the items of a sequence. -/
def itemLevel (position : Position) (level : Option Nat) (s : Sheet) : Nat :=
  match position, level with
  | .entry, some level => if s.isIndented then level + 2 else level
  | _, level => levelWithin level

/-- Writes a scalar. -/
def writeScalar (position : Position) (level : Option Nat) (tag : Tag) (text : String) (s : Sheet) : Sheet :=
  let style := Style.choose tag text
  let s := writeTag (style.implies tag text) tag s
  let s := s.scalar style (level.getD 0 + 2) (position != .key) text.toList
  if position == .root && style == .plain then { s with isOpen := true } else s

mutual

/-- Writes a node at a position inside of a level. -/
def layOut (position : Position) (level : Option Nat) : Node → Sheet → Sheet
  | reference n, s => s.mark ('*' :: nameText n)
  | scalar number tag text, s => writeScalar position level tag text (writeName number s)
  | sequence number tag items, s =>
    let s := writeTag (tag == .seq) tag (writeName number s)
    if items.isEmpty then (s.mark ['[']).close [']']
    else layOutItems (itemLevel position level s) items s
  | mapping number tag entries, s =>
    let s := writeTag (tag == .map) tag (writeName number s)
    if entries.isEmpty then (s.mark ['\x7b']).close ['\x7d']
    else layOutEntries (levelWithin level) entries s

/-- Writes items, each on a line of its own. -/
def layOutItems (level : Nat) : List Node → Sheet → Sheet
  | [], s => s
  | n :: rest, s => layOutItems level rest (layOut .item (some level) n ((s.indent level).openItem '-'))

/-- Writes entries, each on a line of its own. -/
def layOutEntries (level : Nat) : List (Node × Node) → Sheet → Sheet
  | [], s => s
  | (k, v) :: rest, s =>
    layOutEntries level rest <|
      if k.isSimpleKey then
        layOut .entry (some level) v ((layOut .key (some level) k (s.indent level)).close [':'])
      else
        let s := layOut .entry (some level) k ((s.indent level).openItem '?')
        layOut .entry (some level) v ((s.indent level).openItem ':')

end

/-- The text of a document; a plain scalar by itself is closed by three points. -/
def render (n : Node) : String :=
  let s := (n.layOut .root none .empty).indent 0
  (if s.isOpen then (s.mark ['.', '.', '.']).indent 0 else s).text

end Node

/-- The text of a document with shared parts. -/
def render (sharing : Sharing) (v : Value) : Except Failure String := Node.render <$> Node.ofValue sharing v

end RouteDoc.Yaml
