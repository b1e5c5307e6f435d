import RouteDoc.Failure
import RouteDoc.Text.Utf8

/-!
# Positions in a YAML text

A cursor is a position in a text: what is still to be read, and the place in characters, lines and columns.
Lines may end in any of five ways; all but the separators of lines and paragraphs are read as line feeds.

* `Cursor.advance`, `Cursor.span` — moving on;
* `Cursor.lineBreak` — reading the end of a line.
-/

namespace RouteDoc.Yaml

/-- Reading either succeeds or says why not. -/
abbrev Read (α : Type) := Except Failure α

/-- The text is no YAML. -/
def malformed {α : Type} : Read α := .error .yaml

/-- The characters that end a line. -/
def isBreak (c : Char) : Bool :=
  c == '\n' || c == '\r' || c == '\u0085' || c == '\u2028' || c == '\u2029'

/-- The characters that end a word. -/
def isSeparator (c : Char) : Bool := c == ' ' || c == '\t' || isBreak c

/-- Does the line end here? -/
def endsLine : Option Char → Bool
  | none => true
  | some c => isBreak c

/-- Does a word end here? -/
def endsWord : Option Char → Bool
  | none => true
  | some c => isSeparator c

/-- Does a word end here, where a tab does not end it? -/
def endsItem (c : Option Char) : Bool := c == some ' ' || endsLine c

/-- A position in a text. -/
structure Cursor where
  /-- A number above that of the characters of the text, which bounds every walk through it. -/
  limit : Nat
  rest : List Char
  index : Nat
  line : Nat
  column : Nat
  deriving Repr, Inhabited

namespace Cursor

/-- The beginning of a text. -/
def start (cs : List Char) : Cursor := ⟨cs.length + 1, cs, 0, 0, 0⟩

/-- The next character. -/
def peek (c : Cursor) : Option Char := c.rest.head?

/-- The character a number of places further on. -/
def peekAt (n : Nat) (c : Cursor) : Option Char := c.rest[n]?

/-- The position after the next character; the mark of the octet order takes no column. -/
def advance (c : Cursor) : Cursor :=
  match c.rest with
  | [] => c
  | ch :: rest =>
    if isBreak ch && !(ch == '\r' && rest.head? == some '\n') then
      ⟨c.limit, rest, c.index + 1, c.line + 1, 0⟩
    else ⟨c.limit, rest, c.index + 1, c.line, if ch == Utf8.orderMark then c.column else c.column + 1⟩

/-- The position a number of characters further on. -/
def advanceBy : Nat → Cursor → Cursor
  | 0, c => c
  | n + 1, c => advanceBy n c.advance

/-- The characters at the front that satisfy a condition, and the position after them. -/
def span (p : Char → Bool) (c : Cursor) : List Char × Cursor :=
  let taken := c.rest.takeWhile p
  (taken, c.advanceBy taken.length)

/-- The position after the characters that satisfy a condition. -/
def skip (p : Char → Bool) (c : Cursor) : Cursor := (c.span p).2

/-- The position after blanks. -/
def skipSpaces (c : Cursor) : Cursor := c.skip (· == ' ')

/-- The position at the end of the line. -/
def skipLine (c : Cursor) : Cursor := c.skip fun ch => !isBreak ch

/-- Reads the end of a line, if there is one here: nothing is read otherwise. -/
def lineBreak (c : Cursor) : List Char × Cursor :=
  match c.rest with
  | '\r' :: '\n' :: _ => (['\n'], c.advanceBy 2)
  | ch :: _ =>
    if ch == '\u2028' || ch == '\u2029' then ([ch], c.advance)
    else if isBreak ch then (['\n'], c.advance)
    else ([], c)
  | [] => ([], c)

/-- Does a line of three given characters, followed by the end of a word, stand here? -/
def atMark (ch : Char) (c : Cursor) : Bool :=
  match c.rest with
  | a :: b :: d :: rest => a == ch && b == ch && d == ch && endsWord rest.head?
  | _ => false

/-- Does the mark of the beginning or the end of a document stand here? -/
def atDocumentMark (c : Cursor) : Bool := c.atMark '-' || c.atMark '.'

end Cursor

/-- The characters that a YAML text may hold. -/
def isAdmitted (c : Char) : Bool :=
  let n := c.toNat
  n == 0x9 || n == 0xa || n == 0xd || (0x20 ≤ n && n ≤ 0x7e) || n == 0x85 || (0xa0 ≤ n && n ≤ 0xd7ff)
    || (0xe000 ≤ n && n ≤ 0xfffd) || 0x10000 ≤ n

/-- The characters of words: letters, digits, hyphens and low lines. -/
def isNameChar (c : Char) : Bool := c.isAlphanum || c == '-' || c == '_'

/-- The value of hexadecimal digits, if all are. -/
def hexNumber? : List Char → Option Nat := go 0
where
  /-- The value of hexadecimal digits after a number. -/
  go (n : Nat) : List Char → Option Nat
    | [] => some n
    | c :: rest =>
      if '0' ≤ c ∧ c ≤ '9' then go (16 * n + (c.toNat - '0'.toNat)) rest
      else if 'a' ≤ c ∧ c ≤ 'f' then go (16 * n + (c.toNat - 'a'.toNat + 10)) rest
      else if 'A' ≤ c ∧ c ≤ 'F' then go (16 * n + (c.toNat - 'A'.toNat + 10)) rest
      else none

end RouteDoc.Yaml
