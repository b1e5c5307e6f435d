import RouteDoc.Json.Printer
import RouteDoc.Yaml.Escape
import RouteDoc.Yaml.Style

/-!
# Sheets

A sheet is a text while it is written line by line: what stands on it, the column that is reached, and
whether the line so far would let a mark follow at once.  Long scalars are folded at blanks behind the
eightieth column.

* `Sheet.lineBreak`, `Sheet.indent`, `Sheet.mark` — lines, indentation and marks;
* `Sheet.plain`, `Sheet.single`, `Sheet.double`, `Sheet.literal` — scalars in each style.
-/

namespace RouteDoc.Yaml

/-- A text that is being written. -/
structure Sheet where
  /-- The characters so far, the last first. -/
  written : List Char
  column : Nat
  /-- Can a mark follow without a blank? -/
  isSpaced : Bool
  /-- Is the line nothing but indentation and marks that open items? -/
  isIndented : Bool
  /-- Could what follows be taken for a continuation? -/
  isOpen : Bool
  deriving Repr, Inhabited

namespace Sheet

/-- The empty sheet. -/
def empty : Sheet := ⟨[], 0, true, true, false⟩

/-- The text on a sheet. -/
def text (s : Sheet) : String := String.ofList s.written.reverse

/-! ### Lines and marks -/

/-- Writes characters. -/
def put (cs : List Char) (s : Sheet) : Sheet :=
  { s with written := cs.reverse ++ s.written, column := s.column + cs.length }

/-- Ends the line with a character. -/
def lineBreak (c : Char) (s : Sheet) : Sheet :=
  { s with written := c :: s.written, column := 0, isSpaced := true, isIndented := true }

/-- Goes to a level of indentation, on a new line if the present one is in use. -/
def indent (level : Nat) (s : Sheet) : Sheet :=
  let s :=
    if !s.isIndented || level < s.column || (s.column == level && !s.isSpaced) then s.lineBreak '\n' else s
  if s.column < level then { s.put (List.replicate (level - s.column) ' ') with isSpaced := true } else s

/-- Writes a mark behind a blank. -/
def mark (cs : List Char) (s : Sheet) : Sheet :=
  { s.put (if s.isSpaced then cs else ' ' :: cs) with isSpaced := false, isIndented := false, isOpen := false }

/-- Writes a mark that opens an item; the item can begin on the same line. -/
def openItem (c : Char) (s : Sheet) : Sheet := { s.mark [c] with isIndented := s.isIndented }

/-- Writes a mark without a blank. -/
def close (cs : List Char) (s : Sheet) : Sheet :=
  { s.put cs with isSpaced := false, isIndented := false, isOpen := false }

/-! ### Scalars -/

/-- The column behind which scalars are folded. -/
def width : Nat := 80

/-- Goes to a new line in the midst of a scalar. -/
def fold (level : Nat) (s : Sheet) : Sheet := { s.indent level with isSpaced := false, isIndented := false }

/-- Is it time for a new line, where there can be one? -/
def isFull (folds : Bool) (s : Sheet) : Bool := folds && width < s.column

/-- The parts of a text: blanks in a row, line ends in a row, and what stands between. -/
def parts (cs : List Char) : List (List Char) :=
  cs.splitBy fun a b => (a == ' ') == (b == ' ') && Style.endsLine a == Style.endsLine b

/-- Writes the parts of a plain scalar. -/
def plainParts (level : Nat) (folds : Bool) : List (List Char) → Sheet → Sheet
  | [], s => s
  | part :: rest, s =>
    plainParts level folds rest (if part == [' '] && s.isFull folds then s.fold level else s.put part)

/-- Writes a plain scalar. -/
def plain (level : Nat) (folds : Bool) (cs : List Char) (s : Sheet) : Sheet :=
  let s := if s.isSpaced then s else s.put [' ']
  plainParts level folds (parts cs) { s with isSpaced := false, isIndented := false }

/-- Ends lines with characters, with one line feed more when the first is one: a single one would be read
as a blank. -/
def breaks (cs : List Char) (s : Sheet) : Sheet :=
  cs.foldl (fun s c => s.lineBreak c) (if cs.head? == some '\n' then s.lineBreak '\n' else s)

/-- A text in which single quotes are written twice. -/
def doubledQuotes (cs : List Char) : List Char := cs.flatMap fun c => if c == '\'' then ['\'', '\''] else [c]

/-- Writes the parts of a scalar in single quotes; blanks at either end are no place for a new line. -/
def singleParts (level : Nat) (folds isFirst : Bool) : List (List Char) → Sheet → Sheet
  | [], s => s
  | part :: rest, s =>
    singleParts level folds false rest <|
      if part.any Style.endsLine then (s.breaks part).indent level
      else if part == [' '] && !isFirst && !rest.isEmpty && s.isFull folds then s.indent level
      else s.put (doubledQuotes part)

/-- Writes a scalar in single quotes. -/
def single (level : Nat) (folds : Bool) (cs : List Char) (s : Sheet) : Sheet :=
  (singleParts level folds true (parts cs) (s.mark ['\''])).close ['\'']

/-- A character code in hexadecimal digits, filled up to a width. -/
def hexDigits (width n : Nat) : List Char :=
  (List.range width).reverse.map fun i => (Json.hexDigit (n / Nat.pow 16 i)).toUpper

/-- Can a character stand as itself in double quotes? -/
def standsInDouble (c : Char) : Bool :=
  let n := c.toNat
  c != '"' && c != '\\' && c != Utf8.orderMark && !Style.endsLine c
    && ((0x20 ≤ n && n ≤ 0x7e) || (0xa0 ≤ n && n ≤ 0xd7ff) || (0xe000 ≤ n && n ≤ 0xfffd))

/-- The escape of a character: by a letter of its own, or by its code. -/
def escape (c : Char) : List Char :=
  match Escape.letter? c with
  | some letter => ['\\', letter]
  | none =>
    let n := c.toNat
    if n ≤ 0xff then '\\' :: 'x' :: hexDigits 2 n
    else if n ≤ 0xffff then '\\' :: 'u' :: hexDigits 4 n
    else '\\' :: 'U' :: hexDigits 8 n

/-- Goes to a new line in the midst of a scalar in double quotes; a blank that follows is escaped. -/
def foldEscaped (level : Nat) (next : Option Char) (s : Sheet) : Sheet :=
  let s := (s.put ['\\']).fold level
  if next == some ' ' then s.put ['\\'] else s

/-- Writes the characters of a scalar in double quotes.  There can be a new line before a blank and on
either side of an escape, but not next to the quotes. -/
def doubleChars (level : Nat) (folds isFirst afterEscape : Bool) : List Char → Sheet → Sheet
  | [], s => s
  | c :: rest, s =>
    let folds' := folds && !isFirst && !rest.isEmpty
    if standsInDouble c then
      doubleChars level folds false false rest <|
        (if (c == ' ' || afterEscape) && s.isFull folds' then s.foldEscaped level (some c) else s).put [c]
    else
      let s := s.put (escape c)
      doubleChars level folds false true rest <|
        if folds' && width + 1 < s.column then s.foldEscaped level rest.head? else s

/-- Writes a scalar in double quotes. -/
def double (level : Nat) (folds : Bool) (cs : List Char) (s : Sheet) : Sheet :=
  (doubleChars level folds true false cs (s.mark ['"'])).close ['"']

/-- Writes the lines of a text, each closed by a line feed. -/
def lines (level : Nat) (cs : List Char) (s : Sheet) : Sheet :=
  let lines := (String.ofList cs).splitOn "\n"
  (lines.filter fun line => !line.isEmpty).foldl
    (fun s line => ((s.indent level).put line.toList).lineBreak '\n') s

/-- Writes a scalar as lines under a bar. -/
def literal (level : Nat) (cs : List Char) (s : Sheet) : Sheet :=
  ((s.mark ['|']).lineBreak '\n').lines level cs

/-- Writes a scalar in a style. -/
def scalar (style : Style) (level : Nat) (folds : Bool) (cs : List Char) (s : Sheet) : Sheet :=
  match style with
  | .plain => s.plain level folds cs
  | .single => s.single level folds cs
  | .double => s.double level folds cs
  | .literal => s.literal level cs

end Sheet

end RouteDoc.Yaml
