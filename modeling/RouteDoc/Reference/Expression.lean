import RouteDoc.Text.Blank
import RouteDoc.Text.WordClass
import RouteDoc.TypeExpr

/-!
# Expressions of types

The text of a reference is an expression: a name, perhaps with the arguments of a generic type in brackets,
a choice between several such, a number, or a text in quotes that is an expression itself.  Calls and lists in
brackets or braces are read as well; what they make is no type.

* `TypeText.parse` — the expression that a text is, if it is one.
-/

namespace RouteDoc

/-- An expression that stands for a type. -/
inductive TypeText where
  | name (s : String)
  | quoted (s : String)
  | ellipsis
  | number (n : Nat)
  | generic (head : String) (args : List TypeText)
  | choice (members : List TypeText)
  /-- A value that is put together from others, or what a call of a name gives. -/
  | made (head : Option String) (parts : List TypeText)
  deriving Repr, Inhabited

namespace TypeText

/-- The words that are no names. -/
def reservedWords : List String :=
  ["and", "as", "assert", "async", "await", "break", "class", "continue", "def", "del", "elif", "else",
    "except", "finally", "for", "from", "global", "if", "import", "in", "is", "lambda", "nonlocal", "not",
    "or", "pass", "raise", "return", "try", "while", "with", "yield"]

/-- Is the text a name, or names joined by points? -/
def isDottedName (s : String) : Bool :=
  (s.splitOn ".").all fun part =>
    !reservedWords.contains part && match part.toList with
      | [] => false
      | c :: rest => Text.isWord c && !c.isDigit && rest.all Text.isWord

/-- Is the character a blank between the parts of an expression? -/
def isGap (c : Char) : Bool := c == ' ' || c == '\t' || c == '\x0c'

/-- Reads a name. -/
def readName (cs : List Char) : Option (String × List Char) :=
  let isPart := fun c => Text.isWord c || c == '.'
  let name := String.ofList (cs.takeWhile isPart)
  if isDottedName name then some (name, cs.dropWhile isPart) else none

/-- Reads up to a quote. -/
def readQuoted (quote : Char) (cs : List Char) : Option (TypeText × List Char) :=
  let isPart := fun c => c != quote && c != '\\' && c != '\n'
  match cs.dropWhile isPart with
  | c :: rest => if c == quote then some (quoted (String.ofList (cs.takeWhile isPart)), rest) else none
  | [] => none

/-- Reads a whole number. -/
def readNumber (cs : List Char) : Option (TypeText × List Char) :=
  let digits := cs.takeWhile Char.isDigit
  match cs.dropWhile Char.isDigit with
  | c :: rest => if Text.isWord c || c == '.' then none else some (number (Nat.ofDigitChars 10 digits 0), c :: rest)
  | [] => some (number (Nat.ofDigitChars 10 digits 0), [])

/-- The brackets in which values are listed. -/
def closing? : Char → Option Char
  | '[' => some ']'
  | '{' => some '}'
  | _ => none

/-- The text behind the name of an argument and its sign, if it has a name. -/
def dropArgumentName (cs : List Char) : List Char :=
  let cs := cs.dropWhile isGap
  match (cs.dropWhile Text.isWord).dropWhile isGap with
  | '=' :: rest => if isDottedName (String.ofList (cs.takeWhile Text.isWord)) then rest else cs
  | _ => cs

/-- A choice between several expressions, or the only one. -/
def ofMembers : List TypeText → TypeText
  | [t] => t
  | members => choice members

mutual

/-- Reads expressions with bars between them; the count bounds the steps. -/
def readMembers : Nat → List Char → Option (List TypeText × List Char)
  | 0, _ => none
  | count + 1, cs => do
    let (first, rest) ← readTerm count (cs.dropWhile isGap)
    match rest.dropWhile isGap with
    | '|' :: rest =>
      let (others, rest) ← readMembers count rest
      some (first :: others, rest)
    | rest => some ([first], rest)

/-- Reads an expression without bars. -/
def readTerm : Nat → List Char → Option (TypeText × List Char)
  | 0, _ => none
  | _, '"' :: rest => readQuoted '"' rest
  | _, '\'' :: rest => readQuoted '\'' rest
  | _, '.' :: '.' :: '.' :: rest => some (ellipsis, rest)
  | count + 1, '(' :: rest => do
    let (members, rest) ← readMembers count rest
    match rest with
    | ')' :: rest => some (ofMembers members, rest)
    | _ => none
  | count + 1, c :: cs =>
    if c.isDigit then readNumber (c :: cs)
    else match closing? c with
      | some close => do
        let (parts, rest) ← readParts count close cs
        some (made none parts, rest)
      | none => do
        let (head, rest) ← readName (c :: cs)
        match rest.dropWhile isGap with
        | '[' :: inside =>
          let (args, rest) ← readArguments count ']' inside
          some (generic head args, rest)
        | '(' :: inside =>
          let (args, rest) ← readParts count ')' inside
          some (made (some head) args, rest)
        | _ => some (name head, rest)
  | _ + 1, [] => none

/-- Reads what stands between brackets, which may be nothing. -/
def readParts : Nat → Char → List Char → Option (List TypeText × List Char)
  | 0, _, _ => none
  | count + 1, close, cs =>
    match cs.dropWhile isGap with
    | c :: rest => if c == close then some ([], rest) else readArguments count close (c :: rest)
    | [] => none

/-- Reads one or more arguments up to a bracket. -/
def readArguments : Nat → Char → List Char → Option (List TypeText × List Char)
  | 0, _, _ => none
  | count + 1, close, cs => do
    let (members, rest) ← readMembers count (if close == ')' then dropArgumentName cs else cs)
    let first := ofMembers members
    match rest with
    | ',' :: rest =>
      match rest.dropWhile isGap with
      | c :: rest =>
        if c == close then some ([first], rest)
        else do
          let (others, rest) ← readArguments count close (c :: rest)
          some (first :: others, rest)
      | [] => none
    | ':' :: rest =>
      if close == '}' then do
        let (others, rest) ← readArguments count close rest
        some (first :: others, rest)
      else none
    | c :: rest => if c == close then some ([first], rest) else none
    | [] => none

end

/-- Is there nothing left of a text but blanks and a comment? -/
def isOver (cs : List Char) : Bool :=
  match cs.dropWhile fun c => isGap c || c == '\n' with
  | [] => true
  | c :: _ => c == '#'

/-- The expression that a text is; it does not begin with a blank. -/
def parse (text : String) : Option TypeText :=
  if text.toList.head?.any isGap then none
  else
    match readMembers (2 * text.length + 2) text.toList with
    | some (members, rest) => if isOver rest then some (ofMembers members) else none
    | none => none

end TypeText

end RouteDoc
