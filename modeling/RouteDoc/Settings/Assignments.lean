import RouteDoc.Text.Blank
import RouteDoc.Text.Utf8

/-!
# Files of assignments

A file of lines `NAME=value`.  A name may be marked for export or stand in single quotes, a value may be
plain or stand in quotes of either kind, in which it may run over several lines; comments begin with a
hash.  A line that is none of this is passed over.  In a value, `${NAME}` stands for a variable and
`${NAME:-text}` gives a text to use when there is none.

* `Assignments.read` — the assignments of a file, in order;
* `Assignments.expand` — the same with variables replaced.
-/

namespace RouteDoc.Assignments

open RouteDoc.Text

/-- What follows the end of the line. -/
def afterLine (cs : List Char) : List Char :=
  match cs.dropWhile fun c => c != '\n' && c != '\r' with
  | [] => []
  | _ :: rest => rest

/-- The word that marks a name for export. -/
def exportWord : List Char := "export".toList

/-- What follows a mark for export, if there is one. -/
def skipExport (cs : List Char) : List Char :=
  if exportWord.isPrefixOf cs then
    match cs.drop exportWord.length with
    | c :: rest => if isInlineBlank c then rest.dropWhile isInlineBlank else cs
    | [] => cs
  else cs

/-- Reads a name: none in front of a comment. -/
def readName : List Char → Option (Option (List Char) × List Char)
  | '#' :: rest => some (none, '#' :: rest)
  | '\'' :: rest =>
    match rest.takeWhile (· != '\''), rest.dropWhile (· != '\'') with
    | [], _ => none
    | _, [] => none
    | name, _ :: rest => some (some name, rest)
  | cs =>
    let isPart := fun c => c != '=' && c != '#' && !isBlank c
    match cs.takeWhile isPart with
    | [] => none
    | name => some (some name, cs.dropWhile isPart)

/-- Reads up to the first quote that no backslash precedes. -/
def readQuoted (quote : Char) : List Char → Option (List Char × List Char)
  | [] => none
  | '\\' :: c :: rest =>
    if c = quote then
      match readQuoted quote rest with
      | some (text, rest) => some ('\\' :: c :: text, rest)
      | none => some (['\\'], rest)
    else (readQuoted quote (c :: rest)).map fun (text, rest) => ('\\' :: text, rest)
  | c :: rest =>
    if c = quote then some ([], rest)
    else (readQuoted quote rest).map fun (text, rest) => (c :: text, rest)

/-- The character that stands behind a backslash in double quotes. -/
def escapedInDouble? : Char → Option Char
  | '\\' => some '\\'
  | '\'' => some '\''
  | '"' => some '"'
  | 'a' => some '\x07'
  | 'b' => some '\x08'
  | 'f' => some '\x0c'
  | 'n' => some '\n'
  | 'r' => some '\r'
  | 't' => some '\t'
  | 'v' => some '\x0b'
  | _ => none

/-- The character that stands behind a backslash in single quotes. -/
def escapedInSingle? : Char → Option Char
  | '\\' => some '\\'
  | '\'' => some '\''
  | _ => none

/-- A text with its escapes replaced. -/
def unescape (escaped? : Char → Option Char) : List Char → List Char
  | '\\' :: c :: rest =>
    match escaped? c with
    | some d => d :: unescape escaped? rest
    | none => '\\' :: unescape escaped? (c :: rest)
  | c :: rest => c :: unescape escaped? rest
  | [] => []

/-- A plain value without its comment, which begins with a blank and a hash. -/
def withoutComment : List Char → List Char
  | [] => []
  | c :: rest =>
    if isBlank c && (rest.dropWhile isBlank).head? == some '#' then []
    else c :: withoutComment rest

/-- Reads a value. -/
def readValue : List Char → Option (List Char × List Char)
  | '\'' :: rest => (readQuoted '\'' rest).map fun (text, rest) => (unescape escapedInSingle? text, rest)
  | '"' :: rest => (readQuoted '"' rest).map fun (text, rest) => (unescape escapedInDouble? text, rest)
  | cs =>
    let isPart := fun c => c != '\n' && c != '\r'
    some (trimEnd (withoutComment (cs.takeWhile isPart)), cs.dropWhile isPart)

/-- Reads a comment, when there is one, and the end of the line. -/
def readEnd (cs : List Char) : Option (List Char) :=
  let rest := match cs.dropWhile isInlineBlank with
    | '#' :: rest => rest.dropWhile fun c => c != '\n' && c != '\r'
    | _ => cs
  match rest.dropWhile isInlineBlank with
  | [] => some []
  | '\n' :: rest => some rest
  | '\r' :: '\n' :: rest => some rest
  | '\r' :: rest => some rest
  | _ => none

/-- What one line holds: a name with its value, if both are there, and what follows the line. -/
structure Line where
  name : Option (List Char)
  value : Option (List Char)
  rest : List Char

/-- Reads a line that does not begin with a blank. -/
def readLine (cs : List Char) : Line :=
  let start := skipExport cs
  match readName start with
  | none => ⟨none, none, afterLine start⟩
  | some (name, afterName) =>
    match afterName.dropWhile isInlineBlank with
    | '=' :: rest =>
      let rest := rest.dropWhile isInlineBlank
      match readValue rest with
      | none => ⟨none, none, afterLine rest⟩
      | some (value, afterValue) =>
        match readEnd afterValue with
        | some rest => ⟨name, some value, rest⟩
        | none => ⟨none, none, afterLine afterValue⟩
    | rest =>
      match readEnd rest with
      | some rest => ⟨name, none, rest⟩
      | none => ⟨none, none, afterLine rest⟩

/-- The assignments of a text, in order; the count bounds the lines. -/
def readLines : Nat → List Char → List (String × Option String)
  | 0, _ => []
  | count + 1, cs =>
    match cs.dropWhile isBlank with
    | [] => []
    | start =>
      let line := readLine start
      match line.name with
      | some name => (String.ofList name, line.value.map String.ofList) :: readLines count line.rest
      | none => readLines count line.rest

/-- The assignments of a file, in order; a name without a value has none.  The file may begin with the mark
of the octet order, which belongs to no name. -/
def read (text : String) : List (String × Option String) :=
  readLines (text.length + 1) (unixLines (Utf8.withoutOrderMark text.toList))

/-! ### Variables -/

/-- A variable in braces: its name, the text to use in its absence, and what follows it. -/
def readVariable? (cs : List Char) : Option (List Char × List Char × List Char) :=
  let name := cs.takeWhile fun c => c != '\x7d' && c != ':'
  match cs.dropWhile fun c => c != '\x7d' && c != ':' with
  | '\x7d' :: rest => some (name, [], rest)
  | ':' :: '-' :: rest =>
    match rest.dropWhile (· != '\x7d') with
    | _ :: after => some (name, rest.takeWhile (· != '\x7d'), after)
    | [] => none
  | _ => none

/-- A value with its variables replaced; the count bounds the steps. -/
def expandValue (bindings : List (String × Option String)) : Nat → List Char → List Char
  | 0, cs => cs
  | _, [] => []
  | count + 1, '$' :: '\x7b' :: rest =>
    match readVariable? rest with
    | some (name, fallback, after) =>
      let value := match bindings.lookup (String.ofList name) with
        | some value => (value.getD "").toList
        | none => fallback
      value ++ expandValue bindings count after
    | none => '$' :: expandValue bindings count ('\x7b' :: rest)
  | count + 1, c :: rest => c :: expandValue bindings count rest

/-- The assignments with variables replaced: by earlier assignments, or else from the environment.  The
latest assignment stands first among the variables. -/
def expandFrom (bindings : List (String × Option String)) :
    List (String × Option String) → List (String × Option String)
  | [] => []
  | (name, value) :: rest =>
    let value := value.map fun v => String.ofList (expandValue bindings (v.length + 1) v.toList)
    (name, value) :: expandFrom ((name, value) :: bindings) rest

/-- Puts an assignment in the place of the one with its name, or at the end. -/
def assign (name : String) (value : Option String) :
    List (String × Option String) → List (String × Option String)
  | [] => [(name, value)]
  | (n, v) :: rest => if n == name then (n, value) :: rest else (n, v) :: assign name value rest

/-- The assignments of a file with variables replaced, each name once. -/
def expand (environment : List (String × String)) (assignments : List (String × Option String)) :
    List (String × Option String) :=
  (expandFrom (environment.reverse.map fun (n, v) => (n, some v)) assignments).foldl
    (fun out (n, v) => assign n v out) []

end RouteDoc.Assignments
