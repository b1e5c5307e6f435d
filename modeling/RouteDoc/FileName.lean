import RouteDoc.Text.LetterCase

/-!
# File names

A file name is a sequence of parts between slashes; empty parts and single points are left out.

* `FileName.ofText`, `FileName.text` — reading and writing a name;
* `FileName.suffix` — what follows the last point of the last part;
* `FileName.isYaml` — does the suffix name the YAML format?
-/

namespace RouteDoc

/-- A file name: the slashes that it begins with, and its parts. -/
structure FileName where
  root : String
  parts : List String
  deriving DecidableEq, Repr, Inhabited

namespace FileName

/-- The slashes that a name begins with count as one, except two of them. -/
def rootOf (text : String) : String :=
  match (text.toList.takeWhile (· == '/')).length with
  | 0 => ""
  | 2 => "//"
  | _ => "/"

/-- The name that a text is. -/
def ofText (text : String) : FileName :=
  ⟨rootOf text, (text.splitOn "/").filter fun part => !part.isEmpty && part != "."⟩

/-- The text of a name; the name without parts is a point. -/
def text (n : FileName) : String :=
  if n.root.isEmpty && n.parts.isEmpty then "." else n.root ++ "/".intercalate n.parts

/-- The name of the directory in which the file stands. -/
def parent (n : FileName) : FileName := { n with parts := n.parts.dropLast }

/-- What follows the last point of a part, the point included.  A point at either end does not count. -/
def suffixOf (cs : List Char) : List Char :=
  let rest := cs.reverse.takeWhile (· != '.')
  if rest.isEmpty || cs.length ≤ rest.length + 1 then [] else '.' :: rest.reverse

/-- The suffix of a name. -/
def suffix (n : FileName) : String := String.ofList (suffixOf ((n.parts.getLast?.getD "").toList))

/-- Does the suffix, in any letter case, name the YAML format? -/
def isYaml (n : FileName) : Bool := [".yaml", ".yml"].contains (Text.lower n.suffix)

end FileName

end RouteDoc
