import RouteDoc.Failure
import RouteDoc.FileName

/-!
# Folders

A folder holds files by their names.  Its directories are those that its files stand in.

* `Folder.read?`, `Folder.read` — the octets of a file;
* `Folder.write` — a file with a text, in new directories where they are missing.
-/

namespace RouteDoc

/-- The files of a folder: the parts of their names, and their octets. -/
abbrev Folder := List (List String × List UInt8)

/-- What can stand under a name. -/
inductive Folder.Holding where
  | file
  | directory
  deriving DecidableEq, Repr

namespace Folder

/-- The parts of a name without steps to the directory above, as far as they can be taken back. -/
def resolve (done : List String) : List String → List String
  | [] => done.reverse
  | part :: rest =>
    match part, done with
    | "..", above :: done' => if above == ".." then resolve (part :: done) rest else resolve done' rest
    | _, _ => resolve (part :: done) rest

/-- The parts under which a name is kept; a name from the root begins with a slash. -/
def partsOf (n : FileName) : List String := (if n.root.isEmpty then [] else ["/"]) ++ resolve [] n.parts

/-- Does a directory with these parts stand in the folder? -/
def isDirectory (f : Folder) (parts : List String) : Bool :=
  parts.isEmpty || parts == ["/"] || f.any fun (p, _) => parts.length < p.length && p.take parts.length == parts

/-- What stands under the parts of a name. -/
def holding? (f : Folder) (parts : List String) : Option Holding :=
  if (f.lookup parts).isSome then some .file else if f.isDirectory parts then some .directory else none

/-- What stands under a name as it is spelled: a slash at its end wants a directory. -/
def find? (f : Folder) (text : String) : Option Holding :=
  if text.isEmpty then none
  else
    match f.holding? (partsOf (FileName.ofText text)) with
    | some .file => if text.endsWith "/" || text.endsWith "/." then none else some .file
    | other => other

/-- The octets of a file. -/
def read? (f : Folder) (n : FileName) : Option (List UInt8) := f.lookup (partsOf n)

/-- The octets of a file, or why there are none. -/
def read (f : Folder) (n : FileName) : Except Failure (List UInt8) :=
  match f.read? n with
  | some octets => .ok octets
  | none =>
    match f.holding? (partsOf n) with
    | some _ => .error (.isDirectory n.text)
    | none => .error (.missingFile n.text)

/-- The folder with other octets in a file. -/
def store (parts : List String) (octets : List UInt8) : Folder → Folder
  | [] => [(parts, octets)]
  | (p, old) :: rest => if p = parts then (p, octets) :: rest else (p, old) :: store parts octets rest

/-- Is a file in the way of a directory with these parts or of one above it? -/
def isBlocked (f : Folder) (parts : List String) : Bool :=
  (List.range (parts.length + 1)).any fun n => (f.lookup (parts.take n)).isSome

/-- The folder with a text in a file. -/
def write (n : FileName) (text : String) (f : Folder) : Except Failure Folder :=
  let parts := partsOf n
  let above := parts.dropLast
  if f.isDirectory parts then .error (.isDirectory n.text)
  else if (f.lookup above).isSome then .error (.fileExists n.parent.text)
  else if f.isBlocked above then .error (.notDirectory n.parent.text)
  else .ok (f.store parts text.toUTF8.data.toList)

end Folder

end RouteDoc
