import RouteDoc.Folder
import RouteDoc.Json.Printer
import RouteDoc.Text.Blank
import RouteDoc.Yaml.Graph.Grammar
import RouteDoc.Yaml.Meaning
import RouteDoc.Yaml.Printer

/-!
# Documents

A document is a value with the record of what is shared in it.  It is read from a file as YAML, of which
JSON is taken to be a part, and written in either format.

* `Document.ofText`, `Document.load` — reading a document, which has to be a mapping;
* `Document.render` — writing a document;
* `DocumentFormat.ofFile` — the format that the name of a file asks for.
-/

namespace RouteDoc

/-- A format in which documents are written. -/
inductive DocumentFormat where
  | json
  | yaml
  deriving DecidableEq, Repr

namespace DocumentFormat

/-- The name of a format. -/
def name : DocumentFormat → String
  | json => "json"
  | yaml => "yaml"

/-- The format with a name; every other name is taken for JSON. -/
def ofName (name : String) : DocumentFormat := if name = "yaml" then yaml else json

/-- The format that the name of a file asks for. -/
def ofFile (n : FileName) : DocumentFormat := if n.isYaml then yaml else json

end DocumentFormat

/-- A value with the record of what is shared in it. -/
structure Document where
  value : Value
  sharing : Sharing
  deriving Repr, Inhabited

namespace Document

/-- The document in which nothing is shared. -/
def plain (v : Value) : Document := ⟨v, []⟩

/-- The document of a value read from a file: nothing counts as the empty document. -/
def ofValue (n : FileName) (v : Value) (sharing : Sharing) : Except Failure Document :=
  match v with
  | .null => .ok (plain (.map []))
  | .map entries => .ok ⟨.map entries, sharing⟩
  | _ => .error (.notAMapping n.text)

/-- The document that the text of a file denotes. -/
def ofText (n : FileName) (text : List Char) : Except Failure Document := do
  match ← Yaml.Graph.ofText (Text.unixLines text) with
  | none => .ok (plain (.map []))
  | some graph =>
    let (v, sharing) ← Yaml.valueOf graph
    ofValue n v sharing

/-- The document that the octets of a file denote. -/
def ofOctets (n : FileName) (octets : List UInt8) : Except Failure Document :=
  match Utf8.decode octets with
  | .ok text => ofText n text
  | .error fault => .error (.undecodable fault)

/-- The document in a file. -/
def load (f : Folder) (n : FileName) : Except Failure Document := do ofOctets n (← f.read n)

/-- The text of a document. -/
def render (format : DocumentFormat) (d : Document) : Except Failure String :=
  match format with
  | .json => Json.render d.value
  | .yaml => Yaml.render d.sharing d.value

/-- The document changed by an override. -/
def mergeInto (d override : Document) : Except Failure Document := do
  .ok ⟨← d.value.mergeInto override.value, Sharing.merge d.value override.value d.sharing override.sharing⟩

/-- The document in which the part at a place stands at another one as well. -/
def repeated (part : Value) (source target : Place) (d : Document) : Document :=
  ⟨Value.put part target d.value, Sharing.repeated source target d.sharing⟩

/-- The document changed by an override of one of its paths.  The paths change wherever they stand. -/
def mergeRoute (route : String) (d override : Document) : Except Failure Document := do
  let value ← d.value.mergeRoute route override.value
  let changed : Document :=
    ⟨value, Sharing.mergeRoute route d.value override.value d.sharing override.sharing⟩
  let paths := (value.get? "paths").getD .null
  .ok ((Sharing.twins Sharing.pathsPlace d.sharing).foldl (fun d p => d.repeated paths Sharing.pathsPlace p) changed)

end Document

end RouteDoc
