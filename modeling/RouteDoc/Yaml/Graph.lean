import RouteDoc.Yaml.Cursor
import RouteDoc.Yaml.Tag

/-!
# Graphs of nodes

What a YAML text says before it is given a meaning: nodes with tags, the parts of which are nodes again.  A
node may be a part of several nodes, and of itself, so the nodes are listed and parts are given by their
places in the list; the first one is the whole.  A mapping may merge others into itself: their entries come
first, so that its own win.

* `Graph.textOf` — the text of a scalar, or of the default value of a mapping;
* `Graph.flatten` — the graph after all merging into one mapping.
-/

namespace RouteDoc.Yaml

/-- What a node is made of. -/
inductive Content where
  | scalar (text : String)
  | sequence (items : List Nat)
  | mapping (entries : List (Nat × Nat))
  deriving DecidableEq, Repr, Inhabited

/-- A node. -/
structure Vertex where
  tag : Tag
  content : Content
  deriving DecidableEq, Repr, Inhabited

/-- The nodes of a text. -/
abbrev Graph := Array Vertex

namespace Graph

/-- A node without text. -/
def blank : Vertex := ⟨.null, .scalar ""⟩

/-- The node with a number. -/
def vertex (g : Graph) (n : Nat) : Vertex := g.getD n blank

/-- The tag of a node. -/
def tag (g : Graph) (n : Nat) : Tag := (g.vertex n).tag

/-- The entries of a mapping. -/
def entries (g : Graph) (n : Nat) : List (Nat × Nat) :=
  match (g.vertex n).content with
  | .mapping es => es
  | _ => []

/-- The graph with another node in the place of one. -/
def define (n : Nat) (v : Vertex) (g : Graph) : Graph := g.setIfInBounds n v

/-- The graph with other entries of a mapping. -/
def setEntries (n : Nat) (es : List (Nat × Nat)) (g : Graph) : Graph := g.define n ⟨g.tag n, .mapping es⟩

/-- The graph in which a key with the mark of a default value is a text. -/
def plainKey (g : Graph) (n : Nat) : Graph :=
  if g.tag n == .value then g.define n ⟨.str, (g.vertex n).content⟩ else g

/-- The number of all entries. -/
def entryCount (g : Graph) : Nat :=
  g.foldl (fun n v => match v.content with
    | .mapping es => n + es.length
    | _ => n) 0

/-- The number of all items. -/
def itemCount (g : Graph) : Nat :=
  g.foldl (fun n v => match v.content with
    | .sequence items => n + items.length
    | _ => n) 0

/-- More than the steps that any merging takes: every entry to be merged takes as many as its items. -/
def mergeBound (g : Graph) : Nat := (g.entryCount + 1) * (g.itemCount + 4)

/-- The text of a scalar, or of the default value of a mapping.  The count bounds the mappings. -/
def textWithin (g : Graph) : Nat → Nat → Option String
  | 0, _ => none
  | count + 1, n =>
    match (g.vertex n).content with
    | .scalar text => some text
    | .sequence _ => none
    | .mapping es => (es.find? fun (k, _) => g.tag k == .value).bind fun (_, v) => textWithin g count v

/-- The text of a scalar, or of the default value of a mapping. -/
def textOf (g : Graph) (n : Nat) : Option String := g.textWithin (g.size + 1) n

/-- The first entry under the key of merging, and the others. -/
def takeMerge (g : Graph) : List (Nat × Nat) → Option (Nat × List (Nat × Nat))
  | [] => none
  | (k, v) :: rest =>
    if g.tag k == .merge then some (v, rest)
    else (takeMerge g rest).map fun (found, others) => (found, (k, v) :: others)

mutual

/-- The graph after all merging into a mapping, with the entries merged so far.  The count bounds the
entries to be merged. -/
def flattenWith (merged : List (Nat × Nat)) : Nat → Nat → Graph → Read Graph
  | 0, _, g => .ok g
  | count + 1, n, g =>
    match g.takeMerge (g.entries n) with
    | some (v, others) => do
      let (es, g) ← contribution count v (g.setEntries n others)
      flattenWith (merged ++ es) count n g
    | none =>
      let own := g.entries n
      let g := own.foldl (fun g (k, _) => g.plainKey k) g
      .ok (if merged.isEmpty then g else g.setEntries n (merged ++ own))

/-- The entries that are merged from a node: of a mapping, or of several, of which the first wins. -/
def contribution : Nat → Nat → Graph → Read (List (Nat × Nat) × Graph)
  | 0, _, g => .ok ([], g)
  | count + 1, n, g =>
    match (g.vertex n).content with
    | .mapping _ => do
      let g ← flattenWith [] count n g
      .ok (g.entries n, g)
    | .sequence items => contributions count items g
    | .scalar _ => malformed

/-- The entries that are merged from several mappings, those of the last one first. -/
def contributions : Nat → List Nat → Graph → Read (List (Nat × Nat) × Graph)
  | _, [], g => .ok ([], g)
  | 0, _, g => .ok ([], g)
  | count + 1, n :: rest, g =>
    match (g.vertex n).content with
    | .mapping _ => do
      let g ← flattenWith [] count n g
      let es := g.entries n
      let (more, g) ← contributions count rest g
      .ok (more ++ es, g)
    | _ => malformed

end

/-- The graph after all merging into a mapping, given a bound of the steps. -/
def flatten (bound n : Nat) (g : Graph) : Read Graph := flattenWith [] bound n g

end Graph

end RouteDoc.Yaml
