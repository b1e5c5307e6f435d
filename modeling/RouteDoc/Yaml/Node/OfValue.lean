import RouteDoc.Json.Printer
import RouteDoc.Sharing
import RouteDoc.Text.Base64
import RouteDoc.Yaml.Cursor
import RouteDoc.Yaml.Node

/-!
# Nodes of values

The node of a value, in which a part that stands in several places is drawn once and referred to from the
others.  The numbers of such parts follow the order in which they are first referred to.

* `Node.draw` — the node in which every part has a number;
* `Node.renumber` — the node in which only those have one that are referred to;
* `Node.ofValue` — the node of a value.
-/

namespace RouteDoc.Yaml

/-- What is known while a node is drawn: the next number, and the numbers of parts with labels. -/
structure Drawn where
  next : Nat
  labelled : List (Label × Nat)

/-- A step of drawing; a value that no document can hold stops it. -/
abbrev Draw := StateT Drawn Read

namespace Node

/-! ### Drawing -/

/-- The text of a number with a point: an exponent is only written behind a point. -/
def floatText : Binary64 → String
  | .nan _ => ".nan"
  | .infinite false => ".inf"
  | .infinite true => "-.inf"
  | x =>
    let cs := x.text.toList
    if cs.contains '.' then x.text
    else String.ofList (cs.flatMap fun c => if c == 'e' then ['.', '0', 'e'] else [c])

/-- The node of a scalar. -/
def ofScalar (number : Option Nat) : Scalar → Draw Node
  | .null => return scalar number .null "null"
  | .bool b => return scalar number .bool (if b then "true" else "false")
  | .int i => return scalar number .int (String.ofList (← Numeral.integerText i))
  | .float x => return scalar number .float (floatText x)
  | .str s => return scalar number .str s
  | .bytes octets => return scalar number .binary (Base64.encode octets)
  | .date d => return scalar number .timestamp d.text
  | .dateTime t => return scalar number .timestamp (t.text " ")
  | .foreign _ => throw .yaml

mutual

/-- The node of a key. -/
def ofKey : Key → Draw Node
  | .scalar s => ofScalar none s
  | .tuple items => return sequence none .seq (← ofKeys items)

/-- The nodes of several keys. -/
def ofKeys : List Key → Draw (List Node)
  | [] => return []
  | k :: rest => do
    let n ← ofKey k
    return n :: (← ofKeys rest)

end

/-- Takes a number for a part with a label, or without. -/
def take (label : Option Label) : Draw Nat := do
  let d ← get
  set (⟨d.next + 1, (label.map fun l => (l, d.next)).toList ++ d.labelled⟩ : Drawn)
  return d.next

/-- Draws a part unless it is there already. -/
def once (label : Option Label) (part : Nat → Draw Node) : Draw Node := do
  let known := (← get).labelled
  match label.bind fun l => known.lookup l with
  | some n => return reference n
  | none => part (← take label)

mutual

/-- The node of a value at a place, inside of parts with numbers, the nearest first. -/
def draw (sharing : Sharing) (place : Place) (around : List Nat) : Value → Draw Node
  | .scalar s => once (sharing.label? place) fun n => ofScalar (some n) s
  | .list items =>
    once (sharing.label? place) fun n => do
      return sequence (some n) .seq (← drawItems sharing place (n :: around) 0 items)
  | .set items =>
    once (sharing.label? place) fun n => do
      return mapping (some n) .set ((← ofKeys items).map fun k => (k, scalar none .null "null"))
  | .map entries =>
    once (sharing.label? place) fun n => do
      return mapping (some n) .map (← drawEntries sharing place (n :: around) entries)
  | .enclosing levels => return reference (around.getD levels 0)

/-- The nodes of items, counted from an index on. -/
def drawItems (sharing : Sharing) (place : Place) (around : List Nat) (index : Nat) :
    List Value → Draw (List Node)
  | [] => return []
  | v :: rest => do
    let n ← draw sharing (place ++ [.item index]) around v
    return n :: (← drawItems sharing place around (index + 1) rest)

/-- The nodes of entries. -/
def drawEntries (sharing : Sharing) (place : Place) (around : List Nat) :
    List (Key × Value) → Draw (List (Node × Node))
  | [] => return []
  | (k, v) :: rest => do
    let key ← ofKey k
    let n ← draw sharing (place ++ [.key k]) around v
    return (key, n) :: (← drawEntries sharing place around rest)

end

/-! ### Numbering -/

mutual

/-- The numbers that a node refers to, in order. -/
def references : Node → List Nat
  | reference n => [n]
  | scalar _ _ _ => []
  | sequence _ _ items => itemReferences items
  | mapping _ _ entries => entryReferences entries

/-- The numbers that items refer to. -/
def itemReferences : List Node → List Nat
  | [] => []
  | n :: rest => references n ++ itemReferences rest

/-- The numbers that entries refer to. -/
def entryReferences : List (Node × Node) → List Nat
  | [] => []
  | (k, v) :: rest => references k ++ references v ++ entryReferences rest

end

/-- The place of a number in a list, counted from one. -/
def rank? (order : List Nat) (n : Nat) : Option Nat := (order.idxOf? n).map (· + 1)

mutual

/-- The node with numbers by their places in a list; the others have none. -/
def renumber (order : List Nat) : Node → Node
  | reference n => reference ((rank? order n).getD 0)
  | scalar n tag text => scalar (n.bind (rank? order)) tag text
  | sequence n tag items => sequence (n.bind (rank? order)) tag (renumberItems order items)
  | mapping n tag entries => mapping (n.bind (rank? order)) tag (renumberEntries order entries)

/-- Items with numbers by their places in a list. -/
def renumberItems (order : List Nat) : List Node → List Node
  | [] => []
  | n :: rest => renumber order n :: renumberItems order rest

/-- Entries with numbers by their places in a list. -/
def renumberEntries (order : List Nat) : List (Node × Node) → List (Node × Node)
  | [] => []
  | (k, v) :: rest => (renumber order k, renumber order v) :: renumberEntries order rest

end

/-- The node of a value. -/
def ofValue (sharing : Sharing) (v : Value) : Read Node := do
  let (n, _) ← (draw sharing [] [] v).run ⟨1, []⟩
  return n.renumber n.references.eraseDups

end Node

end RouteDoc.Yaml
