import RouteDoc.Sharing
import RouteDoc.Slots
import RouteDoc.Yaml.Graph
import RouteDoc.Yaml.Scalar

/-!
# Meanings of documents

The value of a graph of nodes.  Nodes are given their values level by level from the outside in: a scalar at
once, a collection when it is its turn, after all merging into it.  Of several equal keys the last value
counts.  Nodes that stand in several places are one part of the value.

* `Reading.run` — the parts that nodes turn out to be;
* `Parts.meaning` — the value, with the numbers of its parts;
* `Yaml.valueOf` — the value of a graph and what is shared in it.
-/

namespace RouteDoc.Yaml

/-! ### Parts -/

/-- What a node turns out to be. -/
inductive Part where
  | scalar (s : Scalar)
  /-- A collection whose turn is still to come. -/
  | waiting
  | list (items : List Nat)
  /-- Pairs of keys and values, which need not be distinct. -/
  | pairs (items : List (Nat × Nat))
  | map (entries : List (Nat × Nat))
  | set (keys : List Nat)
  deriving Repr, Inhabited

/-- What nodes turned out to be, by their numbers. -/
abbrev Parts := Array (Option Part)

/-- The state of giving values to nodes: the graph with the merging done so far, the parts, and the
collections whose turn is to come, the latest first. -/
structure Reading where
  graph : Graph
  parts : Parts
  queue : List Nat
  bound : Nat

/-- Is the value of a node with this tag put together from other values? -/
def isComposite : Tag → Bool
  | .seq | .map | .set | .omap | .pairs => true
  | _ => false

/-- The value of a node that is not put together from others. -/
def scalarOf (g : Graph) (n : Nat) : Read Scalar :=
  match g.textOf n, g.tag n, (g.vertex n).content with
  | none, _, _ => malformed
  | some _, .timestamp, .mapping _ => .error .timestampNoText
  | some text, tag, _ => tag.scalarValue text

namespace Reading

/-- The state before a graph is read. -/
def start (g : Graph) : Reading := ⟨g, Array.replicate g.size none, [], g.mergeBound⟩

/-- What a node turned out to be. -/
def part? (r : Reading) (n : Nat) : Option Part := r.parts.getD n none

/-- Notes what a node turns out to be. -/
def note (n : Nat) (p : Part) (r : Reading) : Reading := { r with parts := r.parts.setIfInBounds n (some p) }

/-- Looks at a node: a scalar has to have a value, a collection waits for its turn. -/
def visit (n : Nat) (r : Reading) : Read Reading :=
  match r.part? n with
  | some _ => .ok r
  | none =>
    if isComposite (r.graph.tag n) then .ok ({ r with queue := n :: r.queue }.note n .waiting)
    else (scalarOf r.graph n).map fun s => r.note n (.scalar s)

/-- Looks at a key, which has to be a scalar. -/
def visitKey (n : Nat) (r : Reading) : Read Reading := do
  let r ← r.visit n
  match r.part? n with
  | some (.scalar _) => .ok r
  | _ => malformed

/-- Looks at items. -/
def visitItems : List Nat → Reading → Read Reading
  | [], r => .ok r
  | n :: rest, r => do visitItems rest (← r.visit n)

/-- Looks at entries. -/
def visitEntries : List (Nat × Nat) → Reading → Read Reading
  | [], r => .ok r
  | (k, v) :: rest, r => do visitEntries rest (← (← r.visitKey k).visit v)

/-- Looks at items that have to be mappings of one entry each, and gives the entries. -/
def visitPairs : List Nat → Reading → Read (List (Nat × Nat) × Reading)
  | [], r => .ok ([], r)
  | n :: rest, r =>
    match (r.graph.vertex n).content with
    | .mapping [(k, v)] => do
      let (pairs, r) ← visitPairs rest (← (← r.visit k).visit v)
      .ok ((k, v) :: pairs, r)
    | _ => malformed

/-- The entries of a mapping after all merging, each of which is looked at. -/
def readEntries (n : Nat) (r : Reading) : Read (List (Nat × Nat) × Reading) := do
  let g ← r.graph.flatten r.bound n
  let es := g.entries n
  .ok (es, ← visitEntries es { r with graph := g })

/-- Gives a value to a collection whose turn it is. -/
def readCollection (n : Nat) (r : Reading) : Read Reading :=
  match r.graph.tag n, (r.graph.vertex n).content with
  | .map, .mapping _ => do
    let (es, r) ← r.readEntries n
    .ok (r.note n (.map es))
  | .set, .mapping _ => do
    let (es, r) ← r.readEntries n
    .ok (r.note n (.set (es.map (·.1))))
  | .seq, .sequence items => do .ok ((← r.visitItems items).note n (.list items))
  | .omap, .sequence items => do
    let (pairs, r) ← r.visitPairs items
    .ok (r.note n (.pairs pairs))
  | .pairs, .sequence items => do
    let (pairs, r) ← r.visitPairs items
    .ok (r.note n (.pairs pairs))
  | _, _ => malformed

/-- Gives values to the collections of a level. -/
def readLevel : List Nat → Reading → Read Reading
  | [], r => .ok r
  | n :: rest, r => do readLevel rest (← r.readCollection n)

/-- Gives values to one level after the other; the count bounds the levels. -/
def readLevels : Nat → Reading → Read Reading
  | 0, r => .ok r
  | count + 1, r =>
    if r.queue.isEmpty then .ok r
    else do readLevels count (← readLevel r.queue.reverse { r with queue := [] })

/-- The parts of a graph. -/
def run (g : Graph) : Read Parts := do
  let r ← (start g).visit 0
  return (← readLevels (g.size + 1) r).parts

end Reading

/-! ### Values -/

/-- A value with the numbers of its parts. -/
structure Meaning where
  value : Value
  numbers : List (Place × Nat)
  deriving Inhabited

namespace Meaning

/-- A value without parts that have numbers. -/
def plain (v : Value) : Meaning := ⟨v, []⟩

/-- The numbers of parts seen from further out. -/
def numbersUnder (step : Step) (m : Meaning) : List (Place × Nat) :=
  m.numbers.map fun (p, n) => (step :: p, n)

/-- A value that has a number itself. -/
def numbered (number : Nat) (m : Meaning) : Meaning := { m with numbers := ([], number) :: m.numbers }

/-- The list of several values. -/
def list (items : List Meaning) : Meaning :=
  ⟨.list (items.map (·.value)), (items.mapIdx fun i m => m.numbersUnder (.item i)).flatten⟩

/-- A key with the number of its node, by which it is equal to itself whatever its value. -/
abbrev NumberedKey := Nat × Scalar

/-- Are two keys one? -/
def sameKey (j k : NumberedKey) : Bool := j.1 == k.1 || j.2.sameKey k.2

/-- Stores a value under a key: an equal key keeps its place. -/
def insert (key : NumberedKey) (m : Meaning) : List (NumberedKey × Meaning) → List (NumberedKey × Meaning)
  | [] => [(key, m)]
  | (k, other) :: rest => if sameKey k key then (k, m) :: rest else (k, other) :: insert key m rest

/-- The mapping with entries that are stored one after another. -/
def map (pairs : List (NumberedKey × Meaning)) : Meaning :=
  let entries := pairs.foldl (fun out (k, m) => insert k m out) []
  ⟨.map (entries.map fun ((_, k), m) => (.scalar k, m.value)),
    entries.flatMap fun ((_, k), m) => m.numbersUnder (.key (.scalar k))⟩

/-- The code of a scalar that is a number. -/
def code? : Scalar → Option Code
  | .bool b => some (Code.ofInteger (if b then 1 else 0))
  | .int i => some (Code.ofInteger i)
  | .float x => Code.ofReal (.ofBinary x)
  | _ => none

/-- The set of keys. -/
def set (keys : List NumberedKey) : Meaning :=
  let distinct := keys.foldl (fun out k => if out.any (sameKey k) then out else out ++ [k]) []
  plain (.set ((bulkOrder code? (distinct.map (·.2))).map .scalar))

end Meaning

namespace Parts

/-- The scalar that a node turned out to be; null when it is none. -/
def scalar (ps : Parts) (n : Nat) : Scalar :=
  match ps.getD n none with
  | some (.scalar s) => s
  | _ => .null

/-- The value of a scalar; only dates are parts that can be one in several places. -/
def scalarMeaning (n : Nat) (s : Scalar) : Meaning :=
  match s with
  | .date _ | .dateTime _ => (Meaning.plain (.scalar s)).numbered n
  | _ => Meaning.plain (.scalar s)

/-- The value of a node inside of others, the nearest first; a list of two that stands for a pair has no
number.  The count bounds the levels. -/
def meaning (ps : Parts) : Nat → List (Option Nat) → Nat → Meaning
  | 0, _, _ => default
  | count + 1, around, n =>
    if around.contains (some n) then Meaning.plain (.enclosing (around.findIdx (· == some n)))
    else match ps.getD n none with
      | some (.scalar s) => scalarMeaning n s
      | some (.list items) => (Meaning.list (items.map (meaning ps count (some n :: around)))).numbered n
      | some (.pairs items) =>
        let inside := none :: some n :: around
        (Meaning.list (items.map fun (k, v) =>
          Meaning.list [meaning ps count inside k, meaning ps count inside v])).numbered n
      | some (.map entries) =>
        (Meaning.map (entries.map fun (k, v) =>
          ((k, ps.scalar k), meaning ps count (some n :: around) v))).numbered n
      | some (.set keys) => (Meaning.set (keys.map fun k => (k, ps.scalar k))).numbered n
      | some .waiting | none => default

end Parts

/-- The places that hold one part with another place. -/
def sharingOf (numbers : List (Place × Nat)) : Sharing :=
  (numbers.filter fun (_, n) => (numbers.filter fun (_, m) => m == n).length > 1).map
    fun (p, n) => (p, ⟨n, none⟩)

/-- The value of a graph and what is shared in it. -/
def valueOf (g : Graph) : Read (Value × Sharing) := do
  let ps ← Reading.run g
  let m := ps.meaning (g.size + 1) [] 0
  .ok (m.value, sharingOf m.numbers)

end RouteDoc.Yaml
