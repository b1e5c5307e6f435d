import RouteDoc.Yaml.Tag

/-!
# Nodes

What a YAML document is made of, before it is given a meaning and before it is laid out: scalars, sequences
and mappings with their tags.  A node that is referred to from elsewhere has a number.
-/

namespace RouteDoc.Yaml

/-- A node of a document. -/
inductive Node where
  | scalar (number : Option Nat) (tag : Tag) (text : String)
  | sequence (number : Option Nat) (tag : Tag) (items : List Node)
  | mapping (number : Option Nat) (tag : Tag) (entries : List (Node × Node))
  /-- The node with a number, which stands elsewhere. -/
  | reference (number : Nat)
  deriving Repr, Inhabited

namespace Node

/-- The tag of a node. -/
def tag : Node → Tag
  | scalar _ t _ => t
  | sequence _ t _ => t
  | mapping _ t _ => t
  | reference _ => .null

/-- The number of a node. -/
def number : Node → Option Nat
  | scalar n _ _ => n
  | sequence n _ _ => n
  | mapping n _ _ => n
  | reference n => some n

end Node

end RouteDoc.Yaml
