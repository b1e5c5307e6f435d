import RouteDoc.Yaml.Cursor

/-!
# Tokens

The tokens that a YAML text consists of.  The beginnings and ends of indented blocks are tokens of their
own, as is the mark in front of a key, which is known only after the key has been read.
-/

namespace RouteDoc.Yaml

/-- A tag as written. -/
inductive TagText where
  /-- In angle brackets, or the mark alone. -/
  | verbatim (tag : String)
  /-- A handle and what follows it. -/
  | short (handle suffix : String)
  deriving DecidableEq, Repr

/-- The directives before a document. -/
inductive Directive where
  | version (major : Nat)
  | tag (handle expansion : String)
  | other
  deriving DecidableEq, Repr

/-- The tokens of a text. -/
inductive Token where
  | directive (d : Directive)
  | documentStart
  | documentEnd
  | streamEnd
  | blockSequenceStart
  | blockMappingStart
  | blockEnd
  | flowSequenceStart
  | flowSequenceEnd
  | flowMappingStart
  | flowMappingEnd
  | blockEntry
  | flowEntry
  | key
  | value
  | reference (name : String)
  | anchor (name : String)
  | tag (t : TagText)
  | scalar (text : String) (plain : Bool)
  deriving DecidableEq, Repr

end RouteDoc.Yaml
