import RouteDoc.Classification
import RouteDoc.Value

/-!
# Schemas

The description of a type in a document: a reference to a component, an array of described items, or a
simple type with its format, its admitted values and, for date-times, an example.

* `Schema.toValue`, `Property.toValue`, `Component.toValue` — how they are written;
* `Schema.same` — equality of descriptions, as they are written.
-/

namespace RouteDoc

/-- The values that the members of an enumeration stand for, and the class that they are taken from: the values of one
class are the same objects each time. -/
structure Choices where
  source : Option Ancestor
  values : List Value
  deriving Repr, Inhabited

/-- The description of a type. -/
inductive Schema where
  | reference (nullable : Bool) (component : String)
  | array (nullable : Bool) (items : Schema)
  /-- A simple type; the example, where there is one, comes with a note on time zones. -/
  | simple (nullable : Bool) (word : TypeWord) (format : Option Format) (choices : Option Choices)
      (sample : Option String)
  deriving Repr, Inhabited

/-- What is said about time zones wherever a date-time is documented. -/
def dateTimeNote : String :=
  "Note: timezone information is not preserved for this value. "
    ++ "Send UTC timestamps or convert to a timezone-aware value on the server."

/-- The example of a date-time in a given year. -/
def dateTimeSample (year : Nat) : String := toString year ++ "-01-01T00:00:00.000"

/-- The members that present an example of a date-time. -/
def sampleMembers : Option String → List (String × Value)
  | some sample => [("example", .str sample), ("description", .str dateTimeNote)]
  | none => []

/-- The member that marks a nullable type. -/
def nullableMember (nullable : Bool) : List (String × Value) :=
  if nullable then [("nullable", .bool true)] else []

/-- The place of a component in a document. -/
def componentPlace (name : String) : String := "#/components/schemas/" ++ name

namespace Schema

/-- Is null a value of the type? -/
def nullable : Schema → Bool
  | reference n _ => n
  | array n _ => n
  | simple n _ _ _ _ => n

/-- The members of a description, in order. -/
def members : Schema → List (String × Value)
  | reference n component => nullableMember n ++ [("$ref", .str (componentPlace component))]
  | array n items =>
    nullableMember n ++ [("type", .str "array"), ("items", .object items.members)]
  | simple n word format choices sample =>
    nullableMember n ++ [("type", .str word.name)]
      ++ (format.map fun f => ("format", Value.str f.name)).toList
      ++ (choices.map fun c => ("enum", Value.list c.values)).toList
      ++ sampleMembers sample

/-- A description as written. -/
def toValue (s : Schema) : Value := .object s.members

/-- The class that the admitted values of a description are taken from, for the type itself or for the items of
arrays. -/
def source? : Schema → Option Ancestor
  | reference _ _ => none
  | array _ items => items.source?
  | simple _ _ _ choices _ => choices.bind (·.source)

/-- Equality of descriptions as they are written, where values taken from one class are shared. -/
def same (s t : Schema) : Bool := s.toValue.same (s.source? == t.source?) t.toValue

/-- A description without its example. -/
def withoutSample : Schema → Schema
  | simple n word format choices _ => simple n word format choices none
  | s => s

end Schema

/-- A described field with the default it has. -/
structure Property where
  schema : Schema
  default : Option Value
  deriving Repr, Inhabited

/-- The members of a described field, the default last. -/
def Property.members (p : Property) : List (String × Value) :=
  p.schema.members ++ (p.default.map fun v => ("default", v)).toList

/-- A described field as written. -/
def Property.toValue (p : Property) : Value := .object p.members

/-- The description of a structured type. -/
structure Component where
  properties : List (String × Property)
  required : List String
  deriving Repr, Inhabited

/-- The component without properties. -/
def Component.empty : Component := ⟨[], []⟩

/-- A component as written; an empty list of required properties is left out. -/
def Component.toValue (c : Component) : Value :=
  .object <|
    [("type", .str "object"), ("properties", .object (c.properties.map fun (n, p) => (n, p.toValue)))]
      ++ if c.required.isEmpty then [] else [("required", .list (c.required.map Value.str))]

end RouteDoc
