import RouteDoc.Registry

/-!
# Request parameters

The parameters of a route as a document lists them, each with the place it is read from.  A parameter
that a request extractor gathers into a structured type is listed field by field.

* `Scope.entry` — the entry of one parameter, if its type can be described;
* `Scope.entries` — the entries of a parameter, one for each field where it is gathered;
* `Scope.allEntries` — the entries of path, query and header parameters, in this order.
-/

namespace RouteDoc

/-- The places that parameters are read from. -/
inductive Location where
  | path | query | header
  /-- Any other place, by its name. -/
  | other (name : String)
  deriving DecidableEq, Repr, Inhabited

namespace Location

/-- The name of a place. -/
def name : Location → String
  | path => "path"
  | query => "query"
  | header => "header"
  | other n => n

/-- The place with a name. -/
def ofName : String → Location
  | "path" => path
  | "query" => query
  | "header" => header
  | n => other n

end Location

/-- A parameter as a document lists it. -/
structure RequestParameter where
  location : Location
  name : String
  required : Bool
  schema : Property
  /-- The example of a date-time. -/
  sample : Option String
  deriving Repr, Inhabited

namespace RequestParameter

/-- The members of an entry, in order. -/
def members (p : RequestParameter) : List (String × Value) :=
  [("in", .str p.location.name), ("name", .str p.name), ("required", .bool p.required),
    ("schema", p.schema.toValue)] ++ sampleMembers p.sample

/-- An entry as written. -/
def toValue (p : RequestParameter) : Value := .object p.members

end RequestParameter

namespace Scope

/-- The entry of a parameter whose type is described; the example of a date-time stands on the entry and
not in its schema, and path parameters are always required. -/
def entryOf (scope : Scope) (location : Location) (p : Param) (schema : Schema) (default : Option Value) :
    RequestParameter :=
  let isDateTime := scope.types.isDateTime (scope.types.extractType p.type).stripOptional
  { location
    name := p.name
    required := location == .path || p.required
    schema := ⟨if isDateTime then schema.withoutSample else schema, default⟩
    sample := if isDateTime then some (dateTimeSample scope.year) else none }

/-- The entry of a parameter; nothing, with a notice, when its type cannot be described. -/
def entry (scope : Scope) (location : Location) (p : Param) : Build (Option RequestParameter) := do
  match ← scope.build (scope.types.extractType p.type) with
  | none =>
    Build.warn [.undescribedParam location.name p.name]
    return none
  | some schema =>
    let default ← (documentedDefault p : Except Failure (Option Value))
    return some (scope.entryOf location p schema default)

/-- The parameters that a parameter stands for at its turn: the fields of its type when a request extractor gathers
them, and else itself. -/
def candidates (scope : Scope) (turn : Nat) (p : Param) : Except Failure (List Param) :=
  let inner := (scope.types.extractType p.type).stripOptional
  if scope.types.isRequestParam p.type && scope.types.isStruct inner then
    scope.types.fieldsOf inner.unwrap (.gathering scope.time turn)
  else .ok [p]

/-- The entries of parameters that are read from one place, one after another. -/
def entriesFrom (scope : Scope) (location : Location) : List Param → Build (List RequestParameter)
  | [] => return []
  | p :: rest => do
    let first ← scope.entry location p
    let others ← scope.entriesFrom location rest
    return first.toList ++ others

/-- The entries of a parameter at its turn. -/
def entries (scope : Scope) (location : Location) (turn : Nat) (p : Param) : Build (List RequestParameter) := do
  scope.entriesFrom location (← (scope.candidates turn p : Except Failure (List Param)))

/-- The entries of several parameters, each with its turn. -/
def entriesAll (scope : Scope) (location : Location) : List (Param × Nat) → Build (List RequestParameter)
  | [] => return []
  | (p, turn) :: rest => do
    let first ← scope.entries location turn p
    let others ← scope.entriesAll location rest
    return first ++ others

/-- The entries of path, query and header parameters, whose turns follow one another. -/
def allEntries (scope : Scope) (path query header : List Param) : Build (List RequestParameter) := do
  let fromPath ← scope.entriesAll .path path.zipIdx
  let fromQuery ← scope.entriesAll .query (query.zipIdx path.length)
  let fromHeader ← scope.entriesAll .header (header.zipIdx (path.length + query.length))
  return fromPath ++ fromQuery ++ fromHeader

end Scope

end RouteDoc
