import RouteDoc.Description

/-!
# The registry of components

Structured types are described once and referred to by name.  A type enters the registry, under its
name, before its fields are visited, so types that refer to themselves or to each other come to an end;
its properties then follow one by one.  When a field cannot be visited at all, the registry keeps what
was entered up to there.

* `Scope.build` — the description of a type, with everything it refers to registered;
* `Scope.convert` — the component of a structured type, registered if it is not yet;
* `Registry.get?`, `Registry.names` — looking at a registry.
-/

namespace RouteDoc

/-- What stands under a name: a component built from a type, or a schema that was there before. -/
inductive Entry where
  | built (c : Component)
  | given (v : Value)
  deriving Repr, Inhabited

/-- An entry as written. -/
def Entry.toValue : Entry → Value
  | built c => c.toValue
  | given v => v

/-- The names of the properties of an entry, in order. -/
def Entry.propertyNames : Entry → List String
  | built c => c.properties.map (·.1)
  | given v => ((v.get? "properties").bind Value.entries?).elim [] fun es => es.keys.filterMap Key.text?

/-- The components by name, in order of registration. -/
abbrev Registry := List (String × Entry)

namespace Registry

/-- The entry under a name. -/
def get? (r : Registry) (name : String) : Option Entry := r.lookup name

/-- Is the name taken? -/
def has (r : Registry) (name : String) : Bool := (r.get? name).isSome

/-- The names in order. -/
def names (r : Registry) : List String := r.map (·.1)

/-- Changes the component under a name. -/
def change (name : String) (f : Component → Component) (r : Registry) : Registry :=
  r.map fun (n, e) =>
    match e with
    | .built c => if n == name then (n, .built (f c)) else (n, e)
    | .given _ => (n, e)

/-- The entries as written. -/
def toEntries (r : Registry) : List (String × Value) := r.map fun (n, e) => (n, e.toValue)

end Registry

/-- A registry under way, with the notices given so far. -/
structure Builder where
  registry : Registry
  warnings : List Warning
  deriving Repr, Inhabited

/-- A step that may fail; what was registered up to the failure stays. -/
abbrev Build := ExceptT Failure (StateM Builder)

namespace Build

/-- Gives notices. -/
def warn (ws : List Warning) : Build Unit := modify fun b => { b with warnings := b.warnings ++ ws }

/-- Changes the registry. -/
def update (f : Registry → Registry) : Build Unit := modify fun b => { b with registry := f b.registry }

/-- Is the name taken? -/
def isRegistered (name : String) : Build Bool := do return (← get).registry.has name

/-- Runs a step on a builder. -/
def run' {α : Type} (step : Build α) (b : Builder) : Except Failure α × Builder := StateT.run step b

end Build

namespace Scope

/-- The description of a type, with the structured type it refers to handed to `convert` unless its name
is taken. -/
def buildWith (scope : Scope) (convert : TypeExpr → Build Unit) (t : TypeExpr) : Build (Option Schema) := do
  let d ← (scope.describe t : Except Failure Description)
  match d.target with
  | some target =>
    if !(← Build.isRegistered (scope.types.typeName target)) then convert target
  | none => pure ()
  Build.warn d.warnings
  return d.schema

/-- The default of a field as it is documented. -/
def documentedDefault (p : Param) : Except Failure (Option Value) :=
  if p.hasDefault then p.default.toValue.map some else .ok none

/-- Adds the fields to the component under a name, one after another, and gives the names of those that
are required. -/
def addFields (scope : Scope) (convert : TypeExpr → Build Unit) (name : String) :
    List Param → Build (List String)
  | [] => return []
  | field :: rest => do
    match ← scope.buildWith convert field.type with
    | none =>
      Build.warn [.undescribedField name field.name]
      addFields scope convert name rest
    | some schema =>
      let default ← (documentedDefault field : Except Failure (Option Value))
      Build.update <| Registry.change name fun c =>
        { c with properties := c.properties ++ [(field.name, ⟨schema, default⟩)] }
      let more ← addFields scope convert name rest
      return if field.required && !schema.nullable then field.name :: more else more

/-- When the fields of a type are read for its component. -/
def moment (scope : Scope) (t : TypeExpr) : Moment := .component scope.time (scope.types.typeName t)

/-- The fields of a type for its component. -/
def fieldsOf (scope : Scope) (t : TypeExpr) : Except Failure (List Param) := scope.types.fieldsOf t (scope.moment t)

/-- Registers a type under its name and adds its fields; the count bounds the depth of types that are
under way at once. -/
def convertWithin (scope : Scope) : Nat → TypeExpr → Build Unit
  | 0, _ => return ()
  | fuel + 1, t => do
    let name := scope.types.typeName t
    if ← Build.isRegistered name then return ()
    Build.update fun r => r ++ [(name, .built .empty)]
    let fields ← (scope.fieldsOf t : Except Failure (List Param))
    let required ← scope.addFields (convertWithin scope fuel) name fields
    Build.update <| Registry.change name fun c => { c with required := required }

/-- The number of structured types that are built in. -/
def builtinStructs : Nat := 15

/-- The types that can be under way at once: every name is under way at most once. -/
def depth (scope : Scope) : Nat := scope.types.length + builtinStructs + 1

/-- Registers a structured type, with everything it refers to, unless its name is taken. -/
def convert (scope : Scope) (t : TypeExpr) : Build Unit := scope.convertWithin scope.depth t

/-- The description of a type, with everything it refers to registered. -/
def build (scope : Scope) (t : TypeExpr) : Build (Option Schema) := scope.buildWith scope.convert t

/-- Registers a structured type and gives what stands under its name. -/
def component (scope : Scope) (t : TypeExpr) : Build Value := do
  scope.convert t
  return (((← get).registry.get? (scope.types.typeName t)).map Entry.toValue).getD .null

end Scope

end RouteDoc
