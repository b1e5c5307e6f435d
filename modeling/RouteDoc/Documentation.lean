import RouteDoc.Merge
import RouteDoc.Operation
import RouteDoc.Settings

/-!
# Documentations

The document of one application while its routes are registered.  Routes are documented one after another;
overrides may be merged in between; once the document is finalized it does not change any more.

* `TagTable` — the tags given to the methods of each path;
* `Documentation.tag`, `Documentation.tagsFor` — the tags of paths and methods, the latest call first;
* `Documentation.register`, `Documentation.registerHandler` — documents a route;
* `Documentation.mergeInto`, `Documentation.mergeRoute` — applies an override;
* `Documentation.finalize` — the document, which stays as it is from then on.

Every step also leaves a documentation when it fails.  What was changed up to the failure stays changed.
-/

namespace RouteDoc

/-- Tags given to some methods of a path. -/
structure TagEntry where
  methods : List String
  tags : List String
  deriving DecidableEq, Repr, Inhabited

/-- The tags given so far: each path with its entries, the earliest first. -/
abbrev TagTable := List (String × List TagEntry)

namespace TagTable

/-- The entries of a path. -/
def entriesOf (path : String) (table : TagTable) : List TagEntry := (table.lookup path).getD []

/-- The table with a row for a path, which is empty unless it was there. -/
def openRow (path : String) (table : TagTable) : TagTable :=
  if (table.lookup path).isSome then table else table ++ [(path, [])]

/-- Adds an entry to the row of a path. -/
def add (path : String) (entry : TagEntry) (table : TagTable) : TagTable :=
  table.map fun (p, entries) => if p == path then (p, entries ++ [entry]) else (p, entries)

end TagTable

/-- A documentation under way. -/
structure Documentation where
  document : Value
  registry : Registry
  tagTable : TagTable
  finalized : Bool
  /-- The notices given so far. -/
  warnings : List Warning
  deriving Repr, Inhabited

/-- A step on a documentation, which may fail and leaves a documentation in any case. -/
abbrev Edit := ExceptT Failure (StateM Documentation)

namespace Documentation

/-- The documentation without any route. -/
def new (s : Settings) : Documentation := ⟨s.document, [], [], false, []⟩

/-- Runs a step. -/
def run {α : Type} (step : Edit α) (d : Documentation) : Except Failure α × Documentation := StateT.run step d

/-- A finalized documentation admits no change. -/
def checkOpen : Edit Unit := do
  if (← get).finalized then throw .finalized

/-! ### Tags -/

/-- The text in capitals that a value is; other values lack the operation. -/
def capitals : Value → Except Failure String
  | .str s => .ok (Text.upper s)
  | v => .error (.lacks v.fullKind "upper")

/-- Several texts in capitals, from the first on. -/
def capitalsAll : List Value → Except Failure (List String)
  | [] => .ok []
  | v :: rest => do
    let s ← capitals v
    .ok (s :: (← capitalsAll rest))

/-- The entry of the tag table for a call. -/
def tagEntry (methods tags : Value) : Except Failure TagEntry := do
  let methods ← capitalsAll (← methods.items)
  let tags ← tags.items
  match Field.texts "tags" (.list tags) with
  | .ok tags => .ok ⟨methods, tags⟩
  | .error problems => .error (.invalid problems)

/-- Changes the tag table. -/
def updateTags (f : TagTable → TagTable) : Edit Unit := modify fun d => { d with tagTable := f d.tagTable }

/-- Gives tags to some methods of a path, whose row is opened before the entry is read. -/
def tag (path : String) (methods tags : Value) : Edit Unit := do
  checkOpen
  updateTags (TagTable.openRow path)
  let entry ← (tagEntry methods tags : Except Failure TagEntry)
  updateTags (TagTable.add path entry)

/-- The tags of a path and a method: those of the latest entry for both. -/
def tagsFor (d : Documentation) (path method : String) : List String :=
  (((d.tagTable.entriesOf path).reverse.find? fun e => e.methods.contains (Text.upper method)).map
    (·.tags)).getD []

/-- The first list that is not empty, or the last one. -/
def firstGiven : List (List String) → List String
  | [] => []
  | [tags] => tags
  | tags :: rest => if tags.isEmpty then firstGiven rest else tags

/-- The tags of a route: those given to its path and method, or to the method it is documented under, or
else its own. -/
def routeTags (d : Documentation) (route : Route) : List String :=
  firstGiven
    [d.tagsFor route.path route.method, d.tagsFor route.path (Method.normalize route.method), route.tags]

/-! ### Routes -/

/-- Describes a route, with its types registered and the notices kept. -/
def describe (scope : Scope) (route : Route) : Edit Operation := do
  let d ← get
  let (result, builder) := (scope.operation route (d.routeTags route)).run' ⟨d.registry, d.warnings⟩
  set { d with registry := builder.registry, warnings := builder.warnings }
  result

/-- The override that adds components to a document. -/
def componentsOverride (entries : Registry) : Value :=
  .object [("components", .object [("schemas", .object entries.toEntries)])]

/-- The override of a path that adds an operation. -/
def operationOverride (method : String) (o : Operation) : Value :=
  .object [(Method.key (Method.normalize method), o.toValue)]

/-- Applies an override to the document. -/
def mergeDocument (override : Value) : Edit Unit := do
  let document ← ((← get).document.mergeInto override : Except Failure Value)
  modify fun d => { d with document := document }

/-- Applies an override to a path of the document. -/
def mergeDocumentRoute (path : String) (override : Value) : Edit Unit := do
  match (← get).document.mergeRoute path override with
  | .ok document => modify fun d => { d with document := document }
  | .error f =>
    modify fun d => { d with document := d.document.afterFailedRoute }
    throw f

/-- Documents a route: its new types become components, and its operation an entry of its path. -/
def register (scope : Scope) (route : Route) : Edit Operation := do
  checkOpen
  let known := (← get).registry
  let operation ← describe scope route
  let added := (← get).registry.filter fun (name, _) => !known.has name
  if !added.isEmpty then mergeDocument (componentsOverride added)
  mergeDocumentRoute (PathTemplate.clean route.path) (operationOverride route.method operation)
  return operation

/-- Documents the route of a handler. -/
def registerHandler (scope : Scope) (method path : String) (handler : Signature) (tags : Option Value) :
    Edit Operation := do
  register scope (← (Route.ofHandler scope.types method path handler tags : Except Failure Route))

/-! ### Overrides -/

/-- Applies an override. -/
def mergeInto (override : Value) : Edit Unit := do
  checkOpen
  mergeDocument override

/-- Applies an override to a path. -/
def mergeRoute (path : String) (override : Value) : Edit Unit := do
  checkOpen
  mergeDocumentRoute path override

/-- The values that have a length. -/
def hasLength : Value → Bool
  | .str _ | .scalar (.bytes _) | .list _ | .set _ | .map _ => true
  | _ => false

/-- The document, which does not change any more.  The first call also counts the paths, and fails when
they cannot be counted. -/
def finalize : Edit Value := do
  let d ← get
  if !d.finalized then
    set { d with finalized := true }
    let paths := (d.document.get? "paths").getD (.map [])
    if !hasLength paths then throw (.noLength paths.fullKind)
  return d.document

end Documentation

end RouteDoc
