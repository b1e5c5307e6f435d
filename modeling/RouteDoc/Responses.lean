import RouteDoc.Registry

/-!
# Responses

What a route answers: a success, described by the distinct schemas of its result types, and a server
error.  Unions among the result types count as their members without null.

* `Responses.concreteTypes` — the result types with unions resolved;
* `Scope.responses` — the responses of a route.
-/

namespace RouteDoc

/-- The responses of a route, by the distinct schemas of its success. -/
structure Responses where
  schemas : List Schema
  deriving Repr, Inhabited

namespace Responses

/-- The result types, each union replaced by its members other than null. -/
def concreteTypes (results : List TypeExpr) : List TypeExpr :=
  results.flatMap fun t =>
    match t.members? with
    | some (_, members) => members
    | none => [t]

/-- Adds a schema unless an equal one is there. -/
def insertNew (out : List Schema) (s : Schema) : List Schema :=
  if out.any fun other => other.same s then out else out ++ [s]

/-- The schemas without later repetitions. -/
def distinct (schemas : List Schema) : List Schema := schemas.foldl insertNew []

/-- The one schema of a success, or a choice between several. -/
def schemaValue? : List Schema → Option Value
  | [] => none
  | [s] => some s.toValue
  | several => some (.object [("anyOf", .list (several.map Schema.toValue))])

/-- The content of a success. -/
def contentMembers (schemas : List Schema) : List (String × Value) :=
  ((schemaValue? schemas).map fun schema =>
    ("content", Value.object [("application/json", .object [("schema", schema)])])).toList

/-- The responses as written. -/
def toValue (r : Responses) : Value :=
  .object
    [("200", .object ([("description", .str "200 response")] ++ contentMembers r.schemas)),
      ("500", .object [("description", .str "500 Server encountered a problem")])]

end Responses

namespace Scope

/-- The schemas of those types that can be described, in order. -/
def schemasOf (scope : Scope) : List TypeExpr → Build (List Schema)
  | [] => return []
  | t :: rest => do
    let first ← scope.build t
    let others ← scope.schemasOf rest
    return first.toList ++ others

/-- The responses of a route with the given result types. -/
def responses (scope : Scope) (results : List TypeExpr) : Build Responses := do
  return ⟨Responses.distinct (← scope.schemasOf (Responses.concreteTypes results))⟩

end Scope

end RouteDoc
