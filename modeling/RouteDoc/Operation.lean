import RouteDoc.Content
import RouteDoc.Method
import RouteDoc.RequestParameter
import RouteDoc.Responses
import RouteDoc.Route

/-!
# Operations

The description of one route: its tags, its parameters, its responses, and its body where it has one.

* `Scope.operation` — the description of a route, with all types it refers to registered;
* `Operation.toValue` — how it is written.
-/

namespace RouteDoc

/-- The body of a request. -/
structure RequestBody where
  required : Bool
  content : List (String × Value)
  deriving Repr, Inhabited

/-- The description of a route. -/
structure Operation where
  tags : List String
  parameters : List RequestParameter
  responses : Responses
  body : Option RequestBody
  deriving Repr, Inhabited

/-- A body as written. -/
def RequestBody.toValue (b : RequestBody) : Value :=
  .object [("required", .bool b.required), ("content", .object b.content)]

/-- A description as written. -/
def Operation.toValue (o : Operation) : Value :=
  .object <|
    [("tags", .list (o.tags.map Value.str)), ("parameters", .list (o.parameters.map RequestParameter.toValue)),
      ("responses", o.responses.toValue)]
      ++ (o.body.map fun b => ("requestBody", b.toValue)).toList

namespace Scope

/-- Registers the structured payloads of body parameters, one after another. -/
def convertBodies (scope : Scope) : List Param → Build Unit
  | [] => return ()
  | p :: rest => do
    let payload := Content.payload scope.types p
    if scope.types.isStruct payload then scope.convert payload.unwrap
    scope.convertBodies rest

/-- The body of a route with the given content: always there for some methods, and otherwise when something is sent.
It is required as soon as one of its parameters is. -/
def requestBody (route : Route) (content : List (String × Value)) : Option RequestBody :=
  if Method.hasBody (Method.normalize route.method) || !route.bodyParams.isEmpty then
    some ⟨route.bodyParams.any (·.required), content⟩
  else none

/-- The description of a route under the given tags, with all types it refers to registered. -/
def operation (scope : Scope) (route : Route) (tags : List String) : Build Operation := do
  scope.convertBodies route.bodyParams
  let parameters ← scope.allEntries route.pathParams route.queryParams route.headerParams
  let content ← (Content.content scope.types route.bodyParams : Except Failure (List (String × Value)))
  let responses ← scope.responses route.returnTypes
  return ⟨tags, parameters, responses, requestBody route content⟩

end Scope

end RouteDoc
