import RouteDoc.Datum.Same
import RouteDoc.Field
import RouteDoc.PathTemplate
import RouteDoc.Validation

/-!
# Routes

Everything that is needed to document one handler: where it is reached, what it takes and what it gives.
A route is given as a record, which is validated, or read off the signature of its handler.

* `ParamRecord.validate`, `RouteRecord.validate` — the parameter or route that a record describes;
* `Route.ofHandler` — the route of a handler.
-/

namespace RouteDoc

/-- A route. -/
structure Route where
  path : String
  method : String
  pathParams : List Param
  queryParams : List Param
  headerParams : List Param
  bodyParams : List Param
  returnTypes : List TypeExpr
  tags : List String
  deriving Repr, Inhabited

/-! ### Records -/

/-- A parameter as given: what is absent has no value. -/
structure ParamRecord where
  name : Option Value
  type : TypeExpr
  required : Option Value
  hasDefault : Option Field.Given
  default : Datum
  deriving Repr, Inhabited

namespace ParamRecord

/-- What says whether the parameter has a default; a record that is silent denies one. -/
def givenDefault (r : ParamRecord) : Field.Given := r.hasDefault.getD (.plain (.bool false))

/-- Whether the parameter is required: as given, or inferred from the default as it was given. -/
def requirement (types : Declarations) (r : ParamRecord) : Field.Reading Bool :=
  match r.required with
  | none | some .null => .ok (types.infersRequired r.type r.givenDefault.counts)
  | some v => Field.truth "required" v

/-- The parameter that a record describes. -/
def validate (types : Declarations) (r : ParamRecord) : Except Failure Param :=
  match Field.text "name" r.name, r.requirement types,
      Field.truth "has_default" r.givenDefault.value with
  | .ok name, .ok required, .ok hasDefault => .ok ⟨name, r.type, required, hasDefault, r.default⟩
  | name, required, hasDefault =>
    .error (.invalid (Field.problems name ++ Field.problems required ++ Field.problems hasDefault))

end ParamRecord

/-- A route as given: what is absent has no value. -/
structure RouteRecord where
  path : Option Value
  method : Option Value
  pathParams : List Param
  queryParams : List Param
  headerParams : List Param
  bodyParams : List Param
  returnTypes : List TypeExpr
  tags : Option Value
  deriving Repr, Inhabited

/-- The route that a record describes. -/
def RouteRecord.validate (r : RouteRecord) : Except Failure Route :=
  match Field.text "path" r.path, Field.text "method" r.method,
      Field.texts "tags" (r.tags.getD (.list [])) with
  | .ok path, .ok method, .ok tags =>
    .ok ⟨path, method, r.pathParams, r.queryParams, r.headerParams, r.bodyParams, r.returnTypes, tags⟩
  | path, method, tags =>
    .error (.invalid (Field.problems path ++ Field.problems method ++ Field.problems tags))

/-! ### Handlers -/

/-- The parts of a request that a handler's arguments come from. -/
inductive Source where
  | path | query | header | body
  deriving DecidableEq, Repr, Inhabited

namespace Source

/-- The name of a source. -/
def name : Source → String
  | path => "path"
  | query => "query"
  | header => "header"
  | body => "body"

/-- The sources by which parameters are sorted. -/
def all : List Source := [path, query, header, body]

/-- The source that the place of an extractor names. -/
def ofPlace (place : Datum) : Except Failure Source :=
  match place.text?.bind fun text => all.find? fun source => source.name == text with
  | some source => .ok source
  | none =>
    match place.obstacle? with
    | some kind => .error (.notAKey kind)
    | none => .error (.noPlace place.display)

end Source

namespace Route

/-- Where the argument of a parameter comes from: its extractor says so, and without one it is a variable
part of the path, or else part of the query. -/
def sourceOf (types : Declarations) (placeholders : List String) (p : Param) : Except Failure Source :=
  if types.isBodyExtractor p.type then .ok .body
  else match types.location? p.type with
    | some place => Source.ofPlace place
    | none => .ok (if placeholders.contains p.name then .path else .query)

/-- The parameters with their sources, in order. -/
def locate (types : Declarations) (placeholders : List String) :
    List Param → Except Failure (List (Source × Param))
  | [] => .ok []
  | p :: rest => do
    let source ← sourceOf types placeholders p
    .ok ((source, p) :: (← locate types placeholders rest))

/-- The parameters of one source. -/
def paramsFrom (source : Source) (located : List (Source × Param)) : List Param :=
  (located.filter fun (s, _) => s == source).map (·.2)

/-- The route of a handler. -/
def ofHandler (types : Declarations) (method path : String) (handler : Signature) (tags : Option Value) :
    Except Failure Route := do
  let hints ← types.signatureHints handler
  let params ← types.signatureParams handler
  let located ← locate types (PathTemplate.placeholders path) params
  RouteRecord.validate
    { path := some (.str path)
      method := some (.str method)
      pathParams := paramsFrom .path located
      queryParams := paramsFrom .query located
      headerParams := paramsFrom .header located
      bodyParams := paramsFrom .body located
      returnTypes := (hints.lookup "return").toList
      tags := tags.filter Value.isTruthy }

end Route

end RouteDoc
