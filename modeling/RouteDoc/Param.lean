import RouteDoc.Classification
import RouteDoc.Datum.Same

/-!
# Parameters

A parameter of a handler or a field of a structured type, as a route hands it on: a name, a type,
whether it must be given, and its default.  Without an explicit word, a parameter is required unless it
has a default or its type, seen through an extractor, is nullable.
-/

namespace RouteDoc

/-- A typed parameter or field. -/
structure Param where
  name : String
  type : TypeExpr
  required : Bool
  hasDefault : Bool
  default : Datum
  deriving Repr, Inhabited

namespace Declarations

/-- The type inside an extractor; other types as they are. -/
def extractType (env : Declarations) (t : TypeExpr) : TypeExpr :=
  if (env.extractor? t).isNone then t
  else (t.arguments.head?).getD .any

@[simp] theorem extractType_extractor (env : Declarations) (e : Extractor) (t : TypeExpr) :
    env.extractType (.extractor e (some t)) = t := by
  rw [extractType, extractor?_extractor]
  rfl

@[simp] theorem extractType_bare (env : Declarations) (e : Extractor) :
    env.extractType (.extractor e none) = .any := by
  unfold extractType
  rw [extractor?_extractor]
  rfl

/-- Is a parameter of the type required when nothing is said? -/
def infersRequired (env : Declarations) (t : TypeExpr) (hasDefault : Bool) : Bool :=
  !hasDefault && !(env.extractType t).isNullable

end Declarations

namespace Param

/-- A parameter whose being required is inferred. -/
def infer (env : Declarations) (name : String) (type : TypeExpr) (default : Option Datum) : Param :=
  { name, type
    required := env.infersRequired type default.isSome
    hasDefault := default.isSome
    default := default.getD .null }

/-- Puts a parameter in the place of the one with its name, or at the end. -/
def insert (p : Param) : List Param → List Param
  | [] => [p]
  | q :: rest => if q.name == p.name then p :: rest else q :: insert p rest

/-- A list with distinct names: each name at its first place, with its last declaration. -/
def distinct (ps : List Param) : List Param := ps.foldl (fun out p => insert p out) []

end Param

/-! ## Extractors -/

/-- The families of body encodings. -/
inductive BodyKind where
  | json | text | form
  deriving DecidableEq, Repr, Inhabited

/-- The name of a family of encodings. -/
def BodyKind.name : BodyKind → String
  | json => "json"
  | text => "text"
  | form => "form"

/-- The constant that names a family of encodings. -/
def BodyKind.constant : BodyKind → String
  | json => "JSON"
  | text => "TEXT"
  | form => "FORM"

/-- The constant itself. -/
def BodyKind.datum (kind : BodyKind) : Datum := .member "" "BodyKind" kind.constant .plain (.str kind.name)

/-- The family of encodings that a value is, or the value. -/
def BodyKind.ofDatum (d : Datum) : Except Datum BodyKind :=
  match [json, text, form].find? fun kind => d.same kind.datum with
  | some kind => .ok kind
  | none => .error d

namespace Extractor

/-- The place that a request extractor reads from; the general one names none. -/
def location : Extractor → String
  | path => "path"
  | query => "query"
  | header => "header"
  | _ => ""

/-- The encoding that a body extractor reads. -/
def bodyKind : Extractor → BodyKind
  | body => .text
  | form => .form
  | _ => .json

/-- The place that an extractor sets: only those of request parameters do. -/
def ownLocation? (e : Extractor) : Option String := if e.isRequest then some e.location else none

/-- The encoding that an extractor sets: only those of request bodies do. -/
def ownKind? (e : Extractor) : Option BodyKind := if e.isBody then some e.bodyKind else none

end Extractor

namespace Declarations

/-- Is the type, as it stands, an extractor? -/
def isExtractor (env : Declarations) (t : TypeExpr) : Bool := (env.extractor? t).isSome

/-- Is the type an extractor of request parameters? -/
def isRequestParam (env : Declarations) (t : TypeExpr) : Bool := (env.extractors t).any Extractor.isRequest

/-- Is the type an extractor of request bodies? -/
def isBodyExtractor (env : Declarations) (t : TypeExpr) : Bool := (env.extractors t).any Extractor.isBody

@[simp] theorem isRequestParam_extractor (env : Declarations) (e : Extractor) (arg : Option TypeExpr) :
    env.isRequestParam (.extractor e arg) = e.isRequest := by cases e <;> rfl

@[simp] theorem isBodyExtractor_extractor (env : Declarations) (e : Extractor) (arg : Option TypeExpr) :
    env.isBodyExtractor (.extractor e arg) = e.isBody := by cases e <;> rfl

/-- The place a request extractor reads from, as the nearest class says. -/
def location? (env : Declarations) (t : TypeExpr) : Option Datum :=
  if env.isRequestParam t then
    match env.extractorAttribute "location" id (fun e => e.ownLocation?.map Datum.str) t with
    | some .null => none
    | found => found
  else none

/-- The encoding of a body parameter, as the nearest class says, or what stands in its place; what is no body
extractor counts as JSON. -/
def bodyKind (env : Declarations) (t : TypeExpr) : Except Datum BodyKind :=
  if env.isBodyExtractor t then
    (env.extractorAttribute "kind" BodyKind.ofDatum (fun e => e.ownKind?.map Except.ok) t).getD (.ok .json)
  else .ok .json

end Declarations

end RouteDoc
