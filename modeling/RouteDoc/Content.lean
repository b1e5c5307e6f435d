import RouteDoc.Param
import RouteDoc.Schema

/-!
# Request bodies

Which encodings a request body is accepted in.  The structured body parameters of one family are combined,
JSON first, then plain text, then forms; XML and file upload are always accepted.

* `Content.encodings` — the combined encodings of a list of body parameters;
* `Content.entries` — the whole content map, in order;
* `Content.content` — the content map, unless what stands for an encoding cannot be a key.
-/

namespace RouteDoc

/-- The media type of a family of encodings. -/
def BodyKind.mediaType : BodyKind → String
  | json => "application/json"
  | text => "text/plain"
  | form => "application/x-www-form-urlencoded"

/-- The families of encodings, the preferred ones first. -/
def BodyKind.preferred : List BodyKind := [json, text, form]

/-- One family of encodings of a body: the components that are combined and the type of the whole. -/
structure Encoding where
  kind : BodyKind
  components : List String
  word : TypeWord
  deriving Repr, Inhabited

namespace Content

/-- The payload of a body parameter. -/
def payload (types : Declarations) (p : Param) : TypeExpr := (types.extractType p.type).stripOptional

/-- The body parameters of one family. -/
def ofKind (types : Declarations) (kind : BodyKind) (ps : List Param) : List Param :=
  ps.filter fun p => (types.bodyKind p.type).toOption == some kind

/-- The components of the structured parameters among those given, in order. -/
def components (types : Declarations) (ps : List Param) : List String :=
  ((ps.map (payload types)).filter types.isStruct).map types.typeName

/-- The type of a combined body.  Plain text is what its only parameter is; several can only be described
together as a text. -/
def wordOf (types : Declarations) (kind : BodyKind) (ps : List Param) : TypeWord :=
  match kind, ps with
  | .text, [p] => types.typeNameOf (payload types p)
  | .text, _ => .string
  | _, _ => .object

/-- The encodings in which some structured parameter is sent. -/
def encodings (types : Declarations) (ps : List Param) : List Encoding :=
  (BodyKind.preferred.map fun kind =>
    let own := ofKind types kind ps
    { kind, components := components types own, word := wordOf types kind own }).filter
      fun e => !e.components.isEmpty

/-- An encoding as written. -/
def encodingValue (e : Encoding) : Value :=
  .object
    [("allOf", .list (e.components.map fun name => .object [("$ref", .str (componentPlace name))])),
      ("type", .str e.word.name)]

/-- The media type under which a schema is accepted. -/
def mediaEntry (mediaType : String) (schema : Value) : String × Value :=
  (mediaType, .object [("schema", schema)])

/-- The encodings that are always accepted: XML and the upload of a file. -/
def always : List (String × Value) :=
  [mediaEntry "application/xml" (.object [("type", .str "object")]),
    mediaEntry "multipart/form-data" (.object
      [("type", .str "object"),
        ("properties", .object
          [("file", .object [("type", .str "string"), ("format", .str "binary")])]),
        ("required", .list [.str "file"])])]

/-- The content map of a request body, in order. -/
def entries (types : Declarations) (ps : List Param) : List (String × Value) :=
  ((encodings types ps).map fun e => mediaEntry e.kind.mediaType (encodingValue e)) ++ always

/-- The kind of what a parameter has in the place of its encoding, if that cannot be a key. -/
def obstacle? (types : Declarations) (p : Param) : Option String :=
  match types.bodyKind p.type with
  | .ok _ => none
  | .error place => place.obstacle?

/-- The content map of a request body.  Parameters are counted by their encodings, so it fails at the first one whose
encoding cannot be a key. -/
def content (types : Declarations) (ps : List Param) : Except Failure (List (String × Value)) :=
  match ps.findSome? (obstacle? types) with
  | some kind => .error (.notAKey kind)
  | none => .ok (entries types ps)

end Content

end RouteDoc
