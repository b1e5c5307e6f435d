import RouteDoc.Param
import RouteDoc.Reference

/-!
# Fields of structured types

What a structured type consists of, whatever its kind, as a list of parameters with distinct names: the
fields of dataclasses, models, named tuples and dictionaries with fixed keys, the public annotations of
other classes followed by the parameters of their constructors.  Fields are read at a moment, at which the factories
among their defaults are asked.

* `Declarations.fieldsOf` — the fields of a type at a moment;
* `Declarations.signatureParams` — the parameters of a handler or a constructor.
-/

namespace RouteDoc

/-- Puts a pair in the place of the one with its name, or at the end. -/
def putNamed {α : Type} (name : String) (a : α) : List (String × α) → List (String × α)
  | [] => [(name, a)]
  | (n, b) :: rest => if n == name then (name, a) :: rest else (n, b) :: putNamed name a rest

/-- Puts pairs one after another. -/
def putAllNamed {α : Type} (pairs onto : List (String × α)) : List (String × α) :=
  pairs.foldl (fun out (n, a) => putNamed n a out) onto

namespace Declarations

/-- The annotations that an extractor class hands on. -/
def extractorAnnotations (e : Extractor) : List (String × TypeExpr) :=
  if e.isRequest then [("location", .builtin .str)]
  else if e.isBody then [("kind", .builtin .bodyKind)]
  else []

/-- The annotations that a class itself brings. -/
def ownAnnotations (env : Declarations) (d : Declaration) : List (String × TypeExpr) :=
  match d.kind with
  | .extractor base => ((env.extractor? base).map extractorAnnotations).getD []
  | _ => d.fields.map fun f => (f.name, f.type)

/-- The annotations that a class itself brings, with its module. -/
def moduleAnnotations (env : Declarations) (d : Declaration) : List (String × Annotation) :=
  annotated d.meaning (env.ownAnnotations d)

/-- The annotations of a class and its ancestors, the furthest first, as a model holds them; a later one changes the
type and keeps the place. -/
def gatheredAnnotations (env : Declarations) (id : String) : List (String × TypeExpr) :=
  (env.lineage id).reverse.foldl
    (fun out d => putAllNamed ((env.moduleAnnotations d).map fun (name, a) => (name, env.held a)) out) []

/-- The annotations of all ancestors in the order of resolution, repetitions included. -/
def annotationTrail (env : Declarations) (id : String) : List (String × Annotation) :=
  (env.lineage id).reverse.flatMap env.moduleAnnotations

/-- The types of a class by name: resolved, with those of its ancestors, or its own as they stand. -/
def typeHints (env : Declarations) (d : Declaration) : Except Failure (List (String × TypeExpr)) := do
  match ← env.resolveAll (env.annotationTrail d.id) with
  | some resolved => .ok (putAllNamed resolved [])
  | none => .ok (putAllNamed (env.ownAnnotations d) [])

/-! ## Handlers and constructors -/

/-- The annotated names of a signature, the result last. -/
def signatureAnnotations (parameters : List Parameter) (result : Option TypeExpr) :
    List (String × TypeExpr) :=
  (parameters.filterMap fun p => p.type.map fun t => (p.name, t))
    ++ (result.map fun t => ("return", t)).toList

/-- The types of a signature by name: all resolved, or all as they stand. -/
def signatureHints (env : Declarations) (s : Signature) : Except Failure (List (String × TypeExpr)) := do
  let types := signatureAnnotations s.parameters s.result
  .ok ((← env.resolveAll (annotated s.meaning types)).getD types)

/-- The parameters that take one argument each. -/
def signatureParams (env : Declarations) (s : Signature) : Except Failure (List Param) := do
  let hints ← env.signatureHints s
  .ok <| (s.parameters.filter fun p => p.passing != .gathered).map fun p =>
    Param.infer env p.name ((hints.lookup p.name).getD .any) p.default

/-! ## Kinds of structured types -/

/-- The fields with some defaults, unless a factory among these fails. -/
def unlessFault (m : Moment) (defaults : List Default) (ps : List Param) : Except Failure (List Param) :=
  match defaults.findSome? (Default.fault? m) with
  | some f => .error f
  | none => .ok ps

/-- Is the annotation that of an instance field of a dataclass? -/
def isInstanceType : TypeExpr → Bool
  | .qualified .classVar _ | .qualified .initVar _ => false
  | _ => true

/-- The attribute of the nearest class in a lineage that sets it. -/
def sharedAttribute? (lineage : List Declaration) (name : String) : Option Datum :=
  lineage.findSome? fun d => attribute? d name

/-- A field of a dataclass with its default: its own, or the attribute that an ancestor sets. -/
def dataclassDefault (ancestors : List Declaration) (f : FieldDecl) : Option Default :=
  f.default.or ((sharedAttribute? ancestors f.name).map .shared)

/-- The annotations of a dataclass with their types as declared and their defaults: those of its ancestors
first; a redeclared one keeps its place.  A class that only derives from dataclasses has those of the nearest.
The count bounds the depth. -/
def dataclassEntries (env : Declarations) : Nat → String → List (String × Annotation × Option Default)
  | 0, _ => []
  | fuel + 1, id =>
    match env.lineage id with
    | [] => []
    | d :: ancestors =>
      match d.kind with
      | .dataclass =>
        let inherited := ancestors.reverse.foldl
          (fun out a => putAllNamed (dataclassEntries env fuel a.id) out) []
        putAllNamed (d.fields.map fun f => (f.name, ⟨f.type, d.meaning⟩, dataclassDefault ancestors f)) inherited
      | _ =>
        match ancestors.find? fun a => match a.kind with | .dataclass => true | _ => false with
        | some nearest => dataclassEntries env fuel nearest.id
        | none => []

/-- The fields of a dataclass with their types as declared and their defaults. -/
def dataclassFields (env : Declarations) (id : String) : List (String × Annotation × Option Default) :=
  (env.dataclassEntries (env.length + 1) id).filter fun (_, a, _) => isInstanceType (env.held a)

/-- The fields of a dataclass. -/
def dataclassParams (env : Declarations) (d : Declaration) (m : Moment) : Except Failure (List Param) := do
  let hints ← env.typeHints d
  let fields := env.dataclassFields d.id
  unlessFault m (fields.filterMap fun (_, _, default) => default) <| fields.map fun (name, a, default) =>
    Param.infer env name ((hints.lookup name).getD a.type) (default.map (Default.datum m))

/-! ### Models -/

/-- Does the annotation of a model declare a field, given its default? -/
def isModelField (f : FieldDecl) : Bool :=
  !f.name.startsWith "_" && match f.type with
    | .qualified .classVar _ | .qualified .initVar _ => false
    | .qualified .final _ => f.default.isNone
    | _ => true

/-- A field with its type as a model holds it. -/
def heldField (env : Declarations) (d : Declaration) (f : FieldDecl) : FieldDecl :=
  { f with type := env.held ⟨f.type, d.meaning⟩ }

/-- The attribute that a model sees in its lineage; what models declare as fields are no attributes. -/
def modelAttribute? (env : Declarations) (id name : String) : Option Datum :=
  (env.lineage id).findSome? fun d =>
    if env.isModel d.id && d.fields.any fun f => f.name == name && isModelField (env.heldField d f) then none
    else attribute? d name

/-- A field that a model inherits the annotation of: with the attribute that it sees, or else as the field of
a base, or else without a default. -/
def inheritedField (name : String) (type : TypeExpr) (seen : Option Datum) (ofBase : Option FieldDecl) :
    FieldDecl :=
  match seen, ofBase with
  | some v, _ => { name, type, default := some (.shared v), publicName := none }
  | none, some f => f
  | none, none => { name, type, default := none, publicName := none }

/-- A field with what a model sees in place of a default that is missing. -/
def ownField (f : FieldDecl) (seen : Option Datum) : FieldDecl :=
  match f.default, seen with
  | none, some v => { f with default := some (.shared v) }
  | _, _ => f

/-- The fields of a model, those of its furthest ancestors first.  The count bounds the depth. -/
def modelFieldsWithin (env : Declarations) : Nat → String → List (String × FieldDecl)
  | 0, _ => []
  | fuel + 1, id =>
    match env.find? id with
    | none => []
    | some d =>
      let ofBases := d.bases.reverse.foldl
        (fun out b => putAllNamed (if env.isModel b then modelFieldsWithin env fuel b else []) out) []
      (env.gatheredAnnotations id).filterMap fun (name, type) =>
        let seen := modelAttribute? env id name
        let field := match d.fields.find? fun f => f.name == name with
          | some f => ownField (env.heldField d f) seen
          | none => inheritedField name type seen (ofBases.lookup name)
        if isModelField { field with type := type } then some (name, field) else none

/-- The fields of a model. -/
def modelFields (env : Declarations) (id : String) : List (String × FieldDecl) :=
  env.modelFieldsWithin (env.length + 1) id

/-- The name under which a model shows a field. -/
def publicName (f : FieldDecl) : String :=
  match f.publicName with
  | some n => if n.isEmpty then f.name else n
  | none => f.name

/-- A type without the qualifiers that a model field may bear. -/
def bareFieldType : TypeExpr → TypeExpr
  | .wrapped .annotated inner => bareFieldType inner
  | .qualified .final inner => bareFieldType inner
  | t => t

/-- The fields of a model: required unless they have a default. -/
def modelParams (env : Declarations) (d : Declaration) (m : Moment) : Except Failure (List Param) :=
  unlessFault m ((env.modelFields d.id).filterMap fun (_, f) => f.default) <| (env.modelFields d.id).map fun (_, f) =>
    { name := publicName f
      type := bareFieldType f.type
      required := f.default.isNone
      hasDefault := f.default.isSome
      default := (f.default.map (Default.datum m)).getD .null }

/-! ### Other kinds -/

/-- The wrappers around a type, the outermost first. -/
def wrappersOf : TypeExpr → List Wrapper
  | .wrapped w inner => w :: wrappersOf inner
  | _ => []

/-- Is a key required, by its wrappers or else by the kind of its mapping? -/
def keyRequirement (total : Bool) (t : TypeExpr) : Bool :=
  let wrappers := wrappersOf t
  wrappers.contains .required || (total && !wrappers.contains .notRequired)

/-- The keys of a dictionary type with their types and whether each is required, those of the bases
first.  The count bounds the depth. -/
def dictKeys (env : Declarations) : Nat → String → List (String × Annotation × Bool)
  | 0, _ => []
  | fuel + 1, id =>
    match env.find? id with
    | none => []
    | some d =>
      let inherited := d.bases.foldl (fun out b => putAllNamed (dictKeys env fuel b) out) []
      let total := match d.kind with
        | .typedDict total => total
        | _ => true
      putAllNamed (d.fields.map fun f => (f.name, ⟨f.type, d.meaning⟩, keyRequirement total f.type)) inherited

/-- The fields of a dictionary type: required as declared. -/
def dictParams (env : Declarations) (d : Declaration) : Except Failure (List Param) := do
  let keys := env.dictKeys (env.length + 1) d.id
  let annotations := keys.map fun (name, a, _) => (name, a)
  let hints := (← env.resolveAll annotations).getD (rawTypes annotations)
  .ok <| keys.map fun (name, a, required) =>
    { name
      type := (hints.lookup name).getD a.type
      required
      hasDefault := false
      default := .null }

/-- The fields of a class that is the given named tuple, or derives from it. -/
def tupleParams (env : Declarations) (d tuple : Declaration) : Except Failure (List Param) := do
  let hints ← env.typeHints d
  .ok <| tuple.fields.map fun f =>
    Param.infer env f.name ((hints.lookup f.name).getD .any) (f.default.bind Default.attribute?)

/-- Is the annotation that of an attribute shown by a class: public, and no class variable? -/
def isShown (name : String) (t : TypeExpr) : Bool :=
  !name.startsWith "_" && match t with
    | .qualified .classVar _ => false
    | _ => true

/-- The fields of any other class: its public annotations with the attributes the class itself sets,
then the parameters of its own constructor. -/
def classParams (env : Declarations) (d : Declaration) : Except Failure (List Param) := do
  let hints ← env.typeHints d
  let attributes := (hints.filter fun (name, t) => isShown name t).map fun (name, t) =>
    Param.infer env name t (attribute? d name)
  match d.kind with
  | .plain (some constructor) => do
    .ok (attributes ++ (← env.signatureParams ⟨constructor, none, d.meaning⟩))
  | _ => .ok attributes

/-- The attribute of a bare extractor. -/
def bareExtractorParams (env : Declarations) (e : Extractor) : List Param :=
  if e.isRequest then [Param.infer env "location" (.builtin .str) (some (.str e.location))]
  else if e.isBody then
    [Param.infer env "kind" (.builtin .bodyKind) (some e.bodyKind.datum)]
  else []

/-- The fields of a declared type, repetitions included. -/
def declaredParams (env : Declarations) (d : Declaration) (m : Moment) : Except Failure (List Param) :=
  if env.isModel d.id then env.modelParams d m
  else if env.isDataclass d.id then env.dataclassParams d m
  else if env.isTypedDict d.id then env.dictParams d
  else match env.namedTuple? d.id, d.kind with
    | some tuple, _ => env.tupleParams d tuple
    | none, .enumeration _ _ => .ok []
    | none, _ => env.classParams d

/-- The fields of a type at a moment, with distinct names; a type that is no class has none. -/
def fieldsOf (env : Declarations) (t : TypeExpr) (m : Moment := .gathering 0 0) : Except Failure (List Param) := do
  match t with
  | .declared id =>
    match env.find? id with
    | some d => .ok (Param.distinct (← env.declaredParams d m))
    | none => .ok []
  | .extractor e none => .ok (env.bareExtractorParams e)
  | _ => .ok []

end Declarations

end RouteDoc
