import RouteDoc.Failure
import RouteDoc.TypeExpr

/-!
# Declared types

The structured types and enumerations of a program: what each declares, and the order in which a class
and its ancestors are searched.

* `Declarations.ancestry` — a class followed by its declared ancestors, every class before its bases;
* `Declarations.resolution` — a class followed by all its ancestors, built-in ones among them;
* `Declarations.enumeration?` — the members of a class that is an enumeration or derives from one;
* `Declarations.extractors` — the extractors that a type is or derives from, in the order of resolution;
* `Declarations.extractor?` — the extractor that decides how a type is read;
* `Declarations.typeName` — the name under which a type is registered.
-/

namespace RouteDoc

/-- When the fields of a type are read: for the creation of an instance, for its component, or for a parameter of a
route that gathers them.  Calls are told apart by their time.  A call makes one component of a name at most, and its
parameters have turns. -/
inductive Moment where
  | creation
  | component (time : Nat) (name : String)
  | gathering (time turn : Nat)
  deriving DecidableEq, Repr, Inhabited

/-- Where a field's default comes from: a value of the class, or a factory, which is asked each time that the fields
are read, and gives a value or fails. -/
inductive Default where
  | shared (d : Datum)
  | made (give : Moment → Except Failure Datum)
  deriving Inhabited

namespace Default

/-- The factory that always gives the same. -/
def fresh (d : Datum) : Default := made fun _ => .ok d

/-- The attribute of the class that a default is, if it is one. -/
def attribute? : Default → Option Datum
  | shared d => some d
  | made _ => none

/-- What a default is at a moment, if there is one. -/
def give (m : Moment) : Default → Except Failure Datum
  | shared d => .ok d
  | made give => give m

/-- The default at a moment; null where there is none. -/
def datum (m : Moment) (d : Default) : Datum := (d.give m).toOption.getD .null

/-- The failure of a factory. -/
def fault? (m : Moment) (d : Default) : Option Failure :=
  match d.give m with
  | .ok _ => none
  | .error f => some f

end Default

/-- Why a reference is not resolved. -/
inductive Unresolved where
  /-- It names nothing, or what it names is no type. -/
  | unknownName
  /-- Reading the text fails in another way. -/
  | raised (f : Failure)
  deriving DecidableEq, Repr

/-- What a module makes of the texts of references: the type that a text stands for, or why there is none. -/
abbrev Globals := String → Except Unresolved TypeExpr

/-- A field as a class declares it. -/
structure FieldDecl where
  name : String
  type : TypeExpr
  default : Option Default
  publicName : Option String
  deriving Inhabited

/-- How an argument is handed to a parameter. -/
inductive Passing where
  | positional
  | keyword
  /-- All further arguments at once. -/
  | gathered
  deriving DecidableEq, Repr, Inhabited

/-- A parameter of a handler or a constructor. -/
structure Parameter where
  name : String
  type : Option TypeExpr
  default : Option Datum
  passing : Passing
  deriving Repr, Inhabited

/-- The parameters and the result type of a handler, and what its module makes of texts; without a word on that, texts
name declared and built-in types. -/
structure Signature where
  parameters : List Parameter
  result : Option TypeExpr
  meaning : Option Globals := none
  deriving Inhabited

/-- What a declared type is. -/
inductive Kind where
  | dataclass
  | model
  | namedTuple
  /-- A mapping with fixed keys, which are required unless `total` is false. -/
  | typedDict (total : Bool)
  /-- A class with annotated attributes and, possibly, a constructor of its own. -/
  | plain (constructor : Option (List Parameter))
  | enumeration (base : EnumBase) (members : List (String × Datum))
  /-- A class without a body over another one, which may be built in. -/
  | derived (base : TypeExpr)
  /-- A class without a body over an extractor. -/
  | extractor (base : TypeExpr)
  deriving Repr, Inhabited

/-- A declared type, with what its module makes of texts; without a word on that, texts name declared and built-in
types. -/
structure Declaration where
  id : String
  name : String
  kind : Kind
  fields : List FieldDecl
  bases : List String
  meaning : Option Globals := none
  deriving Inhabited

/-- The declared types of a program. -/
abbrev Declarations := List Declaration

namespace Extractor

/-- The extractors of request parameters. -/
def isRequest : Extractor → Bool
  | path | query | header | requestParam => true
  | _ => false

/-- The extractors of request bodies. -/
def isBody : Extractor → Bool
  | json | jsonFragment | body | form | bodyExtractor => true
  | _ => false

/-- An extractor before those that it derives from. -/
def ancestry : Extractor → List Extractor
  | path => [path, requestParam, extractor]
  | query => [query, requestParam, extractor]
  | header => [header, requestParam, extractor]
  | requestParam => [requestParam, extractor]
  | json => [json, bodyExtractor, extractor]
  | jsonFragment => [jsonFragment, bodyExtractor, extractor]
  | body => [body, bodyExtractor, extractor]
  | form => [form, bodyExtractor, extractor]
  | bodyExtractor => [bodyExtractor, extractor]
  | extractor => [extractor]

end Extractor

/-- A built-in class before those that it derives from. -/
def Builtin.ancestry : Builtin → List Builtin
  | .bool => [.bool, .int]
  | .dateTime => [.dateTime, .date]
  | .intEnum => [.intEnum, .int, .enum]
  | .bodyKind => [.bodyKind, .enum]
  | b => [b]

/-- A container before those that it derives from. -/
def Container.ancestry : Container → List Container
  | .orderedDict => [.orderedDict, .dict]
  | .defaultdict => [.defaultdict, .dict]
  | .counter => [.counter, .dict]
  | c => [c]

/-- A class as it stands among the ancestors of another one. -/
inductive Ancestor where
  | declared (id : String)
  | extractor (e : Extractor)
  | builtin (b : Builtin)
  | container (c : Container)
  deriving DecidableEq, Repr

namespace Ancestor

/-- The extractor that a class is. -/
def extractor? : Ancestor → Option Extractor
  | extractor e => some e
  | _ => none

/-- The declared class that a class is, by its identifier. -/
def declared? : Ancestor → Option String
  | declared id => some id
  | _ => none

end Ancestor

/-- The class that a type is, or that it gives arguments to. -/
def TypeExpr.origin? : TypeExpr → Option Ancestor
  | .declared id | .container (.declared id) _ _ => some (.declared id)
  | .container c _ _ => some (.container c)
  | .extractor e _ => some (.extractor e)
  | .builtin b => some (.builtin b)
  | _ => none

namespace Declarations

/-- The declaration with an identifier. -/
def find? (env : Declarations) (id : String) : Option Declaration :=
  List.find? (fun d => d.id == id) env

/-- The kind of a declared type. -/
def kind? (env : Declarations) (id : String) : Option Kind := (env.find? id).map (·.kind)

/-- The first head of the lists that stands in no tail. -/
def firstFree {α : Type} [BEq α] (lists : List (List α)) : Option α :=
  (lists.filterMap List.head?).find? fun h => lists.all fun l => !l.tail.contains h

/-- Merges orders that agree: repeatedly takes the first head that stands in no tail. -/
def mergeOrders {α : Type} [BEq α] : Nat → List (List α) → List α
  | 0, _ => []
  | fuel + 1, lists =>
    match firstFree lists with
    | none => []
    | some h =>
      h :: mergeOrders fuel ((lists.map fun l => if l.head? == some h then l.tail else l).filter (!·.isEmpty))

/-- The classes that a class derives from, as it names them. -/
def parents (d : Declaration) : List Ancestor :=
  match d.kind with
  | .derived base | .extractor base => base.origin?.toList ++ d.bases.map .declared
  | _ => d.bases.map .declared

/-- The declared classes that a class derives from. -/
def declaredBases (d : Declaration) : List String := (parents d).filterMap Ancestor.declared?

/-- A class before its ancestors, every class before its bases and the bases in their order; the count
bounds the depth. -/
def ancestryWithin (env : Declarations) : Nat → String → List String
  | 0, id => [id]
  | fuel + 1, id =>
    match env.find? id with
    | none => [id]
    | some d =>
      id :: mergeOrders (env.length * env.length + 1)
        (((declaredBases d).map (ancestryWithin env fuel) ++ [declaredBases d]).filter (!·.isEmpty))

/-- A class followed by its declared ancestors, nearest first. -/
def ancestry (env : Declarations) (id : String) : List String := env.ancestryWithin env.length id

/-- The declarations of a class and its ancestors, nearest first. -/
def lineage (env : Declarations) (id : String) : List Declaration :=
  (env.ancestry id).filterMap env.find?

/-- Is the class, or one of its ancestors, of the given sort? -/
def inherits (env : Declarations) (id : String) (p : Kind → Bool) : Bool :=
  (env.lineage id).any fun d => p d.kind

/-- The attribute that the class itself sets. -/
def attribute? (d : Declaration) (name : String) : Option Datum :=
  (d.fields.find? fun f => f.name == name).bind fun f => f.default.bind Default.attribute?

/-- Is the class, or one of its ancestors, a model? -/
def isModel (env : Declarations) (id : String) : Bool :=
  env.inherits id fun | .model | .derived (.builtin .baseModel) => true | _ => false

/-- Is the class, or one of its ancestors, a dataclass? -/
def isDataclass (env : Declarations) (id : String) : Bool :=
  env.inherits id fun | .dataclass => true | _ => false

/-- Is the class, or one of its ancestors, a mapping with fixed keys? -/
def isTypedDict (env : Declarations) (id : String) : Bool :=
  env.inherits id fun | .typedDict _ => true | _ => false

/-- The named tuple that a class is, or derives from. -/
def namedTuple? (env : Declarations) (id : String) : Option Declaration :=
  (env.lineage id).find? fun d => match d.kind with
    | .namedTuple => true
    | _ => false

/-- Does the class have fields that are declared as such, be they those of a dataclass, of a model, of a mapping with
fixed keys or of a named tuple? -/
def isStructured (env : Declarations) (id : String) : Bool :=
  env.isModel id || env.isDataclass id || env.isTypedDict id || (env.namedTuple? id).isSome

/-! ### The order of resolution -/

/-- A class before its ancestors, built-in ones among them, every class before its bases and the bases in their
order.  The count bounds the depth. -/
def resolutionWithin (env : Declarations) : Nat → Ancestor → List Ancestor
  | _, .extractor e => e.ancestry.map .extractor
  | _, .builtin b => b.ancestry.map .builtin
  | _, .container c => c.ancestry.map .container
  | 0, .declared id => [.declared id]
  | fuel + 1, .declared id =>
    match env.find? id with
    | none => [.declared id]
    | some d =>
      let orders := (parents d).map (resolutionWithin env fuel)
      .declared id :: mergeOrders (orders.flatten.length + 1)
        ((orders ++ [orders.filterMap List.head?]).filter (!·.isEmpty))

/-- The classes in which an attribute of a type, as it stands, is looked up, nearest first. -/
def resolution (env : Declarations) (t : TypeExpr) : List Ancestor :=
  (t.origin?.map (env.resolutionWithin (env.length + 1))).getD []

/-! ### Enumerations -/

/-- The values that a class among the ancestors of an enumeration has its members made of. -/
def enumBaseOf? (env : Declarations) : Ancestor → Option EnumBase
  | .declared id =>
    match env.kind? id with
    | some (.enumeration base _) => some base
    | _ => none
  | .builtin .intEnum => some .integer
  | .builtin .enum => some .plain
  | _ => none

/-- What the members of a class are made of, if it is an enumeration or derives from one: what the nearest says. -/
def enumBase? (env : Declarations) (id : String) : Option EnumBase :=
  (env.resolution (.declared id)).findSome? env.enumBaseOf?

/-- The members that a class brings as an enumeration; one that only derives from an enumeration has its attributes
as members. -/
def membersOf (d : Declaration) : List (String × Datum) :=
  match d.kind with
  | .enumeration _ members => members
  | _ => d.fields.filterMap fun f => (f.default.bind Default.attribute?).map fun v => (f.name, v)

/-- The members of a class that is an enumeration or derives from one, and what they are made of. -/
def enumeration? (env : Declarations) (id : String) : Option (EnumBase × List (String × Datum)) :=
  (env.enumBase? id).map fun base => (base, ((env.find? id).map membersOf).getD [])

/-! ### Extractor classes -/

/-- The extractors that a type, as it stands, is or derives from, nearest first. -/
def extractors (env : Declarations) (t : TypeExpr) : List Extractor :=
  (env.resolution t).filterMap Ancestor.extractor?

/-- The extractor that decides how a type, as it stands, is read: the nearest one of request bodies if there is one,
and else the nearest. -/
def extractor? (env : Declarations) (t : TypeExpr) : Option Extractor :=
  ((env.extractors t).find? Extractor.isBody).or (env.extractors t).head?

@[simp] theorem extractor?_extractor (env : Declarations) (e : Extractor) (arg : Option TypeExpr) :
    env.extractor? (.extractor e arg) = some e := by cases e <;> rfl

/-- The attribute of an extractor class: what the nearest class sets, be it declared or one of the extractors. -/
def extractorAttribute {α : Type} (env : Declarations) (name : String) (ofDatum : Datum → α)
    (ofExtractor : Extractor → Option α) (t : TypeExpr) : Option α :=
  (env.resolution t).findSome? fun
    | .declared id => ((env.find? id).bind fun d => attribute? d name).map ofDatum
    | .extractor e => ofExtractor e
    | .builtin _ | .container _ => none

end Declarations

/-- The class names of the built-in types. -/
def Builtin.className : Builtin → String
  | .bool => "bool"
  | .int => "int"
  | .float => "float"
  | .str => "str"
  | .bytes => "bytes"
  | .bytearray => "bytearray"
  | .complex => "complex"
  | .object => "object"
  | .decimal => "Decimal"
  | .date => "date"
  | .dateTime => "datetime"
  | .time => "time"
  | .timedelta => "timedelta"
  | .uuid => "UUID"
  | .filePath => "Path"
  | .ipv4Address => "IPv4Address"
  | .fraction => "Fraction"
  | .enum => "Enum"
  | .intEnum => "IntEnum"
  | .baseModel => "BaseModel"
  | .hashable => "Hashable"
  | .missing => "Missing"
  | .bodyKind => "BodyKind"

/-- The class names of the containers. -/
def Container.className : Container → String
  | .list => "list"
  | .set => "set"
  | .frozenset => "frozenset"
  | .tuple => "tuple"
  | .deque => "deque"
  | .sequence => "Sequence"
  | .mutableSequence => "MutableSequence"
  | .abstractSet => "Set"
  | .mutableSet => "MutableSet"
  | .iterable => "Iterable"
  | .collection => "Collection"
  | .iterator => "Iterator"
  | .dict => "dict"
  | .orderedDict => "OrderedDict"
  | .defaultdict => "defaultdict"
  | .counter => "Counter"
  | .mapping => "Mapping"
  | .mutableMapping => "MutableMapping"
  | .type => "type"
  | .declared id => "@" ++ id

/-- The class names of the extractors. -/
def Extractor.className : Extractor → String
  | .path => "Path"
  | .query => "Query"
  | .header => "Header"
  | .json => "Json"
  | .jsonFragment => "JsonFragment"
  | .body => "Body"
  | .form => "Form"
  | .extractor => "Extractor"
  | .requestParam => "RequestParam"
  | .bodyExtractor => "BodyExtractor"

/-- The name of a type below its wrappers and aliases; declared types are named by their declaration. -/
def Declarations.typeName (env : Declarations) (t : TypeExpr) : String :=
  match t.unwrap with
  | .declared id | .container (.declared id) _ _ => ((env.find? id).map (·.name)).getD id
  | .builtin b => b.className
  | .container c _ _ => c.className
  | .extractor e _ => e.className
  | .nullType => "NoneType"
  | .noReturn => "NoReturn"
  | .never => "Never"
  | .unspecified => "_empty"
  | .any => "Any"
  | .unionOf _ => "Union"
  | .qualified .classVar _ => "ClassVar"
  | .qualified .final _ => "Final"
  | .qualified .initVar _ => "InitVar"
  | .literal _ => "Literal"
  | .typeVar name => name
  | .forward _ => "ForwardRef"
  | .ellipsis => "ellipsis"
  | .value _ => "value"
  | .wrapped _ _ | .renamed _ _ | .width _ => ""

end RouteDoc
