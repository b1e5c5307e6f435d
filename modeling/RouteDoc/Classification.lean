import RouteDoc.Declaration

/-!
# Classification of types

Every type belongs to exactly one class of a closed set, and the name and the format under which it is
documented follow from that class.

* `Declarations.tag` — the class of a type;
* `Declarations.typeNameOf`, `Declarations.formatOf` — name and format, each by itself;
* `Declarations.nameAndFormat` — the pair under which a type is documented.
-/

namespace RouteDoc

/-- The classes of types. -/
inductive Tag where
  | nothing | union | enum | boolean | number | integer | array | string | date | dateTime
  | mapping | object | unknown
  deriving DecidableEq, Repr, Inhabited

/-- The names of simple types in a document. -/
inductive TypeWord where
  | boolean | number | integer | array | string | object
  deriving DecidableEq, Repr, Inhabited

/-- The formats that refine a simple type. -/
inductive Format where
  | int32 | int64 | float | double | date | dateTime
  deriving DecidableEq, Repr, Inhabited

/-- The name of a class of types. -/
def Tag.name : Tag → String
  | nothing => "nothing"
  | union => "union"
  | enum => "enum"
  | boolean => "boolean"
  | number => "number"
  | integer => "integer"
  | array => "array"
  | string => "string"
  | date => "date"
  | dateTime => "date-time"
  | mapping => "mapping"
  | object => "object"
  | unknown => "unknown"

/-- The type name as it stands in a document. -/
def TypeWord.name : TypeWord → String
  | boolean => "boolean"
  | number => "number"
  | integer => "integer"
  | array => "array"
  | string => "string"
  | object => "object"

/-- The format as it stands in a document. -/
def Format.name : Format → String
  | int32 => "int32"
  | int64 => "int64"
  | float => "float"
  | double => "double"
  | date => "date"
  | dateTime => "date-time"

/-- The containers whose instances are arrays. -/
def Container.isArray : Container → Bool
  | .list | .set | .frozenset | .tuple | .deque | .sequence | .mutableSequence | .abstractSet
  | .mutableSet | .iterable | .collection => true
  | _ => false

/-- The containers whose instances are mappings. -/
def Container.isMapping : Container → Bool
  | .dict | .orderedDict | .defaultdict | .mapping | .mutableMapping => true
  | _ => false

/-- The class of a built-in type. -/
def Builtin.tag : Builtin → Tag
  | .bool => .boolean
  | .int => .integer
  | .float | .decimal => .number
  | .str | .bytes => .string
  | .date => .date
  | .dateTime => .dateTime
  | .enum | .intEnum | .bodyKind => .enum
  | .fraction | .baseModel | .hashable | .missing => .object
  | .bytearray | .complex | .object | .time | .timedelta | .uuid | .filePath | .ipv4Address => .unknown

/-- The class of a container, with or without arguments. -/
def Container.tag (c : Container) (args : Option (List TypeExpr)) : Tag :=
  if c.isArray then .array
  else if c.isMapping then .mapping
  else match c, args with
    | .counter, none => .mapping
    | .iterator, none => .object
    | _, _ => .unknown

/-- The built-in classes that decide how the classes over them are documented, those that come first if there are
several. -/
def decisive : List (List Ancestor × Tag) :=
  [([.builtin .float, .builtin .decimal], .number), ([.builtin .int], .integer),
    ([.container .list, .container .set, .container .frozenset, .container .tuple], .array),
    ([.builtin .dateTime], .dateTime), ([.builtin .date], .date), ([.builtin .str, .builtin .bytes], .string),
    ([.container .dict], .mapping)]

/-- The class of a declared class, by its ancestors. -/
def derivedTag (ancestors : List Ancestor) : Tag :=
  ((decisive.find? fun (classes, _) => classes.any ancestors.contains).map (·.2)).getD .object

/-- The format of a width alias. -/
def Width.format : Width → Format
  | .int32 => .int32
  | .int64 => .int64
  | .float32 => .float
  | .float64 => .double

namespace Declarations

/-- The class of a declared class: an enumeration, a structured type, or what it derives from. -/
def tagOfClass (env : Declarations) (id : String) : Tag :=
  if (env.enumBase? id).isSome then .enum
  else if env.isStructured id then .object
  else derivedTag (env.resolution (.declared id))

/-- The class of a type that is neither wrapped nor an alias. -/
def tagOfBare (env : Declarations) : TypeExpr → Tag
  | .nullType | .noReturn | .never | .unspecified => .nothing
  | .unionOf _ => .union
  | .builtin b => b.tag
  | .container c _ args => c.tag args
  | .extractor _ none => .object
  | .declared id => env.tagOfClass id
  | _ => .unknown

/-- The class of a type. -/
def tag (env : Declarations) (t : TypeExpr) : Tag := env.tagOfBare t.unwrap

/-- Is the type a structured one, documented as a component? -/
def isStruct (env : Declarations) (t : TypeExpr) : Bool := env.tag t == .object

/-- Is the type a date-time? -/
def isDateTime (env : Declarations) (t : TypeExpr) : Bool := env.tag t == .dateTime

/-- Is the type an enumeration whose members are integers? -/
def isIntegerEnum (env : Declarations) (t : TypeExpr) : Bool :=
  match t.unwrap with
  | .builtin .intEnum => true
  | .declared id => env.enumBase? id == some .integer
  | _ => false

/-- The name of a type: text when nothing else is known. -/
def typeNameOf (env : Declarations) (t : TypeExpr) : TypeWord :=
  match env.tag t with
  | .boolean => .boolean
  | .number => .number
  | .integer => .integer
  | .array => .array
  | .mapping | .object => .object
  | .enum => if env.isIntegerEnum t then .integer else .string
  | .string | .date | .dateTime | .nothing | .union | .unknown => .string

/-- Is the type a class over the binary numbers? -/
def derivesFloat (env : Declarations) : TypeExpr → Bool
  | .builtin .float => true
  | .declared id => (env.resolution (.declared id)).contains (.builtin .float)
  | _ => false

/-- The format of a number, date or date-time; the outermost width alias decides. -/
def formatOf (env : Declarations) : TypeExpr → Option Format
  | .wrapped _ inner => env.formatOf inner
  | .renamed _ target => env.formatOf target
  | .width w => some w.format
  | t =>
    match env.tag t with
    | .dateTime => some .dateTime
    | .date => some .date
    | tag =>
      if env.derivesFloat t then some .double
      else if tag == .integer then some .int64
      else none

/-- The name and the format under which a type is documented. -/
def nameAndFormat (env : Declarations) (t : TypeExpr) : TypeWord × Option Format :=
  match env.tag t with
  | .enum | .union | .nothing | .unknown => (env.typeNameOf t, none)
  | _ => (env.typeNameOf t, env.formatOf t)

end Declarations

end RouteDoc
