import RouteDoc.Datum

/-!
# Type expressions

The types that handlers and fields are declared with.  A type expression names a built-in class, a
container, an extractor or a declared type, or combines others: unions, wrappers that carry no type
information, aliases.

* `TypeExpr.union` — the union of several types, flattened, without repetitions;
* `TypeExpr.literalOf` — the type of several literal values, without repetitions;
* `TypeExpr.arguments` — the arguments of a generic type;
* `TypeExpr.stripWrappers`, `TypeExpr.unwrap` — the type below wrappers, and below aliases too;
* `TypeExpr.members?` — nullability and remaining members of a union;
* `TypeExpr.stripOptional`, `TypeExpr.itemType` — the payload of a nullable type, the items of an array.
-/

namespace RouteDoc

/-- The classes without arguments that every program knows. -/
inductive Builtin where
  | bool | int | float | str | bytes | bytearray | complex | object
  | decimal | date | dateTime | time | timedelta | uuid | filePath | ipv4Address | fraction
  | enum | intEnum | baseModel | hashable | missing | bodyKind
  deriving DecidableEq, Repr

/-- The generic containers, and the declared generic classes. -/
inductive Container where
  | list | set | frozenset | tuple | deque
  | sequence | mutableSequence | abstractSet | mutableSet | iterable | collection | iterator
  | dict | orderedDict | defaultdict | counter | mapping | mutableMapping
  | type
  /-- A declared class that takes arguments, by its identifier. -/
  | declared (id : String)
  deriving DecidableEq, Repr

/-- The markers that say where a handler's argument comes from. -/
inductive Extractor where
  | path | query | header
  | json | jsonFragment | body | form
  | extractor | requestParam | bodyExtractor
  deriving DecidableEq, Repr

/-- The aliases of numbers that fix their width. -/
inductive Width where
  | int32 | int64 | float32 | float64
  deriving DecidableEq, Repr

/-- The wrappers that carry no type information of their own. -/
inductive Wrapper where
  | annotated | required | notRequired | readOnly
  deriving DecidableEq, Repr

/-- The qualifiers of class variables, constants and constructor-only parameters. -/
inductive Qualifier where
  | classVar | final | initVar
  deriving DecidableEq, Repr

/-- The literal values a type may be restricted to. -/
inductive Literal where
  | null
  | bool (b : Bool)
  | int (i : Int)
  | float (x : Binary64)
  | str (s : String)
  | bytes (octets : List UInt8)
  deriving DecidableEq, Repr

/-- A type as written. -/
inductive TypeExpr where
  /-- The type of the null value. -/
  | nullType
  /-- The result type of functions that do not return. -/
  | noReturn
  /-- The type without values. -/
  | never
  /-- No type was given. -/
  | unspecified
  | any
  | builtin (b : Builtin)
  | width (w : Width)
  /-- A container, with its arguments when there are brackets.  The historic spellings of the same
  containers differ from the plain ones only in a union. -/
  | container (c : Container) (historic : Bool) (args : Option (List TypeExpr))
  | extractor (e : Extractor) (arg : Option TypeExpr)
  /-- A declared type, by its identifier. -/
  | declared (id : String)
  | unionOf (members : List TypeExpr)
  | wrapped (w : Wrapper) (inner : TypeExpr)
  | qualified (q : Qualifier) (inner : TypeExpr)
  /-- A distinct name for another type. -/
  | renamed (name : String) (target : TypeExpr)
  | literal (values : List Literal)
  | typeVar (name : String)
  /-- The text of a reference that is not resolved. -/
  | forward (text : String)
  /-- The mark of a tuple of any length. -/
  | ellipsis
  /-- A literal value where a type argument stands. -/
  | value (l : Literal)
  deriving Repr, Inhabited

/-- The type that a width alias stands for. -/
def Width.target : Width → TypeExpr
  | .int32 | .int64 => .builtin .int
  | .float32 | .float64 => .builtin .float

namespace TypeExpr

mutual

/-- Equality of types as members of a union. -/
def same : TypeExpr → TypeExpr → Bool
  | nullType, nullType => true
  | noReturn, noReturn => true
  | never, never => true
  | unspecified, unspecified => true
  | any, any => true
  | builtin a, builtin b => a == b
  | width a, width b => a == b
  | container c h args, container c' h' args' => c == c' && h == h' && sameArgs args args'
  | extractor e arg, extractor e' arg' => e == e' && sameArg arg arg'
  | declared a, declared b => a == b
  | unionOf a, unionOf b => a.length == b.length && sameMembers a b
  | wrapped w a, wrapped w' b => w == w' && same a b
  | qualified q a, qualified q' b => q == q' && same a b
  | renamed m a, renamed n b => m == n && same a b
  | literal a, literal b => a.all b.contains && b.all a.contains
  | typeVar a, typeVar b => a == b
  | forward a, forward b => a == b
  | ellipsis, ellipsis => true
  | value a, value b => a == b
  | _, _ => false

/-- Optional argument lists that agree place by place. -/
def sameArgs : Option (List TypeExpr) → Option (List TypeExpr) → Bool
  | none, none => true
  | some a, some b => sameList a b
  | _, _ => false

/-- Optional arguments that agree. -/
def sameArg : Option TypeExpr → Option TypeExpr → Bool
  | none, none => true
  | some a, some b => same a b
  | _, _ => false

/-- Lists that agree place by place. -/
def sameList : List TypeExpr → List TypeExpr → Bool
  | [], [] => true
  | a :: as, b :: bs => same a b && sameList as bs
  | _, _ => false

/-- Is every member also a member of the other union? -/
def sameMembers : List TypeExpr → List TypeExpr → Bool
  | [], _ => true
  | a :: as, bs => bs.any (same a) && sameMembers as bs

end

/-- The members of a type seen as a union. -/
def unionMembers : TypeExpr → List TypeExpr
  | unionOf members => members
  | t => [t]

/-- A list of types without repetitions, the first occurrences kept. -/
def distinct : List TypeExpr → List TypeExpr
  | [] => []
  | t :: rest => t :: (distinct rest).filter fun u => !t.same u

/-- The union of several types: unions among them are flattened, repetitions dropped, and a single
member that is left is the union. -/
def union (types : List TypeExpr) : TypeExpr :=
  match distinct (types.flatMap unionMembers) with
  | [t] => t
  | members => unionOf members

/-- The type or null. -/
def optional (t : TypeExpr) : TypeExpr := union [t, nullType]

/-- The type of several literal values, each of which counts once. -/
def literalOf (values : List Literal) : TypeExpr := literal values.eraseDups

/-- A type in a wrapper; directly nested annotations are one. -/
def wrap (w : Wrapper) (t : TypeExpr) : TypeExpr :=
  match w, t with
  | .annotated, wrapped .annotated _ => t
  | _, _ => wrapped w t

/-- The type below wrappers. -/
def stripWrappers : TypeExpr → TypeExpr
  | wrapped _ inner => stripWrappers inner
  | t => t

/-- The type below wrappers and aliases. -/
def unwrap : TypeExpr → TypeExpr
  | wrapped _ inner => unwrap inner
  | renamed _ target => unwrap target
  | width w => w.target
  | t => t

/-- Is the type a union as it stands? -/
def isUnion : TypeExpr → Bool
  | unionOf _ => true
  | _ => false

/-- Does the type, as it stands, describe the absence of a value? -/
def isNothing : TypeExpr → Bool
  | nullType | noReturn | never | unspecified => true
  | _ => false

/-- The members that make a union nullable. -/
def isNullMarker : TypeExpr → Bool
  | nullType => true
  | builtin .missing => true
  | _ => false

/-- The nullability and the remaining members of a union; nothing for other types. -/
def members? (t : TypeExpr) : Option (Bool × List TypeExpr) :=
  match t.stripWrappers with
  | unionOf members => some (members.any isNullMarker, members.filter (!·.isNullMarker))
  | _ => none

/-- Is the type a union with a null marker? -/
def isNullable (t : TypeExpr) : Bool :=
  match t.members? with
  | some (nullable, _) => nullable
  | none => false

/-- The only other member of a nullable union; other types as they are. -/
def stripOptional (t : TypeExpr) : TypeExpr :=
  match t.members? with
  | some (true, [member]) => member
  | _ => t

/-- The arguments of a generic type. -/
def arguments : TypeExpr → List TypeExpr
  | container _ _ (some args) => args
  | extractor _ (some arg) => [arg]
  | unionOf members => members
  | wrapped _ inner => [inner]
  | qualified .initVar _ => []
  | qualified _ inner => [inner]
  | literal values => values.map value
  | _ => []

/-- The first argument of a type below its wrappers and aliases, if it has one. -/
def itemType? (t : TypeExpr) : Option TypeExpr := t.unwrap.arguments.head?

/-- The item type of an array: any value when there is no argument. -/
def itemType (t : TypeExpr) : TypeExpr := t.itemType?.getD any

end TypeExpr

end RouteDoc
