import RouteDoc.Declaration
import RouteDoc.Datum.Display
import RouteDoc.Failure
import RouteDoc.Reference.Expression

/-!
# Forward references

A declaration may refer by text to a type that comes later.  The references of one class, or of one
handler, are resolved together: when one of them names nothing, none is resolved.  What a text stands for is for the
module to say in which it stands.  Where nothing is said of the module, a text is an expression over the declared
types and some built-in ones.

* `Annotation` — a type with the module in which it stands;
* `Declarations.resolve` — a type with its references resolved;
* `Declarations.resolveAll` — all types of a declaration, or nothing when one names nothing.
-/

namespace RouteDoc

/-- A type as it is written, and what its module makes of texts. -/
structure Annotation where
  type : TypeExpr
  meaning : Option Globals
  deriving Inhabited

/-- Named types of one module. -/
def annotated (meaning : Option Globals) (types : List (String × TypeExpr)) : List (String × Annotation) :=
  types.map fun (name, type) => (name, ⟨type, meaning⟩)

/-- Named annotations as they stand. -/
def rawTypes (annotations : List (String × Annotation)) : List (String × TypeExpr) :=
  annotations.map fun (name, a) => (name, a.type)

/-- The built-in types that a reference may name. -/
def namedBuiltin? : String → Option TypeExpr
  | "int" => some (.builtin .int)
  | "str" => some (.builtin .str)
  | "float" => some (.builtin .float)
  | "bool" => some (.builtin .bool)
  | "bytes" => some (.builtin .bytes)
  | "bytearray" => some (.builtin .bytearray)
  | "complex" => some (.builtin .complex)
  | "object" => some (.builtin .object)
  | "None" => some .nullType
  | _ => none

/-- The containers that a reference may name. -/
def namedContainer? : String → Option Container
  | "list" => some .list
  | "dict" => some .dict
  | "tuple" => some .tuple
  | "set" => some .set
  | "frozenset" => some .frozenset
  | "type" => some .type
  | _ => none

namespace Declarations

/-- Names with two underlines before and behind, as every class has them. -/
def isSpecialName (name : String) : Bool := name.startsWith "__" && name.endsWith "__"

/-- Does the class, or one of its ancestors, have a member or an attribute of the name?  The fields of a model are no
attributes. -/
def hasAttribute (env : Declarations) (id name : String) : Bool :=
  isSpecialName name || (env.lineage id).any fun d => match d.kind with
    | .enumeration _ members => (members.lookup name).isSome
    | .namedTuple => d.fields.any fun f => f.name == name
    | .model => false
    | _ => (attribute? d name).isSome

/-- What is found behind the name of a class and a point: an attribute, which is no type, or nothing. -/
def attributeNamed (env : Declarations) (d : Declaration) (name : String) : Unresolved :=
  if env.hasAttribute d.id name then .unknownName
  else if env.isModel d.id || (env.enumeration? d.id).isSome then .raised (.lacks .unnamed name)
  else .raised (.lacks (.type d.name) name)

/-- The type with a name. -/
def typeNamed (env : Declarations) (name : String) : Except Unresolved TypeExpr :=
  if (env.find? name).isSome then .ok (.declared name)
  else match namedBuiltin? name, namedContainer? name, name.splitOn "." with
    | some t, _, _ => .ok t
    | none, some c, _ => .ok (.container c false none)
    | none, none, head :: part :: _ =>
      match env.find? head with
      | some d => .error (env.attributeNamed d part)
      | none => .error .unknownName
    | none, none, _ => .error .unknownName

/-- The choice between types, which has to begin with one that is not null. -/
def choiceOf : List TypeExpr → Except Unresolved TypeExpr
  | .nullType :: .nullType :: _ => .error .unknownName
  | types => .ok (.union types)

/-- Can the expression stand in a choice? -/
def isChoosable : TypeText → Bool
  | .quoted _ | .ellipsis | .number _ | .made _ _ => false
  | _ => true

mutual

/-- The type that an expression stands for, given the types of quoted texts.  Arguments of what is no container are
looked up all the same. -/
def typeOf (env : Declarations) (ofQuoted : String → Except Unresolved TypeExpr) :
    TypeText → Except Unresolved TypeExpr
  | .name s => env.typeNamed s
  | .quoted s => ofQuoted s
  | .ellipsis => .ok .ellipsis
  | .number n => .ok (.value (.int n))
  | .generic head args => do
    let origin ← env.typeNamed head
    let args ← typesOf env ofQuoted args
    match origin with
    | .container c _ none => .ok (.container c false (some args))
    | _ => .error .unknownName
  | .choice members =>
    if members.all isChoosable then do choiceOf (← typesOf env ofQuoted members) else .error .unknownName
  | .made _ _ => .error .unknownName

/-- The types that expressions stand for, from the first on. -/
def typesOf (env : Declarations) (ofQuoted : String → Except Unresolved TypeExpr) :
    List TypeText → Except Unresolved (List TypeExpr)
  | [] => .ok []
  | t :: rest => do
    let t ← typeOf env ofQuoted t
    .ok (t :: (← typesOf env ofQuoted rest))

end

/-- The failure of a text that is no expression. -/
def noExpression (text : String) : Unresolved := .raised (.malformedReference (displayText text))

/-- The type that a text refers to among declared and built-in ones; the count bounds the quotes within quotes. -/
def lookUpWithin (env : Declarations) : Nat → String → Except Unresolved TypeExpr
  | 0, text => .error (noExpression text)
  | count + 1, text =>
    match TypeText.parse text with
    | some t => env.typeOf (env.lookUpWithin count) t
    | none => .error (noExpression text)

/-- The type that a text refers to: what its module makes of it. -/
def lookUp (env : Declarations) : Option Globals → String → Except Unresolved TypeExpr
  | some meaning, text => meaning text
  | none, text =>
    if (env.find? text).isSome then .ok (.declared text) else env.lookUpWithin (text.length + 1) text

mutual

/-- A type with its references resolved; what stands behind an alias is left alone. -/
def resolve (env : Declarations) (m : Option Globals) : TypeExpr → Except Unresolved TypeExpr
  | .forward text => env.lookUp m text
  | .container c historic (some args) => do .ok (.container c historic (some (← resolveList env m args)))
  | .extractor e (some arg) => do .ok (.extractor e (some (← resolve env m arg)))
  | .unionOf members => do .ok (.union (← resolveList env m members))
  | .wrapped w inner => do .ok (.wrap w (← resolve env m inner))
  | .qualified .initVar inner => .ok (.qualified .initVar inner)
  | .qualified q inner => do .ok (.qualified q (← resolve env m inner))
  | t => .ok t

/-- Types with their references resolved, from the first on. -/
def resolveList (env : Declarations) (m : Option Globals) : List TypeExpr → Except Unresolved (List TypeExpr)
  | [] => .ok []
  | t :: rest => do
    let t ← resolve env m t
    .ok (t :: (← resolveList env m rest))

end

/-- An annotation with its references resolved. -/
def resolveType (env : Declarations) (a : Annotation) : Except Unresolved TypeExpr := env.resolve a.meaning a.type

/-- Named annotations with their references resolved, from the first on. -/
def resolveNamed (env : Declarations) :
    List (String × Annotation) → Except Unresolved (List (String × TypeExpr))
  | [] => .ok []
  | (name, a) :: rest => do
    let t ← env.resolveType a
    .ok ((name, t) :: (← env.resolveNamed rest))

/-- Named annotations with all references resolved, or nothing when one names nothing. -/
def resolveAll (env : Declarations) (annotations : List (String × Annotation)) :
    Except Failure (Option (List (String × TypeExpr))) :=
  match env.resolveNamed annotations with
  | .ok resolved => .ok (some resolved)
  | .error .unknownName => .ok none
  | .error (.raised f) => .error f

/-- A type as a model holds it: with its references resolved, if all of them are. -/
def held (env : Declarations) (a : Annotation) : TypeExpr := (env.resolveType a).toOption.getD a.type

end Declarations

end RouteDoc
