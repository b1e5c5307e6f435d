import RouteDoc.Description

/-!
# Instances of declared types

The values of declared types that defaults are made of: instances of structured types with some fields
given, members of enumerations, and the types themselves.  The types of its fields say what a model shows of
their values: a truth value where an integer is declared counts as one, and an instance of a derived type
shows the fields of the declared type only.

* `Declarations.fit` — what is shown of a value where a type is declared;
* `Declarations.instance?` — an instance, with the defaults of the fields that are not given;
* `Declarations.member?` — a member of an enumeration;
* `Declarations.typeDatum` — a type as a value.
-/

namespace RouteDoc.Declarations

/-! ### Values where types are declared -/

/-- The type that says what is shown of a value. -/
def payload : TypeExpr → TypeExpr
  | .wrapped _ t => payload t
  | .qualified _ t => payload t
  | .renamed _ t => payload t
  | .width w => w.target
  | t => t

/-- The fields that are shown of a value where a structured type is declared, with their public names and
their types, if the value is an instance of that type. -/
def shownFields? (env : Declarations) (valueId : String) (shape : RecordShape) (id : String) :
    Option (List (String × String × TypeExpr)) :=
  if !(env.ancestry valueId).contains id then none
  else match shape with
    | .aliased =>
      if env.isModel id then
        some ((env.modelFields id).map fun (name, f) => (name, f.publicName.getD name, bareFieldType f.type))
      else none
    | .fields =>
      if env.isDataclass id then
        some ((env.dataclassFields id).map fun (name, a, _) => (name, name, bareFieldType (env.held a)))
      else none
    | .places => none

/-- The structured type among declared ones that says what is shown of an instance: its own type, or else
the first that it derives from. -/
def memberFor? (env : Declarations) (valueId : String) (members : List TypeExpr) : Option TypeExpr :=
  (members.find? fun
    | .declared id => id == valueId
    | _ => false).or <|
  members.find? fun
    | .declared id => (env.ancestry valueId).contains id
    | _ => false

/-- The type declared for a value: of a union, the only one beside null, or one that suits the value. -/
def declaredFor (env : Declarations) (t : TypeExpr) (d : Datum) : TypeExpr :=
  match payload t with
  | .unionOf members =>
    match (members.map payload).filter fun m => !m.same .nullType, d with
    | [m], _ => m
    | several, .record id _ _ _ => (env.memberFor? id several).getD .any
    | _, _ => .any
  | t => t

/-- The type declared for the items of a gathering, if it is one for all. -/
def itemTypeFor? (kind : Gathering) : TypeExpr → Option TypeExpr
  | .container c _ (some [t]) =>
    match c, kind with
    | .list, .list | .mutableSequence, .list | .set, .set | .mutableSet, .set | .frozenset, .frozenset
    | .abstractSet, .frozenset | .deque, .deque | .sequence, _ => some t
    | _, _ => none
  | .container .tuple _ (some [t, .ellipsis]) => if kind == .tuple then some t else none
  | _ => none

/-- The types declared for the items of a gathering one by one. -/
def placeTypesFor (kind : Gathering) : TypeExpr → List TypeExpr
  | .container .tuple _ (some types) => if kind == .tuple then types else []
  | _ => []

/-- The types declared for the keys and the values of a mapping. -/
def entryTypesFor? : TypeExpr → Option (TypeExpr × TypeExpr)
  | .container c _ (some args) =>
    match c, args with
    | .dict, [k, v] | .orderedDict, [k, v] | .defaultdict, [k, v] | .mapping, [k, v]
    | .mutableMapping, [k, v] => some (k, v)
    | .counter, [k] => some (k, .builtin .int)
    | _, _ => none
  | _ => none

/-- What is shown of a key where a type is declared: a truth value among integers is shown as a value. -/
def fitKey (t : TypeExpr) (d : Datum) : Datum :=
  match payload t, d with
  | .builtin .int, .bool _ => .str d.plainText
  | _, _ => d

mutual

/-- What is shown of a value where a type is declared. -/
def fit (env : Declarations) (t : TypeExpr) (d : Datum) : Datum :=
  let t := env.declaredFor t d
  match d with
  | .bool b => if t.same (.builtin .int) then .int (if b then 1 else 0) else .bool b
  | .gathering kind items =>
    match itemTypeFor? kind t with
    | some item => .gathering kind (fitAll env item items)
    | none => .gathering kind (fitPlaces env (placeTypesFor kind t) items)
  | .map entries =>
    match t with
    | .declared id =>
      if env.isTypedDict id then .map (fitKeys env (env.dictKeys (env.length + 1) id) entries) else .map entries
    | t =>
      match entryTypesFor? t with
      | some (key, value) => .map (fitEntries env key value entries)
      | none => .map entries
  | .record id type shape fields =>
    match t with
    | .declared declared =>
      match env.shownFields? id shape declared with
      | some shown => .record id type shape (fitFields env shown fields)
      | none => .record id type shape fields
    | .builtin .baseModel => if shape == .aliased then .record id type shape [] else .record id type shape fields
    | _ => .record id type shape fields
  | d => d

/-- What is shown of items of one declared type. -/
def fitAll (env : Declarations) (t : TypeExpr) : List Datum → List Datum
  | [] => []
  | d :: rest => fit env t d :: fitAll env t rest

/-- What is shown of items that are declared one by one. -/
def fitPlaces (env : Declarations) : List TypeExpr → List Datum → List Datum
  | t :: types, d :: rest => fit env t d :: fitPlaces env types rest
  | _, rest => rest

/-- What is shown of the entries of a mapping. -/
def fitEntries (env : Declarations) (key value : TypeExpr) : List (Datum × Datum) → List (Datum × Datum)
  | [] => []
  | (k, d) :: rest => (fitKey key k, fit env value d) :: fitEntries env key value rest

/-- What is shown of the entries of a mapping with declared keys: those alone. -/
def fitKeys (env : Declarations) (keys : List (String × Annotation × Bool)) :
    List (Datum × Datum) → List (Datum × Datum)
  | [] => []
  | (k, d) :: rest =>
    match k.text?.bind fun name => keys.lookup name with
    | some (a, _) => (k, fit env (bareFieldType (env.held a)) d) :: fitKeys env keys rest
    | none => fitKeys env keys rest

/-- What is shown of the fields of an instance. -/
def fitFields (env : Declarations) (shown : List (String × String × TypeExpr)) :
    List (String × String × Datum) → List (String × String × Datum)
  | [] => []
  | (name, _, d) :: rest =>
    match shown.lookup name with
    | some (publicName, t) => (name, publicName, fit env t d) :: fitFields env shown rest
    | none => fitFields env shown rest

end

/-! ### Instances -/

/-- A field of a dataclass as an instance holds it: as given, or the attribute of the class. -/
def attributeOf (lineage : List Declaration) (type : String) (given : List (String × Datum)) (name : String) :
    Datum :=
  ((given.lookup name).or (sharedAttribute? lineage name)).getD (.absent type name)

/-- A field of a model as an instance shows it: given by its public name or by its name, or its default; an
instance does without a field that has none of these. -/
def modelField? (env : Declarations) (given : List (String × Datum)) (name : String) (f : FieldDecl) :
    Option (String × String × Datum) :=
  let byPublicName := f.publicName.bind fun n => given.lookup n
  ((byPublicName.or (given.lookup name)).or (f.default.map (Default.datum .creation))).map fun v =>
    (name, f.publicName.getD name, env.fit (bareFieldType f.type) v)

/-- The fields of an instance, each with its name, its public name and its value. -/
def instanceFields (env : Declarations) (d : Declaration) (given : List (String × Datum)) :
    RecordShape → List (String × String × Datum)
  | .fields =>
    (env.dataclassFields d.id).map fun (name, _, _) => (name, name, attributeOf (env.lineage d.id) d.name given name)
  | .aliased => (env.modelFields d.id).filterMap fun (name, f) => env.modelField? given name f
  | .places =>
    (((env.namedTuple? d.id).map (·.fields)).getD []).map fun f =>
      (f.name, f.name, ((given.lookup f.name).or (f.default.bind Default.attribute?)).getD .null)

/-- An instance of a declared type. -/
def instance? (env : Declarations) (id : String) (given : List (String × Datum)) : Option Datum :=
  (env.find? id).map fun d =>
    let record (shape : RecordShape) : Datum := .record d.id d.name shape (env.instanceFields d given shape)
    if env.isTypedDict id then .map (given.map fun (name, v) => (.str name, v))
    else if (env.namedTuple? id).isSome then record .places
    else if env.isModel id then record .aliased
    else record .fields

/-- A member of an enumeration; an alias is the member that it names. -/
def member? (env : Declarations) (id name : String) : Option Datum := do
  let d ← env.find? id
  let (base, members) ← env.enumeration? id
  let (leader, value) ← base.lookUp name members
  some (.member d.id d.name leader base value)

/-- The name of the type of types that a class over a built-in type is of. -/
def typeOfDerived : TypeExpr → String
  | .builtin .enum | .builtin .intEnum => "EnumType"
  | .builtin .baseModel => "ModelMetaclass"
  | .builtin .hashable => "ABCMeta"
  | .container c _ _ =>
    match c with
    | .sequence | .mutableSequence | .abstractSet | .mutableSet | .iterable | .collection | .iterator
    | .mapping | .mutableMapping => "ABCMeta"
    | _ => "type"
  | _ => "type"

/-- The name of the type of types that a declared type is of. -/
def typeOfType (env : Declarations) (d : Declaration) : String :=
  match d.kind with
  | .enumeration _ _ => "EnumType"
  | .derived base => typeOfDerived base
  | _ =>
    if env.isModel d.id then "ModelMetaclass"
    else if env.isTypedDict d.id then "_TypedDictMeta"
    else "type"

/-- The way a declared type is shown. -/
def typeDisplay (d : Declaration) : String :=
  match d.kind with
  | .enumeration base _ => (if base.isFlag then "<flag '" else "<enum '") ++ d.name ++ "'>"
  | .derived (.builtin .enum) | .derived (.builtin .intEnum) => "<enum '" ++ d.name ++ "'>"
  | _ => "<class 'app." ++ d.name ++ "'>"

/-- A declared type as a value. -/
def typeDatum (env : Declarations) (id : String) : Datum :=
  match env.find? id with
  | some d => .typeItself d.id (typeDisplay d) (env.typeOfType d)
  | none => .foreign id

end RouteDoc.Declarations
