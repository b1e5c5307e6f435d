import RouteDoc.Proofs.Reachability

/-!
# Other annotations for one name

One name of one class is given other annotations: the field that the class declares under it, and the parameter of
its constructor.  Nothing that is said of a type as it stands depends on these annotations: not its class, its
name and its format, not the members it lists, not its description, not the type that a text refers to.  Only what
reads fields sees them.

* `Retyping` — the name, its class, and the other annotations;
* `Retyping.lineage_onTypes` — the ancestors of a class, with the other annotations;
* `Retyping.resolve_onTypes`, `Retyping.describe_onScope` — references and descriptions are the same.
-/

namespace RouteDoc

/-- Other annotations for one name of one declared class. -/
structure Retyping where
  owner : String
  name : String
  field : TypeExpr → TypeExpr
  parameter : Option TypeExpr → Option TypeExpr

namespace Retyping

variable (r : Retyping)

/-- Is this the name of that class? -/
def Concerns (id name : String) : Prop := id = r.owner ∧ name = r.name

instance (id name : String) : Decidable (r.Concerns id name) := inferInstanceAs (Decidable (_ ∧ _))

def onField (id : String) (f : FieldDecl) : FieldDecl :=
  { f with type := if r.Concerns id f.name then r.field f.type else f.type }

def onParameter (id : String) (p : Parameter) : Parameter :=
  { p with type := if r.Concerns id p.name then r.parameter p.type else p.type }

def onKind (id : String) : Kind → Kind
  | .plain (some constructor) => .plain (some (constructor.map (r.onParameter id)))
  | k => k

def onDeclaration (d : Declaration) : Declaration :=
  { d with kind := r.onKind d.id d.kind, fields := d.fields.map (r.onField d.id) }

/-- The declared types with the other annotations. -/
def onTypes (env : Declarations) : Declarations := env.map r.onDeclaration

def onScope (scope : Scope) : Scope := { scope with types := r.onTypes scope.types }

variable {r} {env : Declarations}

/-! ### Declarations and their ancestors -/

@[simp] theorem length_onTypes : (r.onTypes env).length = env.length := List.length_map _

@[simp] theorem find?_onTypes (id : String) : (r.onTypes env).find? id = (env.find? id).map r.onDeclaration := by
  rw [onTypes, Declarations.find?, List.find?_map]
  rfl

/-- A kind stays what it is, the annotations of a constructor apart. -/
theorem kind_onDeclaration (r : Retyping) (d : Declaration) :
    (r.onDeclaration d).kind = d.kind ∨
      ∃ ps qs, d.kind = .plain (some ps) ∧ (r.onDeclaration d).kind = .plain (some qs) := by
  show r.onKind d.id d.kind = d.kind ∨ ∃ ps qs, d.kind = .plain (some ps) ∧ r.onKind d.id d.kind = .plain (some qs)
  cases d.kind with
  | plain constructor =>
    cases constructor with
    | none => exact .inl rfl
    | some parameters => exact .inr ⟨parameters, _, rfl, rfl⟩
  | _ => exact .inl rfl

theorem kind?_onTypes (r : Retyping) (env : Declarations) (id : String) :
    (r.onTypes env).kind? id = env.kind? id ∨
      ∃ ps qs, env.kind? id = some (.plain (some ps)) ∧ (r.onTypes env).kind? id = some (.plain (some qs)) := by
  rw [Declarations.kind?, Declarations.kind?, find?_onTypes]
  cases env.find? id with
  | none => exact .inl rfl
  | some d =>
    rcases kind_onDeclaration r d with h | ⟨ps, qs, h, h'⟩
    · exact .inl (congrArg some h)
    · exact .inr ⟨ps, qs, congrArg some h, congrArg some h'⟩

/-- A class names the same bases. -/
@[simp] theorem parents_onDeclaration (d : Declaration) :
    Declarations.parents (r.onDeclaration d) = Declarations.parents d := by
  have hbases : (r.onDeclaration d).bases = d.bases := rfl
  rw [Declarations.parents, Declarations.parents, hbases]
  rcases kind_onDeclaration r d with h | ⟨ps, qs, h, h'⟩
  · rw [h]
  · rw [h, h']

@[simp] theorem ancestryWithin_onTypes (fuel : Nat) (id : String) :
    (r.onTypes env).ancestryWithin fuel id = env.ancestryWithin fuel id := by
  induction fuel generalizing id with
  | zero => rfl
  | succ fuel ih =>
    rw [Declarations.ancestryWithin, Declarations.ancestryWithin, find?_onTypes, length_onTypes]
    cases env.find? id with
    | none => rfl
    | some d =>
      rw [show Declarations.ancestryWithin (r.onTypes env) fuel = env.ancestryWithin fuel from funext ih]
      simp only [Option.map_some, Declarations.declaredBases, parents_onDeclaration]

theorem lineage_onTypes (id : String) : (r.onTypes env).lineage id = (env.lineage id).map r.onDeclaration := by
  rw [Declarations.lineage, Declarations.lineage, Declarations.ancestry, Declarations.ancestry, length_onTypes,
    ancestryWithin_onTypes, List.map_filterMap]
  exact congrArg (fun f => List.filterMap f _) (funext find?_onTypes)

/-- What is not asked of a constructor is the same of a class with its ancestors. -/
theorem inherits_onTypes {p : Kind → Bool} (hp : ∀ ps qs, p (.plain (some ps)) = p (.plain (some qs)))
    (id : String) : (r.onTypes env).inherits id p = env.inherits id p := by
  rw [Declarations.inherits, Declarations.inherits, lineage_onTypes, List.any_map]
  refine congrArg (List.any _) (funext fun d => ?_)
  rw [Function.comp]
  rcases kind_onDeclaration r d with h | ⟨ps, qs, h, h'⟩
  · rw [h]
  · rw [h, h', hp]

@[simp] theorem isModel_onTypes (id : String) : (r.onTypes env).isModel id = env.isModel id :=
  inherits_onTypes (fun _ _ => rfl) id

@[simp] theorem isDataclass_onTypes (id : String) : (r.onTypes env).isDataclass id = env.isDataclass id :=
  inherits_onTypes (fun _ _ => rfl) id

@[simp] theorem isTypedDict_onTypes (id : String) : (r.onTypes env).isTypedDict id = env.isTypedDict id :=
  inherits_onTypes (fun _ _ => rfl) id

/-- The first of several classes that is of a sort. -/
theorem find?_map_onDeclaration {q : Declaration → Bool} (hq : ∀ d, q (r.onDeclaration d) = q d)
    (ds : List Declaration) : (ds.map r.onDeclaration).find? q = (ds.find? q).map r.onDeclaration := by
  rw [List.find?_map, show q ∘ r.onDeclaration = q from funext hq]

theorem namedTuple?_onTypes (id : String) :
    (r.onTypes env).namedTuple? id = (env.namedTuple? id).map r.onDeclaration := by
  rw [Declarations.namedTuple?, Declarations.namedTuple?, lineage_onTypes]
  refine find?_map_onDeclaration (fun d => ?_) _
  rcases kind_onDeclaration r d with h | ⟨ps, qs, h, h'⟩
  · simp only [h]
  · simp only [h, h']

@[simp] theorem isStructured_onTypes (id : String) : (r.onTypes env).isStructured id = env.isStructured id := by
  rw [Declarations.isStructured, Declarations.isStructured, isModel_onTypes, isDataclass_onTypes,
    isTypedDict_onTypes, namedTuple?_onTypes, Option.isSome_map]

/-- The attributes that a class sets are the same. -/
@[simp] theorem attribute?_onDeclaration (d : Declaration) (name : String) :
    Declarations.attribute? (r.onDeclaration d) name = Declarations.attribute? d name := by
  rw [Declarations.attribute?, Declarations.attribute?]
  show ((d.fields.map (r.onField d.id)).find? fun f => f.name == name).bind _ = _
  rw [List.find?_map, Option.bind_map]
  rfl

@[simp] theorem resolutionWithin_onTypes (fuel : Nat) (c : Ancestor) :
    (r.onTypes env).resolutionWithin fuel c = env.resolutionWithin fuel c := by
  induction fuel generalizing c with
  | zero => cases c <;> rfl
  | succ fuel ih =>
    cases c with
    | declared id =>
      rw [Declarations.resolutionWithin, Declarations.resolutionWithin, find?_onTypes,
        show Declarations.resolutionWithin (r.onTypes env) fuel = env.resolutionWithin fuel from funext ih]
      cases env.find? id with
      | none => rfl
      | some d =>
        simp only [Option.map_some, parents_onDeclaration]
    | _ => rfl

@[simp] theorem resolution_onTypes (t : TypeExpr) : (r.onTypes env).resolution t = env.resolution t := by
  rw [Declarations.resolution, Declarations.resolution, length_onTypes]
  cases t.origin? with
  | none => rfl
  | some c => exact resolutionWithin_onTypes _ c

/-! ### Enumerations and extractors -/

@[simp] theorem enumBase?_onTypes (id : String) : (r.onTypes env).enumBase? id = env.enumBase? id := by
  have hbase : (r.onTypes env).enumBaseOf? = env.enumBaseOf? := by
    funext c
    cases c with
    | declared id =>
      rw [Declarations.enumBaseOf?, Declarations.enumBaseOf?]
      rcases kind?_onTypes r env id with h | ⟨ps, qs, h, h'⟩
      · rw [h]
      · rw [h, h']
    | builtin b => cases b <;> rfl
    | _ => rfl
  rw [Declarations.enumBase?, Declarations.enumBase?, resolution_onTypes, hbase]

/-- The members that a class brings are the same. -/
@[simp] theorem membersOf_onDeclaration (d : Declaration) :
    Declarations.membersOf (r.onDeclaration d) = Declarations.membersOf d := by
  have hfields : (r.onDeclaration d).fields = d.fields.map (r.onField d.id) := rfl
  rw [Declarations.membersOf, Declarations.membersOf, hfields, List.filterMap_map]
  rcases kind_onDeclaration r d with h | ⟨ps, qs, h, h'⟩
  · rw [h]
    cases d.kind <;> rfl
  · rw [h, h']
    rfl

@[simp] theorem enumeration?_onTypes (id : String) : (r.onTypes env).enumeration? id = env.enumeration? id := by
  rw [Declarations.enumeration?, Declarations.enumeration?, enumBase?_onTypes, find?_onTypes, Option.map_map]
  exact congrArg (fun f => Option.map (fun base => (base, ((env.find? id).map f).getD [])) (env.enumBase? id))
    (funext membersOf_onDeclaration)

@[simp] theorem extractor?_onTypes (t : TypeExpr) : (r.onTypes env).extractor? t = env.extractor? t := by
  have hsame : (r.onTypes env).extractors t = env.extractors t := by
    rw [Declarations.extractors, Declarations.extractors, resolution_onTypes]
  rw [Declarations.extractor?, Declarations.extractor?, hsame]

/-! ### Classes, names and formats -/

@[simp] theorem typeName_onTypes (t : TypeExpr) : (r.onTypes env).typeName t = env.typeName t := by
  unfold Declarations.typeName
  cases t.unwrap with
  | declared id =>
    simp only [find?_onTypes, Option.map_map]
    rfl
  | container c historic args =>
    cases c with
    | declared id =>
      simp only [find?_onTypes, Option.map_map]
      rfl
    | _ => rfl
  | qualified q inner => cases q <;> rfl
  | _ => rfl

@[simp] theorem tag_onTypes (t : TypeExpr) : (r.onTypes env).tag t = env.tag t := by
  unfold Declarations.tag
  cases t.unwrap with
  | declared id =>
    simp only [Declarations.tagOfBare, Declarations.tagOfClass, enumBase?_onTypes, isStructured_onTypes,
      resolution_onTypes]
  | extractor e arg => cases arg <;> rfl
  | _ => rfl

@[simp] theorem isIntegerEnum_onTypes (t : TypeExpr) : (r.onTypes env).isIntegerEnum t = env.isIntegerEnum t := by
  unfold Declarations.isIntegerEnum
  simp only [enumBase?_onTypes]

@[simp] theorem typeNameOf_onTypes (t : TypeExpr) : (r.onTypes env).typeNameOf t = env.typeNameOf t := by
  unfold Declarations.typeNameOf
  simp only [tag_onTypes, isIntegerEnum_onTypes]

@[simp] theorem derivesFloat_onTypes (t : TypeExpr) : (r.onTypes env).derivesFloat t = env.derivesFloat t := by
  unfold Declarations.derivesFloat
  simp only [resolution_onTypes]

@[simp] theorem formatOf_onTypes (t : TypeExpr) : (r.onTypes env).formatOf t = env.formatOf t := by
  fun_induction Declarations.formatOf env t with
  | case1 w inner ih => exact ih
  | case2 name target ih => exact ih
  | _ => simp_all [Declarations.formatOf]

@[simp] theorem nameAndFormat_onTypes (t : TypeExpr) : (r.onTypes env).nameAndFormat t = env.nameAndFormat t := by
  unfold Declarations.nameAndFormat
  simp only [tag_onTypes, typeNameOf_onTypes, formatOf_onTypes]

@[simp] theorem enumValues_onTypes (t : TypeExpr) : (r.onTypes env).enumValues t = env.enumValues t := by
  unfold Declarations.enumValues
  simp only [enumeration?_onTypes]

/-! ### Parameters -/

@[simp] theorem extractType_onTypes (t : TypeExpr) : (r.onTypes env).extractType t = env.extractType t := by
  unfold Declarations.extractType
  simp only [extractor?_onTypes]

@[simp] theorem infer_onTypes (name : String) (type : TypeExpr) (default : Option Datum) :
    Param.infer (r.onTypes env) name type default = Param.infer env name type default := by
  unfold Param.infer Declarations.infersRequired
  simp only [extractType_onTypes]

/-! ### References -/

@[simp] theorem hasAttribute_onTypes (id name : String) :
    (r.onTypes env).hasAttribute id name = env.hasAttribute id name := by
  rw [Declarations.hasAttribute, Declarations.hasAttribute, lineage_onTypes, List.any_map]
  refine congrArg (Declarations.isSpecialName name || List.any _ ·) (funext fun d => ?_)
  have hfields : ((r.onDeclaration d).fields.any fun f => f.name == name) = d.fields.any fun f => f.name == name := by
    rw [show (r.onDeclaration d).fields = d.fields.map (r.onField d.id) from rfl, List.any_map]
    rfl
  rw [Function.comp, hfields, attribute?_onDeclaration]
  rcases kind_onDeclaration r d with h | ⟨ps, qs, h, h'⟩
  · rw [h]
  · rw [h, h']

@[simp] theorem attributeNamed_onTypes (d : Declaration) (name : String) :
    (r.onTypes env).attributeNamed (r.onDeclaration d) name = env.attributeNamed d name := by
  unfold Declarations.attributeNamed
  simp only [show (r.onDeclaration d).id = d.id from rfl, show (r.onDeclaration d).name = d.name from rfl,
    hasAttribute_onTypes, isModel_onTypes, enumeration?_onTypes]

@[simp] theorem typeNamed_onTypes (name : String) : (r.onTypes env).typeNamed name = env.typeNamed name := by
  unfold Declarations.typeNamed
  simp only [find?_onTypes, Option.isSome_map]
  split
  · rfl
  split
  · rfl
  · rfl
  · next head part _ _ _ _ =>
    cases env.find? head with
    | none => rfl
    | some d => exact congrArg Except.error (attributeNamed_onTypes d part)
  · rfl

mutual

theorem typeOf_onTypes (ofQuoted : String → Except Unresolved TypeExpr) (t : TypeText) :
    (r.onTypes env).typeOf ofQuoted t = env.typeOf ofQuoted t := by
  cases t with
  | name s => exact typeNamed_onTypes s
  | generic head args => rw [Declarations.typeOf, Declarations.typeOf, typeNamed_onTypes, typesOf_onTypes ofQuoted args]
  | choice members => rw [Declarations.typeOf, Declarations.typeOf, typesOf_onTypes ofQuoted members]
  | _ => rfl

theorem typesOf_onTypes (ofQuoted : String → Except Unresolved TypeExpr) (ts : List TypeText) :
    (r.onTypes env).typesOf ofQuoted ts = env.typesOf ofQuoted ts := by
  cases ts with
  | nil => rfl
  | cons t ts =>
    rw [Declarations.typesOf, Declarations.typesOf, typeOf_onTypes ofQuoted t, typesOf_onTypes ofQuoted ts]

end

theorem lookUpWithin_onTypes (count : Nat) (text : String) :
    (r.onTypes env).lookUpWithin count text = env.lookUpWithin count text := by
  induction count generalizing text with
  | zero => rfl
  | succ count ih =>
    rw [Declarations.lookUpWithin, Declarations.lookUpWithin,
      show Declarations.lookUpWithin (r.onTypes env) count = env.lookUpWithin count from funext ih]
    cases TypeText.parse text with
    | none => rfl
    | some t => exact typeOf_onTypes _ t

@[simp] theorem lookUp_onTypes (m : Option Globals) (text : String) :
    (r.onTypes env).lookUp m text = env.lookUp m text := by
  cases m with
  | none => rw [Declarations.lookUp, Declarations.lookUp, find?_onTypes, Option.isSome_map, lookUpWithin_onTypes]
  | some meaning => rfl

mutual

/-- **References lead to the same types.** -/
theorem resolve_onTypes (m : Option Globals) (t : TypeExpr) : (r.onTypes env).resolve m t = env.resolve m t := by
  cases t with
  | forward text => exact lookUp_onTypes m text
  | container c historic args =>
    cases args with
    | none => rfl
    | some args => rw [Declarations.resolve, Declarations.resolve, resolveList_onTypes m args]
  | extractor e arg =>
    cases arg with
    | none => rfl
    | some arg => rw [Declarations.resolve, Declarations.resolve, resolve_onTypes m arg]
  | unionOf members => rw [Declarations.resolve, Declarations.resolve, resolveList_onTypes m members]
  | wrapped w inner => rw [Declarations.resolve, Declarations.resolve, resolve_onTypes m inner]
  | qualified q inner =>
    cases q <;> simp only [Declarations.resolve, resolve_onTypes m inner]
  | _ => rfl

theorem resolveList_onTypes (m : Option Globals) (ts : List TypeExpr) :
    (r.onTypes env).resolveList m ts = env.resolveList m ts := by
  cases ts with
  | nil => rfl
  | cons t ts =>
    rw [Declarations.resolveList, Declarations.resolveList, resolve_onTypes m t, resolveList_onTypes m ts]

end

@[simp] theorem resolveType_onTypes (a : Annotation) :
    (r.onTypes env).resolveType a = env.resolveType a := resolve_onTypes a.meaning a.type

@[simp] theorem resolveNamed_onTypes (annotations : List (String × Annotation)) :
    (r.onTypes env).resolveNamed annotations = env.resolveNamed annotations := by
  induction annotations with
  | nil => rfl
  | cons e annotations ih =>
    rw [Declarations.resolveNamed, Declarations.resolveNamed, resolveType_onTypes, ih]

@[simp] theorem resolveAll_onTypes (annotations : List (String × Annotation)) :
    (r.onTypes env).resolveAll annotations = env.resolveAll annotations := by
  rw [Declarations.resolveAll, Declarations.resolveAll, resolveNamed_onTypes]

@[simp] theorem held_onTypes (a : Annotation) : (r.onTypes env).held a = env.held a := by
  rw [Declarations.held, Declarations.held, resolveType_onTypes]

/-! ### Descriptions -/

variable {scope : Scope}

theorem describeSimple_onScope (nullable : Bool) (t : TypeExpr) :
    (r.onScope scope).describeSimple nullable t = scope.describeSimple nullable t := by
  unfold Scope.describeSimple onScope
  simp only [tag_onTypes, nameAndFormat_onTypes, enumValues_onTypes]

/-- **Types are described the same**; by induction on the items of arrays. -/
theorem describe_onScope (t : TypeExpr) : (r.onScope scope).describe t = scope.describe t := by
  have htag : ∀ u, (r.onScope scope).types.tag u = scope.types.tag u := fun u => tag_onTypes u
  have hname : ∀ u, (r.onScope scope).types.typeName u = scope.types.typeName u := fun u => typeName_onTypes u
  induction t using Scope.describe.induct scope with
  | case1 t ht => rw [Scope.describe, Scope.describe, htag, if_pos ht, if_pos ht]
  | case2 t ht hp =>
    rw [Scope.describe, Scope.describe, htag, if_neg ht, if_neg ht]
    split
    · rfl
    · next hp' => cases hp.symm.trans hp'
  | case3 t ht nullable payload hp hs =>
    rw [Scope.describe_struct hp hs, Scope.describe_struct hp ((htag payload).trans hs), hname]
  | case4 t ht nullable payload hp ha item hi ih =>
    rw [Scope.describe_items hp ha hi, Scope.describe_items hp ((htag payload).trans ha) hi, ih]
  | case5 t ht nullable payload hp ha hi =>
    have ht' : scope.types.tag t ≠ .nothing := by simpa using ht
    rw [Scope.describe_of_payload? hp ht', Scope.describe_of_payload? hp ((htag t).trans_ne ht')]
    simp only [htag, hi, ha, describeSimple_onScope]
  | case6 t ht nullable payload hp hs ha =>
    have ht' : scope.types.tag t ≠ .nothing := by simpa using ht
    rw [Scope.describe_of_payload? hp ht', Scope.describe_of_payload? hp ((htag t).trans_ne ht')]
    simp only [htag, describeSimple_onScope]

theorem fragment_onScope (t : TypeExpr) : (r.onScope scope).fragment t = scope.fragment t := by
  rw [Scope.fragment, Scope.fragment, describe_onScope]

end Retyping

end RouteDoc
