import RouteDoc.Proofs.Fields

/-!
# Readers of fields

A structured type is read by at most two readers, one for its class and one for its constructor.  Each resolves
some annotations together; when one of them names nothing, it goes on with other annotations as they stand.  Then it
asks the factories of its fields.

* `Reader` — what is resolved, what is taken otherwise, the fields that are read off it, and the factory that fails;
* `Declarations.readersOf` — the readers of a type;
* `Declarations.fieldsOf_eq` — the fields of a type are those of its readers, with distinct names.
-/

namespace RouteDoc

/-- One way to read fields off annotations. -/
structure Reader where
  /-- What is resolved together. -/
  annotations : List (String × Annotation)
  /-- What is taken as it stands when an annotation names nothing. -/
  fallback : List (String × TypeExpr)
  fields : List (String × TypeExpr) → List Param
  /-- The failure of the first factory that fails. -/
  fault : Option Failure := none

namespace Reader

/-- Every annotation leads to a type. -/
def Resolves (env : Declarations) (x : Reader) : Prop := ∃ types, env.resolveNamed x.annotations = .ok types

theorem resolves_iff {env : Declarations} {x : Reader} :
    x.Resolves env ↔ (env.resolveNamed x.annotations).toBool = true := by
  unfold Resolves
  cases env.resolveNamed x.annotations <;> simp [Except.toBool]

instance (env : Declarations) (x : Reader) : Decidable (x.Resolves env) := decidable_of_iff' _ resolves_iff

/-- The fields that a reader gives. -/
def read (env : Declarations) (x : Reader) : Except Failure (List Param) := do
  let types ← env.resolveAll x.annotations
  match x.fault with
  | some f => .error f
  | none => .ok (x.fields (types.getD x.fallback))

/-- A reader that resolves nothing and asks no factory. -/
def fixed (ps : List Param) : Reader where
  annotations := []
  fallback := []
  fields _ := ps

end Reader

namespace Declarations

variable {env : Declarations} {m : Moment}

/-- The fields of several readers, one after another. -/
def readAll (env : Declarations) : List Reader → Except Failure (List Param)
  | [] => .ok []
  | x :: rest => do
    let ps ← x.read env
    .ok (ps ++ (← env.readAll rest))

theorem readAll_singleton (x : Reader) : env.readAll [x] = x.read env := by
  cases hx : x.read env <;> simp [readAll, hx, Bind.bind, Except.bind]

/-! ### The readers of each kind -/

def dataclassReader (env : Declarations) (d : Declaration) (m : Moment) : Reader where
  annotations := env.annotationTrail d.id
  fallback := env.ownAnnotations d
  fields types := (env.dataclassFields d.id).map fun (name, a, default) =>
    Param.infer env name (((putAllNamed types []).lookup name).getD a.type) (default.map (Default.datum m))
  fault := ((env.dataclassFields d.id).filterMap fun (_, _, default) => default).findSome? (Default.fault? m)

def modelReader (env : Declarations) (d : Declaration) (m : Moment) : Reader where
  annotations := []
  fallback := []
  fields _ := (env.modelFields d.id).map fun (_, f) =>
    { name := publicName f
      type := bareFieldType f.type
      required := f.default.isNone
      hasDefault := f.default.isSome
      default := (f.default.map (Default.datum m)).getD .null }
  fault := ((env.modelFields d.id).filterMap fun (_, f) => f.default).findSome? (Default.fault? m)

def dictReader (env : Declarations) (d : Declaration) : Reader where
  annotations := (env.dictKeys (env.length + 1) d.id).map fun (name, a, _) => (name, a)
  fallback := rawTypes ((env.dictKeys (env.length + 1) d.id).map fun (name, a, _) => (name, a))
  fields types := (env.dictKeys (env.length + 1) d.id).map fun (name, a, required) =>
    { name
      type := (types.lookup name).getD a.type
      required
      hasDefault := false
      default := .null }

def tupleReader (env : Declarations) (d tuple : Declaration) : Reader where
  annotations := env.annotationTrail d.id
  fallback := env.ownAnnotations d
  fields types := tuple.fields.map fun f =>
    Param.infer env f.name (((putAllNamed types []).lookup f.name).getD .any) (f.default.bind Default.attribute?)

def attributeReader (env : Declarations) (d : Declaration) : Reader where
  annotations := env.annotationTrail d.id
  fallback := env.ownAnnotations d
  fields types := ((putAllNamed types []).filter fun (name, t) => isShown name t).map fun (name, t) =>
    Param.infer env name t (attribute? d name)

def constructorReader (env : Declarations) (meaning : Option Globals) (parameters : List Parameter) : Reader where
  annotations := annotated meaning (signatureAnnotations parameters none)
  fallback := signatureAnnotations parameters none
  fields types := (parameters.filter fun p => p.passing != .gathered).map fun p =>
    Param.infer env p.name ((types.lookup p.name).getD .any) p.default

theorem typeHints_eq (env : Declarations) (d : Declaration) :
    env.typeHints d = (env.resolveAll (env.annotationTrail d.id)).map fun types =>
      putAllNamed (types.getD (env.ownAnnotations d)) [] := by
  unfold typeHints
  cases env.resolveAll (env.annotationTrail d.id) with
  | error f => rfl
  | ok types => cases types <;> rfl

theorem dataclassParams_eq (env : Declarations) (d : Declaration) (m : Moment) :
    env.dataclassParams d m = (env.dataclassReader d m).read env := by
  unfold dataclassParams
  rw [typeHints_eq]
  unfold Reader.read dataclassReader
  cases env.resolveAll (env.annotationTrail d.id) <;> rfl

theorem modelParams_eq (env : Declarations) (d : Declaration) (m : Moment) :
    env.modelParams d m = (env.modelReader d m).read env := rfl

theorem dictParams_eq (env : Declarations) (d : Declaration) :
    env.dictParams d = (env.dictReader d).read env := rfl

theorem tupleParams_eq (env : Declarations) (d tuple : Declaration) :
    env.tupleParams d tuple = (env.tupleReader d tuple).read env := by
  unfold tupleParams
  rw [typeHints_eq]
  unfold Reader.read tupleReader
  cases env.resolveAll (env.annotationTrail d.id) <;> rfl

theorem signatureParams_eq (env : Declarations) (meaning : Option Globals) (parameters : List Parameter) :
    env.signatureParams ⟨parameters, none, meaning⟩ = (env.constructorReader meaning parameters).read env := by
  unfold signatureParams signatureHints Reader.read constructorReader
  dsimp only
  cases env.resolveAll (annotated meaning (signatureAnnotations parameters none)) <;> rfl

/-- The readers of any other class. -/
def classReaders (env : Declarations) (d : Declaration) : List Reader :=
  env.attributeReader d :: match d.kind with
    | .plain (some parameters) => [env.constructorReader d.meaning parameters]
    | _ => []

theorem classParams_eq (env : Declarations) (d : Declaration) :
    env.classParams d = env.readAll (env.classReaders d) := by
  have hattributes : (env.attributeReader d).read env =
      (env.typeHints d).map fun hints => (hints.filter fun (name, t) => isShown name t).map fun (name, t) =>
        Param.infer env name t (attribute? d name) := by
    rw [typeHints_eq]
    unfold Reader.read attributeReader
    cases env.resolveAll (env.annotationTrail d.id) <;> rfl
  unfold classParams classReaders
  rw [readAll, hattributes]
  cases env.typeHints d with
  | error f => rfl
  | ok hints =>
    cases hk : d.kind with
    | plain constructor =>
      cases constructor with
      | none => simp [Bind.bind, Except.bind, Except.map, readAll]
      | some parameters =>
        simp only [signatureParams_eq, readAll_singleton]
        rfl
    | _ => simp [Bind.bind, Except.bind, Except.map, readAll]

/-! ### The readers of a type -/

/-- The readers of a declared type. -/
def declaredReaders (env : Declarations) (d : Declaration) (m : Moment) : List Reader :=
  if env.isModel d.id then [env.modelReader d m]
  else if env.isDataclass d.id then [env.dataclassReader d m]
  else if env.isTypedDict d.id then [env.dictReader d]
  else match env.namedTuple? d.id, d.kind with
    | some tuple, _ => [env.tupleReader d tuple]
    | none, .enumeration _ _ => []
    | none, _ => env.classReaders d

theorem declaredParams_eq (env : Declarations) (d : Declaration) (m : Moment) :
    env.declaredParams d m = env.readAll (env.declaredReaders d m) := by
  unfold declaredParams declaredReaders
  split
  · rw [readAll_singleton, modelParams_eq]
  split
  · rw [readAll_singleton, dataclassParams_eq]
  split
  · rw [readAll_singleton, dictParams_eq]
  cases env.namedTuple? d.id with
  | some tuple => exact (tupleParams_eq env d tuple).trans (readAll_singleton _).symm
  | none =>
    cases hk : d.kind with
    | enumeration base members => rfl
    | _ => exact classParams_eq env d

/-- The readers of a type at a moment; a type that is no class has none. -/
def readersOf (env : Declarations) (m : Moment) : TypeExpr → List Reader
  | .declared id => ((env.find? id).map fun d => env.declaredReaders d m).getD []
  | .extractor e none => [.fixed (env.bareExtractorParams e)]
  | _ => []

/-- **The fields of a type are those of its readers**, each name at its first place with its last field. -/
theorem fieldsOf_eq (env : Declarations) (t : TypeExpr) (m : Moment) :
    env.fieldsOf t m = (env.readAll (env.readersOf m t)).map Param.distinct := by
  cases t with
  | declared id =>
    rw [fieldsOf, readersOf]
    cases env.find? id with
    | none => rfl
    | some d =>
      show (env.declaredParams d m >>= fun ps => Except.ok (Param.distinct ps)) = _
      rw [declaredParams_eq]
      rfl
  | extractor e arg =>
    cases arg with
    | some arg => rfl
    | none =>
      rw [readersOf, readAll_singleton]
      cases e <;> rfl
  | _ => rfl

end Declarations

end RouteDoc
