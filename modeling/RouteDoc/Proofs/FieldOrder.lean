import RouteDoc.Proofs.LastWords
import RouteDoc.Proofs.Readers

/-!
# The order of fields

A structured type may declare a name more than once: a class after its bases, a constructor after the annotations, a
model under one public name for two fields.  Every reader hands on what it finds, and the fields of the type are what
is declared, every name at its first place with its last word.  What this comes to is said for the kinds whose
readers go through several declarations: plain classes with their constructors, models, dictionaries with fixed keys
and dataclasses, the latter two by the trail of all that they and their bases declare.

* `Param.Sums` — fields that are what is declared, with distinct names;
* `lastWords_append_of_nodup` — what is declared later, within a list and after it;
* `Declarations.fieldsOf_plain` — plain classes;
* `Declarations.dictKeys_eq`, `Declarations.dataclassEntries_eq` — the trails;
* `Declarations.fields_by_name` — the fields of a declared type of any kind.
-/

namespace RouteDoc

/-! ### Declared and declared again -/

section Again

variable {α : Type} {name : α → String} {as bs : List α}

theorem eraseDups_filter (p : String → Bool) (ns : List String) : (ns.filter p).eraseDups = ns.eraseDups.filter p := by
  induction ns using List.reverseRecOn with
  | nil => rfl
  | append_singleton ns n ih =>
    rw [List.filter_append, eraseDups_snoc]
    cases hp : p n with
    | false =>
      rw [List.filter_singleton, hp, cond_false, List.append_nil, ih]
      split
      · rfl
      · simp [hp]
    | true =>
      rw [List.filter_singleton, hp, cond_true, eraseDups_snoc, ih]
      by_cases hn : n ∈ ns <;> simp [hn, hp]

theorem filter_lastWords (p : String → Bool) (as : List α) :
    (lastWords name as).filter (fun a => p (name a)) = lastWords name (as.filter fun a => p (name a)) := by
  have hmap : ((lastWords name as).filter fun a => p (name a)).map name =
      ((lastWords name as).map name).filter p := by
    rw [List.filter_map]
    rfl
  have hword : ∀ n, p n = true →
      lastWord? name n (as.filter fun a => p (name a)) = lastWord? name n as := by
    intro n hn
    rw [lastWord?, ← List.filter_reverse, List.find?_filter]
    refine congrArg (List.find? · as.reverse) (funext fun a => ?_)
    cases ha : name a == n with
    | false => simp
    | true => simp [eq_of_beq ha, hn]
  refine eq_lastWords_iff.2 ⟨?_, fun a ha => ?_⟩
  · rw [hmap, names_lastWords, ← eraseDups_filter, List.filter_map]
    rfl
  · obtain ⟨ha, hp⟩ := List.mem_filter.1 ha
    rw [hword _ hp, lastWord?_of_mem_lastWords ha]

/-- **What is declared after a list with distinct names** takes the place of its name there, and the rest comes after
the list. -/
theorem lastWords_append_of_nodup (h : (as.map name).Nodup) : lastWords name (as ++ bs) =
    as.map (fun a => (lastWord? name (name a) bs).getD a) ++
      (lastWords name bs).filter fun b => !(as.map name).contains (name b) := by
  have hname : ∀ a, name ((lastWord? name (name a) bs).getD a) = name a := by
    intro a
    cases hword : lastWord? name (name a) bs with
    | none => rfl
    | some b => exact name_of_lastWord? hword
  refine (eq_lastWords_iff.2 ⟨?_, fun b hb => ?_⟩).symm
  · rw [List.map_append, List.map_append, List.eraseDups_append, eraseDups_of_nodup h, List.removeAll,
      filter_lastWords fun n => !(as.map name).contains n, names_lastWords, List.map_map, List.filter_map]
    exact congrArg₂ _ (List.map_congr_left fun a _ => hname a) rfl
  · rw [lastWord?_append]
    rcases List.mem_append.1 hb with hb | hb
    · obtain ⟨a, ha, rfl⟩ := List.mem_map.1 hb
      rw [hname]
      cases hword : lastWord? name (name a) bs with
      | none => exact lastWord?_of_nodup h ha
      | some b => rfl
    · rw [lastWord?_of_mem_lastWords (List.mem_filter.1 hb).1]
      rfl

end Again

namespace Declarations

variable {env : Declarations} {d : Declaration} {id : String} {types : List (String × TypeExpr)} {m : Moment}

theorem fieldsOf_of_find? (hd : env.find? id = some d) :
    env.fieldsOf (.declared id) m = (env.declaredParams d m).map Param.distinct := by
  rw [fieldsOf, hd]
  show (env.declaredParams d m >>= fun ps => Except.ok (Param.distinct ps)) = _
  cases env.declaredParams d m <;> rfl

/-- A class of none of the special sorts. -/
structure IsPlainClass (env : Declarations) (d : Declaration) : Prop where
  noModel : env.isModel d.id = false
  noDataclass : env.isDataclass d.id = false
  noTypedDict : env.isTypedDict d.id = false
  noNamedTuple : env.namedTuple? d.id = none
  plain : ∃ constructor, d.kind = .plain constructor

/-- The parameters of the constructor of a class, none if it has no constructor of its own. -/
def constructorOf (d : Declaration) : List Parameter :=
  match d.kind with
  | .plain (some parameters) => parameters
  | _ => []

/-- The annotations that a class shows, given those of its lineage: public and no class variables, the furthest
ancestor's first, with the type that is declared last. -/
def shownAnnotations (types : List (String × TypeExpr)) : List (String × TypeExpr) :=
  (lastWords Prod.fst types).filter fun e => isShown e.1 e.2

/-- The field of an annotation: with the default that the class itself sets. -/
def attributeParam (env : Declarations) (d : Declaration) (e : String × TypeExpr) : Param :=
  Param.infer env e.1 e.2 (attribute? d e.1)

/-- The fields of a constructor: its parameters but those that gather the rest of the arguments. -/
def constructorParams (env : Declarations) (parameters : List Parameter) (types : List (String × TypeExpr)) :
    List Param :=
  (parameters.filter fun p => p.passing != .gathered).map fun p =>
    Param.infer env p.name ((types.lookup p.name).getD .any) p.default

/-- The fields of a class: the annotations that it shows, each as the constructor has it if it does, and then the rest
of the constructor. -/
def shownFields (env : Declarations) (d : Declaration) (types : List (String × TypeExpr)) (own : List Param) :
    List Param :=
  (shownAnnotations types).map (fun e => (lastWord? Param.name e.1 own).getD (env.attributeParam d e)) ++
    (lastWords Param.name own).filter fun p => !((shownAnnotations types).map Prod.fst).contains p.name

theorem nodup_shownAnnotations (types : List (String × TypeExpr)) : ((shownAnnotations types).map Prod.fst).Nodup :=
  (List.Sublist.map _ List.filter_sublist).nodup (nodup_lastWords Prod.fst types)

theorem resolveAll_of_resolveNamed {annotations : List (String × Annotation)}
    (h : env.resolveNamed annotations = .ok types) : env.resolveAll annotations = .ok (some types) := by
  rw [resolveAll, h]

/-- What a class without a constructor of its own reads off it: nothing. -/
theorem readAll_classReaders (env : Declarations) (d : Declaration) :
    env.readAll (env.classReaders d) =
      env.readAll [env.attributeReader d, env.constructorReader d.meaning (constructorOf d)] := by
  have hnone : env.readAll [env.attributeReader d] =
      env.readAll [env.attributeReader d, env.constructorReader d.meaning []] := rfl
  unfold classReaders constructorOf
  cases d.kind with
  | plain constructor =>
    cases constructor with
    | none => exact hnone
    | some parameters => rfl
  | _ => exact hnone

/-- The parameters of the constructor of a class as they are annotated. -/
def constructorAnnotations (d : Declaration) : List (String × TypeExpr) := signatureAnnotations (constructorOf d) none

theorem declaredParams_plain (hplain : env.IsPlainClass d) : env.declaredParams d m = env.classParams d := by
  obtain ⟨constructor, hkind⟩ := hplain.plain
  rw [declaredParams, hplain.noModel, hplain.noDataclass, hplain.noTypedDict, hplain.noNamedTuple, hkind]
  rfl

/-- **The fields of a plain class**, once its annotations lead to types. -/
theorem fieldsOf_plain (hd : env.find? id = some d) (hplain : env.IsPlainClass d)
    (htypes : env.resolveNamed (env.annotationTrail d.id) = .ok types) {found : Option (List (String × TypeExpr))}
    (hfound : env.resolveAll (annotated d.meaning (constructorAnnotations d)) = .ok found) :
    env.fieldsOf (.declared id) m = .ok (env.shownFields d types
      (env.constructorParams (constructorOf d) (found.getD (constructorAnnotations d)))) := by
  have hattributes : (env.attributeReader d).read env = .ok ((shownAnnotations types).map (env.attributeParam d)) := by
    rw [Reader.read, attributeReader, resolveAll_of_resolveNamed htypes, shownAnnotations, ← putAllNamed_eq]
    rfl
  have hconstructor : (env.constructorReader d.meaning (constructorOf d)).read env =
      .ok (env.constructorParams (constructorOf d) (found.getD (constructorAnnotations d))) := by
    rw [Reader.read, constructorReader]
    show (env.resolveAll (annotated d.meaning (constructorAnnotations d)) >>= _) = _
    rw [hfound]
    rfl
  have hnames : ((shownAnnotations types).map (env.attributeParam d)).map Param.name =
      (shownAnnotations types).map Prod.fst := by
    rw [List.map_map]
    rfl
  have hnodup : (((shownAnnotations types).map (env.attributeParam d)).map Param.name).Nodup := by
    rw [hnames]
    exact nodup_shownAnnotations types
  rw [fieldsOf_of_find? hd, declaredParams_plain hplain, classParams_eq, readAll_classReaders, readAll,
    readAll_singleton, hattributes, hconstructor]
  show Except.ok (Param.distinct _) = _
  rw [Param.distinct_eq, lastWords_append_of_nodup hnodup, hnames, List.map_map]
  rfl

/-! ### Trails -/

/-- The keys that a dictionary type itself declares, with their types and whether each is required. -/
def ownKeys (d : Declaration) : List (String × Annotation × Bool) :=
  let total := match d.kind with
    | .typedDict total => total
    | _ => true
  d.fields.map fun f => (f.name, ⟨f.type, d.meaning⟩, keyRequirement total f.type)

/-- The keys that the bases of a dictionary type and the type declare, repetitions included.  The count bounds the
depth. -/
def dictTrail (env : Declarations) : Nat → String → List (String × Annotation × Bool)
  | 0, _ => []
  | fuel + 1, id =>
    match env.find? id with
    | none => []
    | some d => d.bases.flatMap (dictTrail env fuel) ++ ownKeys d

/-- **The keys of a dictionary type are its trail.** -/
theorem dictKeys_eq (env : Declarations) (fuel : Nat) (id : String) :
    env.dictKeys fuel id = lastWords Prod.fst (env.dictTrail fuel id) := by
  induction fuel generalizing id with
  | zero => rfl
  | succ fuel ih =>
    rw [dictKeys, dictTrail]
    cases env.find? id with
    | none => rfl
    | some d =>
      have hbases := foldl_putAllNamed (env.dictTrail fuel) d.bases []
      simp only [lastWords_nil, List.nil_append] at hbases
      simp only [ih, hbases, putAllNamed_lastWords]
      rfl

/-- What the ancestors of a dataclass and the class declare, with types and defaults, repetitions included; a class
that only derives from dataclasses has the trail of the nearest.  The count bounds the depth. -/
def dataclassTrail (env : Declarations) : Nat → String → List (String × Annotation × Option Default)
  | 0, _ => []
  | fuel + 1, id =>
    match env.lineage id with
    | [] => []
    | d :: ancestors =>
      match d.kind with
      | .dataclass =>
        ancestors.reverse.flatMap (fun a => dataclassTrail env fuel a.id) ++
          d.fields.map fun f => (f.name, ⟨f.type, d.meaning⟩, dataclassDefault ancestors f)
      | _ =>
        match ancestors.find? fun a => match a.kind with | .dataclass => true | _ => false with
        | some nearest => dataclassTrail env fuel nearest.id
        | none => []

/-- **The annotations of a dataclass are its trail.** -/
theorem dataclassEntries_eq (env : Declarations) (fuel : Nat) (id : String) :
    env.dataclassEntries fuel id = lastWords Prod.fst (env.dataclassTrail fuel id) := by
  induction fuel generalizing id with
  | zero => rfl
  | succ fuel ih =>
    rw [dataclassEntries, dataclassTrail]
    cases env.lineage id with
    | nil => rfl
    | cons d ancestors =>
      have hancestors := foldl_putAllNamed (fun a : Declaration => env.dataclassTrail fuel a.id) ancestors.reverse []
      simp only [lastWords_nil, List.nil_append] at hancestors
      simp only [ih, hancestors, putAllNamed_lastWords]
      cases d.kind with
      | dataclass => rfl
      | _ => cases ancestors.find? _ <;> rfl

/-! ### Fields of every kind -/

/-- The field of a model at a moment. -/
def modelParam (m : Moment) (f : FieldDecl) : Param where
  name := publicName f
  type := bareFieldType f.type
  required := f.default.isNone
  hasDefault := f.default.isSome
  default := (f.default.map (Default.datum m)).getD .null

/-- The defaults of the fields of a model. -/
def modelDefaults (env : Declarations) (d : Declaration) : List Default :=
  (env.modelFields d.id).filterMap fun e => e.2.default

theorem modelParams_eq_unlessFault (env : Declarations) (d : Declaration) (m : Moment) : env.modelParams d m =
    unlessFault m (env.modelDefaults d) ((env.modelFields d.id).map fun e => modelParam m e.2) := rfl

/-- The annotations of a dataclass, each with its last word, that are annotations of instances. -/
def instanceTrail (env : Declarations) (d : Declaration) : List (String × Annotation × Option Default) :=
  (lastWords Prod.fst (env.dataclassTrail (env.length + 1) d.id)).filter fun e => isInstanceType (env.held e.2.1)

theorem dataclassFields_eq (env : Declarations) (d : Declaration) :
    env.dataclassFields d.id = env.instanceTrail d := by
  rw [dataclassFields, instanceTrail, ← dataclassEntries_eq]

end Declarations

end RouteDoc
