import RouteDoc.Proofs.FieldOrder
import RouteDoc.Proofs.Lineage

/-!
# Classes without a body

A class that only names its base has the annotations of the base, since annotations are gathered over the whole
lineage.  Defaults and constructors are looked up in the class itself, where there are none.  So the annotations are
all that is left of the fields of the base: each of them stands in its place, without a default, and what the base says
in its constructor is not said of the class.

* `Declarations.IsEmptySubclass` — a class that only names its base;
* `Declarations.fieldsOf_emptySubclass` — its fields;
* `Declarations.shownFields_eq_iff` — when they are those of its base;
* `Declarations.emptySubclass_agrees_iff` — the two lists compared.
-/

namespace RouteDoc

/-- Parameters whose being required is inferred are the same when their names, types and defaults are. -/
theorem Param.infer_eq_infer_none_iff {env : Declarations} {m n : String} {t u : TypeExpr} {default : Option Datum} :
    infer env m t default = infer env n u none ↔ m = n ∧ t = u ∧ default = none := by
  constructor
  · intro h
    have hname : (infer env m t default).name = (infer env n u none).name := by rw [h]
    have htype : (infer env m t default).type = (infer env n u none).type := by rw [h]
    have hdefault : (infer env m t default).hasDefault = (infer env n u none).hasDefault := by rw [h]
    exact ⟨hname, htype, Option.isNone_iff_eq_none.1 (by simpa [infer] using hdefault)⟩
  · rintro ⟨rfl, rfl, rfl⟩
    rfl

namespace Declarations

variable {env : Declarations} {c d : Declaration} {base id : String} {types : List (String × TypeExpr)}
  {own : List Param} {m : Moment}

/-- A class without annotations and without a constructor that derives from one class. -/
structure IsEmptySubclass (d : Declaration) (base : String) : Prop where
  kind : d.kind = .plain none
  fields : d.fields = []
  bases : d.bases = [base]

section Lineage

variable (hfounded : env.Founded) (hd : env.find? id = some d) (hempty : IsEmptySubclass d base)

include hfounded hd hempty

theorem lineage_emptySubclass : env.lineage d.id = d :: env.lineage base := by
  rw [id_of_find? hd]
  exact lineage_of_only_base hfounded hd ((declaredBases_of_plain hempty.kind).trans hempty.bases)

/-- **The annotations of the base are all there are.** -/
theorem annotationTrail_emptySubclass : env.annotationTrail d.id = env.annotationTrail base := by
  have hown : env.moduleAnnotations d = [] := by
    rw [moduleAnnotations, ownAnnotations, hempty.kind, hempty.fields]
    rfl
  rw [annotationTrail, lineage_emptySubclass hfounded hd hempty, List.reverse_cons, List.flatMap_append,
    List.flatMap_singleton, hown, List.append_nil]
  rfl

/-- The class is of the sorts that its base is of. -/
theorem inherits_emptySubclass {p : Kind → Bool} (hp : p (.plain none) = false) :
    env.inherits d.id p = env.inherits base p := by
  rw [inherits, lineage_emptySubclass hfounded hd hempty, List.any_cons, hempty.kind, hp]
  rfl

theorem isPlainClass_emptySubclass (hc : env.find? base = some c) (hplain : env.IsPlainClass c) :
    env.IsPlainClass d := by
  obtain rfl : c.id = base := id_of_find? hc
  have hsorts := fun p hp => inherits_emptySubclass (p := p) hfounded hd hempty hp
  have htuple : env.namedTuple? d.id = env.namedTuple? c.id := by
    rw [namedTuple?, lineage_emptySubclass hfounded hd hempty, List.find?_cons, hempty.kind]
    rfl
  exact {
    noModel := (hsorts _ rfl).trans hplain.noModel
    noDataclass := (hsorts _ rfl).trans hplain.noDataclass
    noTypedDict := (hsorts _ rfl).trans hplain.noTypedDict
    noNamedTuple := htuple.trans hplain.noNamedTuple
    plain := ⟨none, hempty.kind⟩ }

/-- **The fields of a class without a body**: the annotations that its base shows, without defaults. -/
theorem fieldsOf_emptySubclass (hc : env.find? base = some c) (hplain : env.IsPlainClass c)
    (htypes : env.resolveNamed (env.annotationTrail c.id) = .ok types) :
    env.fieldsOf (.declared id) m = .ok ((shownAnnotations types).map fun e => Param.infer env e.1 e.2 none) := by
  have hconstructor : constructorOf d = [] := by rw [constructorOf, hempty.kind]
  have hfound : env.resolveAll (annotated d.meaning (constructorAnnotations d)) = .ok (some []) := by
    rw [constructorAnnotations, hconstructor]
    rfl
  rw [id_of_find? hc, ← annotationTrail_emptySubclass hfounded hd hempty] at htypes
  rw [fieldsOf_plain hd (isPlainClass_emptySubclass hfounded hd hempty hc hplain) htypes hfound, hconstructor]
  show Except.ok (env.shownFields d types []) = _
  rw [shownFields, lastWords_nil, List.filter_nil, List.append_nil]
  refine congrArg Except.ok (List.map_congr_left fun e _ => ?_)
  show env.attributeParam d e = _
  rw [attributeParam, attribute?, hempty.fields]
  rfl

end Lineage

/-! ### Comparing with the base -/

/-- Does a class say no more of an annotation that it shows than its type?  Neither the class sets a default nor its
constructor another type or a default. -/
def SaysOnlyType (c : Declaration) (own : List Param) (e : String × TypeExpr) : Prop :=
  match lastWord? Param.name e.1 own with
  | some p => p.type = e.2 ∧ p.hasDefault = false
  | none => attribute? c e.1 = none

/-- The parameter is one whose being required is inferred. -/
def IsInferred (env : Declarations) (p : Param) : Prop := ∃ default, p = Param.infer env p.name p.type default

theorem shownField_eq_iff (howned : ∀ p ∈ own, env.IsInferred p) (e : String × TypeExpr) :
    (lastWord? Param.name e.1 own).getD (env.attributeParam c e) = Param.infer env e.1 e.2 none ↔
      SaysOnlyType c own e := by
  rw [SaysOnlyType]
  cases hword : lastWord? Param.name e.1 own with
  | none =>
    rw [Option.getD_none, attributeParam, Param.infer_eq_infer_none_iff]
    exact ⟨fun h => h.2.2, fun h => ⟨rfl, rfl, h⟩⟩
  | some p =>
    obtain ⟨default, hp⟩ := howned p (mem_of_lastWord? hword)
    rw [Option.getD_some]
    constructor
    · intro h
      rw [h]
      exact ⟨rfl, rfl⟩
    · rintro ⟨htype, hdefault⟩
      have hnone : default = none := by
        rw [hp] at hdefault
        simpa [Param.infer] using hdefault
      rw [hp, hnone, htype, name_of_lastWord? hword]

/-- Nothing comes after the annotations when the constructor repeats them. -/
theorem rest_eq_nil_iff (names : List String) :
    ((lastWords Param.name own).filter fun p => !names.contains p.name) = [] ↔ ∀ p ∈ own, p.name ∈ names := by
  rw [List.filter_eq_nil_iff]
  constructor
  · intro h p hp
    obtain ⟨q, hword, hname⟩ := exists_lastWord? (List.mem_map_of_mem hp)
    have hq : q ∈ lastWords Param.name own :=
      List.mem_filterMap.2 ⟨p.name, List.mem_eraseDups.2 (List.mem_map_of_mem hp), hword⟩
    simpa [hname] using h q hq
  · intro h p hp
    simpa using h p (mem_of_mem_lastWords hp)

/-- **The fields of a class are its annotations without defaults** exactly when it says only types of them and its
constructor has no other parameters. -/
theorem shownFields_eq_iff (howned : ∀ p ∈ own, env.IsInferred p) :
    env.shownFields c types own = (shownAnnotations types).map (fun e => Param.infer env e.1 e.2 none) ↔
      (∀ e ∈ shownAnnotations types, SaysOnlyType c own e) ∧
        ∀ p ∈ own, p.name ∈ (shownAnnotations types).map Prod.fst := by
  rw [shownFields, ← rest_eq_nil_iff]
  constructor
  · intro h
    have hrest : ((lastWords Param.name own).filter fun p =>
        !((shownAnnotations types).map Prod.fst).contains p.name) = [] := by
      have hlength := congrArg List.length h
      rw [List.length_append, List.length_map, List.length_map] at hlength
      exact List.length_eq_zero_iff.1 (by omega)
    rw [hrest, List.append_nil, List.map_inj_left] at h
    exact ⟨fun e he => (shownField_eq_iff howned e).1 (h e he), hrest⟩
  · rintro ⟨honly, hrest⟩
    rw [hrest, List.append_nil]
    exact List.map_congr_left fun e he => (shownField_eq_iff howned e).2 (honly e he)

theorem inferred_constructorParams (parameters : List Parameter) (types : List (String × TypeExpr)) :
    ∀ p ∈ env.constructorParams parameters types, env.IsInferred p := by
  simp only [constructorParams, List.forall_mem_map]
  exact fun p _ => ⟨p.default, rfl⟩

/-- **When a class without a body has the fields of its base.**  Its fields are the annotations that the base shows,
without defaults.  So they are those of the base exactly when the base says only types of its annotations, neither
setting a default nor taking a parameter with another type or a default, and its constructor takes nothing else. -/
theorem emptySubclass_agrees_iff (hfounded : env.Founded) (hc : env.find? base = some c) (hplain : env.IsPlainClass c)
    (hd : env.find? id = some d) (hempty : IsEmptySubclass d base)
    (htypes : env.resolveNamed (env.annotationTrail c.id) = .ok types) {found : Option (List (String × TypeExpr))}
    (hfound : env.resolveAll (annotated c.meaning (constructorAnnotations c)) = .ok found)
    (hown : own = env.constructorParams (constructorOf c) (found.getD (constructorAnnotations c))) (m : Moment) :
    env.fieldsOf (.declared id) m = .ok ((shownAnnotations types).map fun e => Param.infer env e.1 e.2 none) ∧
      (env.fieldsOf (.declared id) m = env.fieldsOf (.declared base) m ↔
        (∀ e ∈ shownAnnotations types, SaysOnlyType c own e) ∧
          ∀ p ∈ own, p.name ∈ (shownAnnotations types).map Prod.fst) := by
  have hfields := fieldsOf_emptySubclass (m := m) hfounded hd hempty hc hplain htypes
  have howned : ∀ p ∈ own, env.IsInferred p := hown ▸ inferred_constructorParams _ _
  refine ⟨hfields, ?_⟩
  rw [hfields, fieldsOf_plain hc hplain htypes hfound, ← hown, Except.ok.injEq, eq_comm]
  exact shownFields_eq_iff howned

/-! ### A base with a port -/

/-- A class with a host and a port. -/
def portBase (port : Option Default) (constructor : Option (List Parameter)) : Declaration :=
  ⟨"Base", "Base", .plain constructor, [⟨"host", .builtin .str, none, none⟩, ⟨"port", .builtin .int, port, none⟩], [], none⟩

/-- A class that derives from it. -/
def portServer : Declaration := ⟨"Server", "Server", .plain none, [], ["Base"], none⟩

theorem founded_port (port : Option Default) (constructor : Option (List Parameter)) :
    Founded [portBase port constructor, portServer] := by
  refine ⟨fun id => if id = "Server" then 1 else 0, fun id d hd b hb => ?_⟩
  have hid := id_of_find? hd
  rcases List.mem_cons.1 (List.mem_of_find?_eq_some hd) with rfl | hd
  · cases hb
  · rw [List.mem_singleton.1 hd] at hid hb
    obtain rfl : b = "Base" := List.mem_singleton.1 hb
    rw [← hid]
    exact ⟨rfl, by decide⟩

/-- A base whose constructor takes the port once more, with the type of the annotation and without a default. -/
def repeatedPort : Declarations :=
  [portBase none (some [⟨"port", some (.builtin .int), none, .positional⟩]), portServer]

/-- A base that sets a default for the port. -/
def setPort : Declarations := [portBase (some (.shared (.int 8080))) none, portServer]

theorem emptySubclass_agrees_iff_port :
    repeatedPort.Founded ∧ repeatedPort.find? "Server" = some portServer ∧ IsEmptySubclass portServer "Base" ∧
      ∃ c types, repeatedPort.find? "Base" = some c ∧ repeatedPort.IsPlainClass c ∧
        repeatedPort.resolveNamed (repeatedPort.annotationTrail c.id) = .ok types ∧
        ∀ m, repeatedPort.fieldsOf (.declared "Server") m = repeatedPort.fieldsOf (.declared "Base") m := by
  have hfounded : repeatedPort.Founded := founded_port _ _
  have hplain : repeatedPort.IsPlainClass (portBase none (some [⟨"port", some (.builtin .int), none, .positional⟩])) :=
    ⟨rfl, rfl, rfl, rfl, _, rfl⟩
  have hempty : IsEmptySubclass portServer "Base" := ⟨rfl, rfl, rfl⟩
  have htypes : repeatedPort.resolveNamed (repeatedPort.annotationTrail "Base") =
      .ok [("host", .builtin .str), ("port", .builtin .int)] := rfl
  have hfound : repeatedPort.resolveAll [("port", ⟨.builtin .int, none⟩)] =
      .ok (some [("port", .builtin .int)]) := rfl
  have hserver : repeatedPort.find? "Server" = some portServer := rfl
  have hshown : shownAnnotations [("host", .builtin .str), ("port", .builtin .int)] =
      [("host", .builtin .str), ("port", .builtin .int)] := by
    rw [shownAnnotations, lastWords_of_nodup (by decide), List.filter_eq_self]
    simp only [List.forall_mem_cons, isShown]
    exact ⟨by decide +kernel, by decide +kernel, by simp⟩
  refine ⟨hfounded, hserver, hempty, _, _, rfl, hplain, htypes, fun m => ?_⟩
  obtain ⟨-, hagrees⟩ := emptySubclass_agrees_iff hfounded rfl hplain hserver hempty htypes hfound rfl m
  refine hagrees.2 ?_
  rw [hshown]
  refine ⟨?_, ?_⟩
  · simp only [List.forall_mem_cons]
    exact ⟨rfl, ⟨rfl, rfl⟩, by simp⟩
  · intro p hp
    rw [List.mem_singleton.1 hp]
    decide

/-- **A base that sets a default**: the class without a body has the field without it. -/
theorem emptySubclass_loses_default :
    setPort.Founded ∧ setPort.find? "Server" = some portServer ∧ IsEmptySubclass portServer "Base" ∧
      ∃ c types ps qs, setPort.find? "Base" = some c ∧ setPort.IsPlainClass c ∧
        setPort.resolveNamed (setPort.annotationTrail c.id) = .ok types ∧
        setPort.fieldsOf (.declared "Base") (.component 0 "Base") = .ok ps ∧
        ps.map (fun p => (p.name, p.required, p.hasDefault)) = [("host", true, false), ("port", false, true)] ∧
        setPort.fieldsOf (.declared "Server") (.component 0 "Server") = .ok qs ∧
        qs.map (fun p => (p.name, p.required, p.hasDefault)) = [("host", true, false), ("port", true, false)] := by
  have hplain : setPort.IsPlainClass (portBase (some (.shared (.int 8080))) none) := ⟨rfl, rfl, rfl, rfl, _, rfl⟩
  exact ⟨founded_port _ _, rfl, ⟨rfl, rfl, rfl⟩, _, _, _, _, rfl, hplain, rfl, rfl, by decide +kernel, rfl,
    by decide +kernel⟩

end Declarations

end RouteDoc
