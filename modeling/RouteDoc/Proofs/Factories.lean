import RouteDoc.Operation
import RouteDoc.Proofs.FieldOrder

/-!
# Factories of defaults

A factory is asked each time that the fields of a type are read, and nothing binds it to give what it gave before, or
to give anything.  Fields are fields of a moment for that reason.  What is left to know of the factories of a program
is whether they are steady: whether each gives the same, or fails alike, whenever it is asked.

* `Default.IsSteady`, `Declarations.SteadyFactories` — factories that always give the same;
* `Declarations.fieldsOf_steady` — the fields of a type are the same at all moments, when factories are steady;
* `Declarations.fault_of_fieldsOf_eq_error` — fields cannot be read where a text cannot, or where a factory fails;
* `Scope.atTime`, `Scope.operation_atTime` — a call at another time.
-/

namespace RouteDoc

/-- The default is the same, or fails alike, whenever it is asked for. -/
def Default.IsSteady (d : Default) : Prop := ∀ m m', d.give m = d.give m'

theorem Default.isSteady_shared (d : Datum) : (shared d).IsSteady := fun _ _ => rfl

theorem Default.isSteady_fresh (d : Datum) : (fresh d).IsSteady := fun _ _ => rfl

/-- A pair that was put is new or was there. -/
theorem mem_of_mem_putNamed {α : Type} {name : String} {a : α} {l : List (String × α)} {e : String × α}
    (h : e ∈ putNamed name a l) : e = (name, a) ∨ e ∈ l := by
  induction l with
  | nil => exact .inl (List.mem_singleton.1 h)
  | cons b l ih =>
    rw [putNamed] at h
    split at h
    · exact (List.mem_cons.1 h).imp_right (List.mem_cons_of_mem _)
    · rcases List.mem_cons.1 h with rfl | h
      · exact .inr List.mem_cons_self
      · exact (ih h).imp_right (List.mem_cons_of_mem _)

theorem mem_of_mem_putAllNamed {α : Type} {pairs onto : List (String × α)} {e : String × α}
    (h : e ∈ putAllNamed pairs onto) : e ∈ pairs ∨ e ∈ onto := by
  induction pairs generalizing onto with
  | nil => exact .inr h
  | cons p pairs ih =>
    rcases ih h with h | h
    · exact .inl (List.mem_cons_of_mem _ h)
    · rcases mem_of_mem_putNamed h with rfl | h
      · exact .inl List.mem_cons_self
      · exact .inr h

theorem mem_of_mem_foldl_putAllNamed {α β : Type} {f : β → List (String × α)} {bs : List β} {onto : List (String × α)}
    {e : String × α} (h : e ∈ bs.foldl (fun out b => putAllNamed (f b) out) onto) :
    (∃ b ∈ bs, e ∈ f b) ∨ e ∈ onto := by
  induction bs generalizing onto with
  | nil => exact .inr h
  | cons b bs ih =>
    rcases ih h with ⟨c, hc, he⟩ | h
    · exact .inl ⟨c, List.mem_cons_of_mem _ hc, he⟩
    · exact (mem_of_mem_putAllNamed h).imp_left fun he => ⟨b, List.mem_cons_self, he⟩

theorem mem_of_lookup_eq_some {α : Type} {name : String} {a : α} {l : List (String × α)}
    (h : l.lookup name = some a) : (name, a) ∈ l := by
  obtain ⟨before, after, rfl, -⟩ := List.lookup_eq_some_iff.1 h
  simp

namespace Declarations

variable {env : Declarations} {d : Declaration} {m m' : Moment} {default : Default}

/-! ### Where defaults come from -/

/-- The default is an attribute of a class, or one that a declared field names. -/
def Brings (env : Declarations) (default : Default) : Prop :=
  (∃ v, default = .shared v) ∨ ∃ d ∈ env, ∃ f ∈ d.fields, f.default = some default

/-- Every factory of a declared field gives the same whenever it is asked. -/
def SteadyFactories (env : Declarations) : Prop :=
  ∀ d ∈ env, ∀ f ∈ d.fields, ∀ default, f.default = some default → default.IsSteady

theorem SteadyFactories.brings (h : env.SteadyFactories) (hbrings : env.Brings default) : default.IsSteady := by
  rcases hbrings with ⟨v, rfl⟩ | ⟨d, hd, f, hf, hdefault⟩
  · exact Default.isSteady_shared v
  · exact h d hd f hf default hdefault

theorem mem_of_find? {id : String} (h : env.find? id = some d) : d ∈ env := List.mem_of_find?_eq_some h

theorem mem_of_mem_lineage {id : String} (h : d ∈ env.lineage id) : d ∈ env := by
  obtain ⟨a, -, ha⟩ := List.mem_filterMap.1 h
  exact mem_of_find? ha

theorem brings_dataclassDefault {ancestors : List Declaration} {f : FieldDecl} (hd : d ∈ env) (hf : f ∈ d.fields)
    (h : dataclassDefault ancestors f = some default) : env.Brings default := by
  rcases Option.or_eq_some_iff.1 h with h | ⟨-, h⟩
  · exact .inr ⟨d, hd, f, hf, h⟩
  · obtain ⟨v, -, rfl⟩ := Option.map_eq_some_iff.1 h
    exact .inl ⟨v, rfl⟩

theorem brings_dataclassTrail {fuel : Nat} {id : String} {e : String × Annotation × Option Default}
    (he : e ∈ env.dataclassTrail fuel id) (h : e.2.2 = some default) : env.Brings default := by
  induction fuel generalizing id with
  | zero => cases he
  | succ fuel ih =>
    rw [dataclassTrail] at he
    split at he
    · cases he
    · next d ancestors hlineage =>
      split at he
      · rcases List.mem_append.1 he with he | he
        · obtain ⟨a, -, he⟩ := List.mem_flatMap.1 he
          exact ih he
        · obtain ⟨f, hf, rfl⟩ := List.mem_map.1 he
          exact brings_dataclassDefault (mem_of_mem_lineage (hlineage ▸ List.mem_cons_self)) hf h
      · split at he
        · exact ih he
        · cases he

theorem brings_dataclassFields (h : default ∈ (env.dataclassFields d.id).filterMap fun e => e.2.2) :
    env.Brings default := by
  obtain ⟨e, he, hdefault⟩ := List.mem_filterMap.1 h
  rw [dataclassFields_eq] at he
  exact brings_dataclassTrail (mem_of_mem_lastWords (List.mem_filter.1 he).1) hdefault

theorem brings_ownField {f : FieldDecl} {seen : Option Datum} (hd : d ∈ env) (hf : f ∈ d.fields)
    (h : (ownField (env.heldField d f) seen).default = some default) : env.Brings default := by
  unfold ownField at h
  split at h
  · exact .inl ⟨_, (Option.some.inj h).symm⟩
  · exact .inr ⟨d, hd, f, hf, h⟩

theorem brings_inheritedField {name : String} {type : TypeExpr} {seen : Option Datum} {ofBase : Option FieldDecl}
    (hbase : ∀ f, ofBase = some f → f.default = some default → env.Brings default)
    (h : (inheritedField name type seen ofBase).default = some default) : env.Brings default := by
  unfold inheritedField at h
  split at h
  · exact .inl ⟨_, (Option.some.inj h).symm⟩
  · exact hbase _ rfl h
  · cases h

theorem brings_modelFieldsWithin {fuel : Nat} {id : String} {e : String × FieldDecl}
    (he : e ∈ env.modelFieldsWithin fuel id) (h : e.2.default = some default) : env.Brings default := by
  induction fuel generalizing id e with
  | zero => cases he
  | succ fuel ih =>
    rw [modelFieldsWithin] at he
    split at he
    · cases he
    · next d hd =>
      obtain ⟨⟨name, type⟩, -, hfound⟩ := List.mem_filterMap.1 he
      obtain ⟨-, hfound⟩ := Option.ite_none_right_eq_some.1 hfound
      cases hfound
      cases hown : d.fields.find? fun f => f.name == name with
      | some f =>
        simp only [hown] at h
        exact brings_ownField (mem_of_find? hd) (List.mem_of_find?_eq_some hown) h
      | none =>
        simp only [hown] at h
        refine brings_inheritedField (fun f hbase hdefault => ?_) h
        -- a field of a base is one that the base has in turn
        rcases mem_of_mem_foldl_putAllNamed (mem_of_lookup_eq_some hbase) with ⟨b, -, hb⟩ | hb
        · split at hb
          · exact ih hb hdefault
          · cases hb
        · cases hb

theorem brings_modelFields (h : default ∈ (env.modelFields d.id).filterMap fun e => e.2.default) :
    env.Brings default := by
  obtain ⟨e, he, hdefault⟩ := List.mem_filterMap.1 h
  exact brings_modelFieldsWithin he hdefault

/-! ### Fields at different moments -/

theorem unlessFault_steady {defaults : List Default} (h : ∀ default ∈ defaults, default.IsSteady) (m m' : Moment)
    (ps : List Param) : unlessFault m defaults ps = unlessFault m' defaults ps := by
  have hfault : defaults.filterMap (Default.fault? m) = defaults.filterMap (Default.fault? m') :=
    List.filterMap_congr fun default hin => by simp only [Default.fault?, h default hin m m']
  rw [unlessFault, unlessFault, ← List.head?_filterMap, ← List.head?_filterMap, hfault]

/-- A steady default is one datum at all moments. -/
theorem map_datum_steady {default : Option Default} (h : ∀ x, default = some x → x.IsSteady) (m m' : Moment) :
    default.map (Default.datum m) = default.map (Default.datum m') := by
  cases default with
  | none => rfl
  | some x => exact congrArg some (by rw [Default.datum, Default.datum, h x rfl m m'])

theorem dataclassParams_steady (h : env.SteadyFactories) (m m' : Moment) :
    env.dataclassParams d m = env.dataclassParams d m' := by
  have hsteady : ∀ default ∈ (env.dataclassFields d.id).filterMap (fun e => e.2.2), default.IsSteady :=
    fun default hin => h.brings (brings_dataclassFields hin)
  unfold dataclassParams
  refine bind_congr fun hints => (unlessFault_steady hsteady m m' _).trans (congrArg (unlessFault m' _) ?_)
  exact List.map_congr_left fun e he => congrArg (Param.infer env e.1 _)
    (map_datum_steady (fun x hx => hsteady x (List.mem_filterMap.2 ⟨e, he, hx⟩)) m m')

theorem modelParams_steady (h : env.SteadyFactories) (m m' : Moment) :
    env.modelParams d m = env.modelParams d m' := by
  have hsteady : ∀ default ∈ env.modelDefaults d, default.IsSteady :=
    fun default hin => h.brings (brings_modelFields hin)
  rw [modelParams_eq_unlessFault, modelParams_eq_unlessFault]
  refine (unlessFault_steady hsteady m m' _).trans (congrArg (unlessFault m' _) ?_)
  exact List.map_congr_left fun e he => by
    rw [modelParam, modelParam, map_datum_steady (fun x hx => hsteady x (List.mem_filterMap.2 ⟨e, he, hx⟩)) m m']

/-- **The fields of a type are the same at all moments**, when factories are steady. -/
theorem fieldsOf_steady (h : env.SteadyFactories) (t : TypeExpr) (m m' : Moment) :
    env.fieldsOf t m = env.fieldsOf t m' := by
  have hdeclared : ∀ d, env.declaredParams d m = env.declaredParams d m' := fun d => by
    unfold declaredParams
    rw [dataclassParams_steady h m m', modelParams_steady h m m']
  unfold fieldsOf
  simp only [hdeclared]

/-! ### Fields that cannot be read -/

/-- The failure is that of a declared factory at a moment. -/
def IsFault (env : Declarations) (m : Moment) (f : Failure) : Prop :=
  ∃ d ∈ env, ∃ field ∈ d.fields, field.default.bind (Default.fault? m) = some f

theorem Brings.isFault {f : Failure} (h : env.Brings default) (hfault : default.fault? m = some f) :
    env.IsFault m f := by
  rcases h with ⟨v, rfl⟩ | ⟨d, hd, field, hfield, hdefault⟩
  · cases hfault
  · exact ⟨d, hd, field, hfield, by rw [hdefault]; exact hfault⟩

/-- Some annotations stand in modules of declared types. -/
def InModules (env : Declarations) (annotations : List (String × Annotation)) : Prop :=
  ∀ e ∈ annotations, e.2.meaning ∈ env.modules

theorem meaning_of_mem_annotated {meaning : Option Globals} {types : List (String × TypeExpr)}
    {e : String × Annotation} (h : e ∈ annotated meaning types) : e.2.meaning = meaning := by
  obtain ⟨e, -, rfl⟩ := List.mem_map.1 h
  rfl

theorem inModules_annotated (hd : d ∈ env) (types : List (String × TypeExpr)) :
    env.InModules (annotated d.meaning types) := fun _ he => by
  rw [meaning_of_mem_annotated he]
  exact List.mem_map_of_mem hd

theorem inModules_annotationTrail (id : String) : env.InModules (env.annotationTrail id) := fun e he => by
  obtain ⟨a, ha, he⟩ := List.mem_flatMap.1 he
  exact inModules_annotated (mem_of_mem_lineage (List.mem_reverse.1 ha)) _ e he

theorem inModules_dictTrail (fuel : Nat) (id : String) :
    env.InModules ((env.dictTrail fuel id).map fun e => (e.1, e.2.1)) := by
  rw [InModules, List.forall_mem_map]
  induction fuel generalizing id with
  | zero => exact List.forall_mem_nil _
  | succ fuel ih =>
    intro e he
    rw [dictTrail] at he
    split at he
    · cases he
    · next d hd =>
      rcases List.mem_append.1 he with he | he
      · obtain ⟨b, -, he⟩ := List.mem_flatMap.1 he
        exact ih b e he
      · obtain ⟨f, -, rfl⟩ := List.mem_map.1 he
        exact List.mem_map_of_mem (mem_of_find? hd)

theorem inModules_dictReader : env.InModules (env.dictReader d).annotations := by
  rw [dictReader, dictKeys_eq, InModules, List.forall_mem_map]
  intro e he
  exact inModules_dictTrail (env.length + 1) d.id _ (List.mem_map_of_mem (mem_of_mem_lastWords he))

/-- What the readers of a type depend on: modules and factories of declared types. -/
theorem of_mem_readersOf {t : TypeExpr} {x : Reader} (h : x ∈ env.readersOf m t) :
    env.InModules x.annotations ∧ ∀ f, x.fault = some f → env.IsFault m f := by
  have hplain : ∀ {x : Reader}, env.InModules x.annotations → x.fault = none →
      env.InModules x.annotations ∧ ∀ f, x.fault = some f → env.IsFault m f := fun hin hnone =>
    ⟨hin, fun f hf => by rw [hnone] at hf; cases hf⟩
  have hfaults : ∀ {defaults : List Default}, (∀ default ∈ defaults, env.Brings default) →
      ∀ f, defaults.findSome? (Default.fault? m) = some f → env.IsFault m f := fun hbrings f hf => by
    obtain ⟨default, hin, hfault⟩ := List.exists_of_findSome?_eq_some hf
    exact (hbrings default hin).isFault hfault
  unfold readersOf at h
  split at h
  · next id =>
    cases hd : env.find? id with
    | none => simp [hd] at h
    | some d =>
      replace h : x ∈ env.declaredReaders d m := by simpa [hd] using h
      unfold declaredReaders at h
      split at h
      · obtain rfl := List.mem_singleton.1 h
        exact ⟨List.forall_mem_nil _, hfaults fun default hin => brings_modelFields hin⟩
      split at h
      · obtain rfl := List.mem_singleton.1 h
        exact ⟨inModules_annotationTrail d.id, hfaults fun default hin => brings_dataclassFields hin⟩
      split at h
      · obtain rfl := List.mem_singleton.1 h
        exact hplain inModules_dictReader rfl
      split at h
      · obtain rfl := List.mem_singleton.1 h
        exact hplain (inModules_annotationTrail d.id) rfl
      · cases h
      · rcases List.mem_cons.1 h with rfl | h
        · exact hplain (inModules_annotationTrail d.id) rfl
        · split at h
          · obtain rfl := List.mem_singleton.1 h
            exact hplain (inModules_annotated (mem_of_find? hd) _) rfl
          · cases h
  · obtain rfl := List.mem_singleton.1 h
    exact hplain (List.forall_mem_nil _) rfl
  · cases h

theorem of_read_eq_error {x : Reader} {f : Failure} (h : x.read env = .error f) :
    env.resolveAll x.annotations = .error f ∨ x.fault = some f := by
  rcases of_bind_eq_error h with h | ⟨types, -, h⟩
  · exact .inl h
  · split at h
    · next hfault =>
      cases h
      exact .inr hfault
    · cases h

theorem exists_of_readAll_eq_error {xs : List Reader} {f : Failure} (h : env.readAll xs = .error f) :
    ∃ x ∈ xs, x.read env = .error f := by
  induction xs with
  | nil => cases h
  | cons x xs ih =>
    rcases of_bind_eq_error h with h | ⟨ps, -, h⟩
    · exact ⟨x, List.mem_cons_self, h⟩
    · rcases of_bind_eq_error h with h | ⟨qs, -, h⟩
      · obtain ⟨y, hy, hread⟩ := ih h
        exact ⟨y, List.mem_cons_of_mem _ hy, hread⟩
      · cases h

/-- **Fields cannot be read where a text cannot, or where a factory fails.** -/
theorem fault_of_fieldsOf_eq_error {t : TypeExpr} {f : Failure} (h : env.fieldsOf t m = .error f) :
    env.IsUnreadable env.modules f ∨ env.IsFault m f := by
  rw [fieldsOf_eq] at h
  cases hread : env.readAll (env.readersOf m t) with
  | ok ps =>
    rw [hread] at h
    cases h
  | error g =>
    rw [hread] at h
    cases h
    obtain ⟨x, hx, hfail⟩ := exists_of_readAll_eq_error hread
    obtain ⟨hmodules, hfaults⟩ := of_mem_readersOf hx
    rcases of_read_eq_error hfail with hfail | hfault
    · refine .inl ((unreadable_of_resolveAll hfail).mono fun meaning hmeaning => ?_)
      obtain ⟨e, he, rfl⟩ := List.mem_map.1 hmeaning
      exact hmodules e he
    · exact .inr (hfaults f hfault)

end Declarations

/-! ### Calls at other times -/

namespace Scope

variable {scope : Scope}

/-- A call that depends on the same declared types, at another time. -/
def atTime (scope : Scope) (time : Nat) : Scope := { scope with time := time }

@[simp] theorem types_atTime (time : Nat) : (scope.atTime time).types = scope.types := rfl

/-- Describing a type asks no factory. -/
@[simp] theorem describe_atTime (time : Nat) (t : TypeExpr) : (scope.atTime time).describe t = scope.describe t := by
  delta describe
  rfl

theorem fieldsOf_atTime (h : scope.types.SteadyFactories) (time : Nat) (t : TypeExpr) :
    (scope.atTime time).fieldsOf t = scope.fieldsOf t := Declarations.fieldsOf_steady h t _ _

theorem candidates_atTime (h : scope.types.SteadyFactories) (time turn turn' : Nat) (p : Param) :
    (scope.atTime time).candidates turn p = scope.candidates turn' p := by
  rw [candidates, candidates, types_atTime, Declarations.fieldsOf_steady h _ _ (.gathering scope.time turn')]

theorem buildWith_atTime (time : Nat) : (scope.atTime time).buildWith = scope.buildWith :=
  funext fun convert => funext fun t => by rw [buildWith, buildWith, describe_atTime, types_atTime]

theorem addFields_atTime (time : Nat) (convert : TypeExpr → Build Unit) (name : String) (fields : List Param) :
    (scope.atTime time).addFields convert name fields = scope.addFields convert name fields := by
  induction fields with
  | nil => rfl
  | cons field fields ih => rw [addFields, addFields, buildWith_atTime, ih]

theorem convertWithin_atTime (h : scope.types.SteadyFactories) (time fuel : Nat) :
    (scope.atTime time).convertWithin fuel = scope.convertWithin fuel := by
  induction fuel with
  | zero => rfl
  | succ fuel ih =>
    refine funext fun t => ?_
    rw [convertWithin, convertWithin, ih, fieldsOf_atTime h, types_atTime]
    simp only [addFields_atTime]

theorem convert_atTime (h : scope.types.SteadyFactories) (time : Nat) :
    (scope.atTime time).convert = scope.convert :=
  funext fun t => congrFun (convertWithin_atTime h time scope.depth) t

/-- **A type is described alike at all times**, when factories are steady, with the same types registered. -/
theorem build_atTime (h : scope.types.SteadyFactories) (time : Nat) (t : TypeExpr) :
    (scope.atTime time).build t = scope.build t := by
  rw [build, build, buildWith_atTime, convert_atTime h]

theorem entriesFrom_atTime (h : scope.types.SteadyFactories) (time : Nat) (location : Location) (ps : List Param) :
    (scope.atTime time).entriesFrom location ps = scope.entriesFrom location ps := by
  induction ps with
  | nil => rfl
  | cons p ps ih =>
    have hentry : (scope.atTime time).entry location p = scope.entry location p := by
      rw [entry, entry, build_atTime h, types_atTime]
      rfl
    rw [entriesFrom, entriesFrom, hentry, ih]

/-- The entries of a parameter are the same at all times and turns. -/
theorem entries_atTime (h : scope.types.SteadyFactories) (time turn turn' : Nat) (location : Location) (p : Param) :
    (scope.atTime time).entries location turn p = scope.entries location turn' p := by
  rw [entries, entries, candidates_atTime h time turn turn']
  simp only [entriesFrom_atTime h]

theorem entriesAll_atTime (h : scope.types.SteadyFactories) (time : Nat) (location : Location)
    (ps : List (Param × Nat)) : (scope.atTime time).entriesAll location ps = scope.entriesAll location ps := by
  induction ps with
  | nil => rfl
  | cons p ps ih => rw [entriesAll, entriesAll, entries_atTime h time p.2 p.2, ih]

theorem allEntries_atTime (h : scope.types.SteadyFactories) (time : Nat) (path query header : List Param) :
    (scope.atTime time).allEntries path query header = scope.allEntries path query header := by
  rw [allEntries, allEntries]
  simp only [entriesAll_atTime h]

end Scope

end RouteDoc
