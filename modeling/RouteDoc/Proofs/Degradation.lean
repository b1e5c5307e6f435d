import RouteDoc.Proofs.Agreement
import RouteDoc.Proofs.Components

/-!
# What a bad annotation spoils

An annotation that cannot be described costs its own property.  It costs others only where it decides whether the
annotations that are resolved together lead to types: when one of them names nothing, the others are taken as they
stand, and the attributes that a class inherits are no longer seen.

* `Reader.Settled` — a reader that does not depend on whether its annotations lead to types;
* `Retyping.Steady` — an annotation is replaced by one that does not matter to others;
* `Scope.component_retyped` — then the other properties are the same, and so is which of them are required;
* `Scope.component_loses_inherited` — else an attribute that is inherited may be lost.
-/

namespace RouteDoc

/-- A property of a written component. -/
def Value.property? (v : Value) (name : String) : Option Value :=
  (v.get? "properties").bind fun properties => properties.get? name

/-! ### Fields under names to be kept -/

namespace Param

variable {keep : String → Bool}

theorem kept_insert (p : Param) (ps : List Param) :
    kept keep (insert p ps) = if keep p.name = true then insert p (kept keep ps) else kept keep ps := by
  induction ps with
  | nil => by_cases hp : keep p.name = true <;> simp [insert, kept, hp]
  | cons q ps ih =>
    rw [insert]
    by_cases hname : q.name = p.name
    · rw [if_pos (by simpa using hname)]
      by_cases hp : keep p.name = true
      · have hq : keep q.name = true := hname ▸ hp
        rw [if_pos hp, kept_cons_of_pos hp, kept_cons_of_pos hq, insert, if_pos (by simpa using hname)]
      · have hq : ¬keep q.name = true := hname ▸ hp
        rw [if_neg hp, kept_cons_of_neg hp, kept_cons_of_neg hq]
    · rw [if_neg (by simpa using hname)]
      by_cases hq : keep q.name = true
      · rw [kept_cons_of_pos hq, kept_cons_of_pos hq, ih]
        by_cases hp : keep p.name = true
        · rw [if_pos hp, if_pos hp, insert, if_neg (by simpa using hname)]
        · rw [if_neg hp, if_neg hp]
      · rw [kept_cons_of_neg hq, kept_cons_of_neg hq, ih]

/-- Leaving repetitions out and leaving names out can change places. -/
theorem kept_distinct (ps : List Param) : kept keep (distinct ps) = distinct (kept keep ps) := by
  have hfold : ∀ out : List Param, kept keep (ps.foldl (fun out p => insert p out) out) =
      (kept keep ps).foldl (fun out p => insert p out) (kept keep out) := by
    induction ps with
    | nil => exact fun _ => rfl
    | cons p ps ih =>
      intro out
      show kept keep (ps.foldl (fun out p => insert p out) (insert p out)) = _
      rw [ih, kept_insert]
      by_cases hp : keep p.name = true
      · rw [if_pos hp, kept_cons_of_pos hp]
        rfl
      · rw [if_neg hp, kept_cons_of_neg hp]
  exact hfold []

end Param

/-! ### Readers -/

namespace Declarations

variable {env : Declarations} {annotations : List (String × Annotation)} {resolved : List (String × TypeExpr)}

theorem others_rawTypes (name : String) (annotations : List (String × Annotation)) :
    others name (rawTypes annotations) = rawTypes (others name annotations) := List.filter_map

theorem resolveNamed_others (name : String) (h : env.resolveNamed annotations = .ok resolved) :
    env.resolveNamed (others name annotations) = .ok (others name resolved) := by
  induction annotations generalizing resolved with
  | nil =>
    cases h
    rfl
  | cons e annotations ih =>
    obtain ⟨n, t⟩ := e
    rw [resolveNamed] at h
    obtain ⟨u, hu, h⟩ := exists_of_bind_eq_ok h
    obtain ⟨rest, hrest, h⟩ := exists_of_bind_eq_ok h
    cases h
    by_cases hn : n = name
    · rw [others_cons_of_eq hn, others_cons_of_eq hn]
      exact ih hrest
    · rw [others_cons_of_ne hn, others_cons_of_ne hn, resolveNamed, hu]
      show (env.resolveNamed (others name annotations) >>= fun rest => Except.ok ((n, u) :: rest)) = _
      rw [ih hrest]
      rfl

theorem resolveNamed_of_closed (h : ∀ e ∈ annotations, env.resolveType e.2 = .ok e.2.type) :
    env.resolveNamed annotations = .ok (rawTypes annotations) := by
  induction annotations with
  | nil => rfl
  | cons e annotations ih =>
    obtain ⟨n, a⟩ := e
    have ha : env.resolveType a = .ok a.type := h (n, a) List.mem_cons_self
    have hrest := ih fun e he => h e (List.mem_cons_of_mem _ he)
    rw [resolveNamed, ha]
    show (env.resolveNamed annotations >>= fun rest => Except.ok ((n, a.type) :: rest)) = _
    rw [hrest]
    rfl

end Declarations

namespace Reader

variable {env : Declarations} {name : String} {keep : String → Bool} {x x' : Reader} {ps ps' : List Param}

/-- Whether its annotations lead to types does not matter to what a reader shows under other names: none of them
holds a reference there, and what is taken instead shows the same. -/
structure Settled (env : Declarations) (name : String) (keep : String → Bool) (x : Reader) : Prop where
  closed : ∀ e ∈ x.annotations, e.1 ≠ name → env.resolveType e.2 = .ok e.2.type
  complete : kept keep (x.fields (rawTypes x.annotations)) = kept keep (x.fields x.fallback)

/-- Annotations that are the same under other names lead to what they are there. -/
theorem Settled.others_resolved (h : x.Settled env name keep) {annotations : List (String × Annotation)}
    {types : List (String × TypeExpr)} (hsame : others name x.annotations = others name annotations)
    (htypes : env.resolveNamed annotations = .ok types) :
    others name (rawTypes x.annotations) = others name types := by
  have hclosed : env.resolveNamed (others name x.annotations) = .ok (rawTypes (others name x.annotations)) :=
    Declarations.resolveNamed_of_closed fun e he => by
      obtain ⟨hin, hne⟩ := List.mem_filter.1 he
      exact h.closed e hin (by simpa using hne)
  have hothers := Declarations.resolveNamed_others name htypes
  rw [← hsame, hclosed] at hothers
  rw [Declarations.others_rawTypes]
  exact Except.ok.inj hothers

/-- A reader goes on with the types that its annotations lead to, or with what is taken instead. -/
theorem read_cases (h : x.read env = .ok ps) :
    (∃ types, env.resolveNamed x.annotations = .ok types ∧ ps = x.fields types) ∨
      (¬ x.Resolves env ∧ ps = x.fields x.fallback) := by
  obtain ⟨found, hfound, h⟩ := exists_of_bind_eq_ok h
  obtain rfl : x.fields (found.getD x.fallback) = ps := by
    cases hfault : x.fault with
    | some f => simp [hfault] at h
    | none => simpa [hfault] using h
  unfold Declarations.resolveAll at hfound
  unfold Resolves
  cases hr : env.resolveNamed x.annotations with
  | ok types =>
    rw [hr] at hfound
    cases hfound
    exact .inl ⟨types, rfl, rfl⟩
  | error u =>
    rw [hr] at hfound
    cases u with
    | raised f => cases hfound
    | unknownName =>
      cases hfound
      exact .inr ⟨by simp, rfl⟩

/-- **Readers that agree show the same under the names kept**, when both or neither lead to types, or when this
does not matter. -/
theorem Agree.kept_read (h : Agree name keep x x')
    (hsteady : (x.Resolves env ↔ x'.Resolves env) ∨ x.Settled env name keep)
    (hps : x.read env = .ok ps) (hps' : x'.read env = .ok ps') : kept keep ps = kept keep ps' := by
  have hraw : others name (rawTypes x.annotations) = others name (rawTypes x'.annotations) := by
    rw [Declarations.others_rawTypes, Declarations.others_rawTypes, h.annotations]
  rcases read_cases hps with ⟨types, htypes, rfl⟩ | ⟨hno, rfl⟩
  · rcases read_cases hps' with ⟨types', htypes', rfl⟩ | ⟨hno', rfl⟩
    · have hothers := Declarations.resolveNamed_others name htypes
      rw [h.annotations, Declarations.resolveNamed_others name htypes'] at hothers
      exact h.fields types types' (Except.ok.inj hothers).symm
    · have hsettled : x.Settled env name keep := hsteady.resolve_left fun hiff => hno' (hiff.1 ⟨types, htypes⟩)
      have hothers := hsettled.others_resolved rfl htypes
      calc kept keep (x.fields types)
          = kept keep (x'.fields (rawTypes x'.annotations)) := h.fields _ _ (hothers.symm.trans hraw)
        _ = kept keep (x.fields (rawTypes x.annotations)) := (h.fields _ _ hraw).symm
        _ = kept keep (x.fields x.fallback) := hsettled.complete
        _ = kept keep (x'.fields x'.fallback) := h.fields _ _ h.fallback
  · rcases read_cases hps' with ⟨types', htypes', rfl⟩ | ⟨hno', rfl⟩
    · have hsettled : x.Settled env name keep := hsteady.resolve_left fun hiff => hno (hiff.2 ⟨types', htypes'⟩)
      have hothers := hsettled.others_resolved h.annotations htypes'
      calc kept keep (x.fields x.fallback)
          = kept keep (x.fields (rawTypes x.annotations)) := hsettled.complete.symm
        _ = kept keep (x'.fields types') := h.fields _ _ hothers
    · exact h.fields _ _ h.fallback

/-- Two readers show the same under the names kept, as far as their annotations are concerned. -/
def Steady (env : Declarations) (name : String) (keep : String → Bool) (x x' : Reader) : Prop :=
  (x.Resolves env ↔ x'.Resolves env) ∨ x.Settled env name keep

/-- Readers one after another; by induction on both lists. -/
theorem kept_readAll {xs xs' : List Reader} (hagree : List.Forall₂ (Agree name keep) xs xs')
    (hsteady : List.Forall₂ (Steady env name keep) xs xs') (hps : env.readAll xs = .ok ps)
    (hps' : env.readAll xs' = .ok ps') : kept keep ps = kept keep ps' := by
  induction hagree generalizing ps ps' with
  | nil =>
    cases hps
    cases hps'
    rfl
  | cons hx _ ih =>
    cases hsteady with
    | cons hs hsteady =>
      obtain ⟨qs, hqs, hps⟩ := exists_of_bind_eq_ok hps
      obtain ⟨rest, hrest, hps⟩ := exists_of_bind_eq_ok hps
      obtain ⟨qs', hqs', hps'⟩ := exists_of_bind_eq_ok hps'
      obtain ⟨rest', hrest', hps'⟩ := exists_of_bind_eq_ok hps'
      cases hps
      cases hps'
      rw [kept, kept, List.filter_append, List.filter_append]
      exact congrArg₂ (· ++ ·) (hx.kept_read hs hqs hqs') (ih hsteady hrest hrest')

end Reader

namespace Retyping

variable {r : Retyping} {env : Declarations}

/-- Is this the name of no property that shows the field with another annotation, before or after? -/
def keeps (r : Retyping) (env : Declarations) (t : TypeExpr) (m : String) : Bool :=
  decide (m ∉ env.shownAs r.name t ++ (r.onTypes env).shownAs r.name t)

theorem agree_keeps (m : Moment) (t : TypeExpr) :
    List.Forall₂ (Reader.Agree r.name (r.keeps env t)) (env.readersOf m t) ((r.onTypes env).readersOf m t) :=
  agree_readersOf m fun _ hn => decide_eq_false (not_not_intro hn)

/-- The other annotations do not matter to the fields that a type shows under other names: for each of its readers,
both or neither lead to types, or this does not matter. -/
def Steady (r : Retyping) (env : Declarations) (m : Moment) (t : TypeExpr) : Prop :=
  List.Forall₂ (Reader.Steady env r.name (r.keeps env t)) (env.readersOf m t) ((r.onTypes env).readersOf m t)

theorem read_onTypes (x : Reader) : x.read (r.onTypes env) = x.read env := by
  unfold Reader.read
  simp only [resolveAll_onTypes]

theorem readAll_onTypes (xs : List Reader) : (r.onTypes env).readAll xs = env.readAll xs := by
  induction xs with
  | nil => rfl
  | cons x xs ih => rw [Declarations.readAll, Declarations.readAll, read_onTypes, ih]

/-- **The other fields of a type are the same**, in their order. -/
theorem kept_fieldsOf {m : Moment} {t : TypeExpr} (h : r.Steady env m t) {ps ps' : List Param}
    (hps : env.fieldsOf t m = .ok ps) (hps' : (r.onTypes env).fieldsOf t m = .ok ps') :
    kept (r.keeps env t) ps = kept (r.keeps env t) ps' := by
  rw [Declarations.fieldsOf_eq] at hps hps'
  rw [readAll_onTypes] at hps'
  cases hqs : env.readAll (env.readersOf m t) with
  | error f =>
    rw [hqs] at hps
    cases hps
  | ok qs =>
    cases hqs' : env.readAll ((r.onTypes env).readersOf m t) with
    | error f =>
      rw [hqs'] at hps'
      cases hps'
    | ok qs' =>
      rw [hqs] at hps
      rw [hqs'] at hps'
      cases hps
      cases hps'
      rw [Param.kept_distinct, Param.kept_distinct, Reader.kept_readAll (agree_keeps m t) h hqs hqs']

end Retyping

/-! ### Components -/

theorem Value.get?_object_eq_lookup (members : List (String × Value)) (key : String) :
    (Value.object members).get? key = members.lookup key := by
  induction members with
  | nil => rfl
  | cons e members ih =>
    obtain ⟨n, v⟩ := e
    rw [get?_object_cons, List.lookup_cons, ih]
    by_cases hn : n = key
    · simp [hn]
    · have hne : (key == n) = false := beq_false_of_ne fun h => hn h.symm
      simp [hn, hne]

theorem Build.exists_run'_eq_ok {α : Type} {step : Build α} {b : Builder} (h : (step.run' b).1.toBool = true) :
    ∃ a e, step.run' b = (.ok a, e) := by
  rcases hrun : step.run' b with ⟨_ | a, e⟩
  · rw [hrun] at h
    cases h
  · exact ⟨a, e, rfl⟩

namespace Scope

variable {scope : Scope} {r : Retyping} {keep : String → Bool}

theorem property?_component (c : Component) (m : String) :
    c.toValue.property? m = (writtenProperties c).lookup m := by
  have hproperties : c.toValue.get? "properties" = some (.object (writtenProperties c)) := by
    simp [get?_component]
  rw [Value.property?, hproperties]
  exact Value.get?_object_eq_lookup _ m

/-- The properties of the fields under names to be kept. -/
theorem filter_propertyOf (fields : List Param) :
    ((fields.filterMap scope.propertyOf).filter fun e => keep e.1) =
      (kept keep fields).filterMap scope.propertyOf := by
  rw [List.filter_filterMap, kept, List.filterMap_filter]
  refine List.filterMap_congr fun p _ => ?_
  cases hs : scope.fragment p.type with
  | none => simp [propertyOf, hs]
  | some s => simp [propertyOf, hs, Option.filter_some]

/-- A property under a name to be kept is one of the fields under such names. -/
theorem property?_componentFrom {fields fields' : List Param} (h : kept keep fields = kept keep fields') {m : String}
    (hm : keep m = true) :
    (scope.componentFrom fields).toValue.property? m = (scope.componentFrom fields').toValue.property? m := by
  have hkept : ∀ fields, (scope.componentFrom fields).toValue.property? m =
      (writtenProperties (scope.componentFrom (kept keep fields))).lookup m := by
    intro fields
    rw [property?_component, ← lookup_filter keep hm, writtenProperties, writtenProperties, List.filter_map]
    exact congrArg (fun properties => (List.map _ properties).lookup m) (filter_propertyOf fields)
  rw [hkept, hkept, h]

theorem lists_componentFrom {fields fields' : List Param} (h : kept keep fields = kept keep fields') {m : String}
    (hm : keep m = true) :
    (scope.componentFrom fields).toValue.Lists m ↔ (scope.componentFrom fields').toValue.Lists m := by
  have hkept : ∀ fields, (scope.componentFrom fields).toValue.Lists m ↔
      ∃ p ∈ kept keep fields, scope.requiredName p = some m := by
    intro fields
    rw [lists_iff, componentFrom, List.mem_filterMap]
    refine exists_congr fun p => and_congr_left fun hp => ?_
    obtain ⟨-, -, rfl⟩ := requiredName_eq_some.1 hp
    exact ⟨fun hin => List.mem_filter.2 ⟨hin, hm⟩, fun hin => (List.mem_filter.1 hin).1⟩
  rw [hkept, hkept, h]

theorem componentFrom_onScope (fields : List Param) :
    (r.onScope scope).componentFrom fields = scope.componentFrom fields := by
  have hproperty : (r.onScope scope).propertyOf = scope.propertyOf :=
    funext fun p => by rw [propertyOf, propertyOf, Retyping.fragment_onScope]
  have hrequired : (r.onScope scope).requiredName = scope.requiredName :=
    funext fun p => by rw [requiredName, requiredName, Retyping.fragment_onScope]
  rw [componentFrom, componentFrom, hproperty, hrequired]

/-- A request for a component that gives one has visited the type without failure. -/
theorem traverses_of_run'_component {t : TypeExpr} {b e : Builder} {v : Value}
    (h : (scope.component t).run' b = (.ok v, e)) :
    ∃ us ws, scope.Traverses b.registry.names [.visit t] us ws none ∧
      (scope.convert t).run' b = (.ok (), ⟨b.registry ++ us.map scope.finished, b.warnings ++ ws⟩) := by
  rcases hc : (scope.convert t).run' b with ⟨_ | _, after⟩
  · rw [component, Build.run'_bind, hc] at h
    cases h
  · obtain ⟨-, us, ws, htrav, rfl⟩ := (follows_convert t).of_ok hc
    exact ⟨us, ws, htrav, rfl⟩

/-- What a request for a component gives: what stood under the name of the type, or the component of its fields,
none of which fails. -/
theorem of_run'_component {t : TypeExpr} {b e : Builder} {v : Value} (h : (scope.component t).run' b = (.ok v, e)) :
    (scope.types.typeName t ∈ b.registry.names ∧
        v = ((b.registry.get? (scope.types.typeName t)).map Entry.toValue).getD .null) ∨
      (scope.types.typeName t ∉ b.registry.names ∧ scope.FieldsHold t ∧ v = (scope.componentOf t).toValue) := by
  obtain ⟨us, ws, htrav, hrun⟩ := traverses_of_run'_component h
  rw [component, Build.run'_bind, hrun] at h
  have hv : (((b.registry ++ us.map scope.finished).get? (scope.types.typeName t)).map Entry.toValue).getD .null =
      v := Except.ok.inj (Prod.ext_iff.1 h).1
  rw [Registry.get?, List.lookup_append] at hv
  cases htrav with
  | known hname hrest =>
    cases hrest
    exact .inl ⟨hname, by simpa [Registry.get?] using hv.symm⟩
  | @enter _ _ _ us vs ws xs _ hname hfields hrest =>
    cases hrest
    have hclean : ∀ f, .stop f ∉ scope.structErrands t := fun f => (hfields.stop_notMem f).1
    refine .inr ⟨hname, stop_notMem_structErrands_iff.1 hclean, ?_⟩
    have hfresh : List.lookup (scope.types.typeName t) b.registry = none := by
      have hhas := (Registry.has_eq_false_iff b.registry _).2 hname
      simpa [Registry.has, Registry.get?] using hhas
    have hfirst : List.lookup (scope.types.typeName t) ((t :: us ++ []).map scope.finished) =
        some (.built (scope.componentOf t)) := List.lookup_cons_self
    rw [hfresh, Option.none_or, hfirst] at hv
    exact hv.symm

/-- **A bad annotation costs its own property alone**, where it is no matter to the others whether the annotations
resolved together lead to types.  Whatever stands in the registry: when a component is given before and after, each
property that shows another field is the same, or missing in both, and is required in both or in neither. -/
theorem component_retyped (scope : Scope) (r : Retyping) (t : TypeExpr) (b : Builder)
    (hsteady : r.Steady scope.types (scope.moment t) t) {v v' : Value} {e e' : Builder}
    (hv : (scope.component t).run' b = (.ok v, e)) (hv' : ((r.onScope scope).component t).run' b = (.ok v', e'))
    {m : String} (hm : m ∉ scope.types.shownAs r.name t) (hm' : m ∉ (r.onTypes scope.types).shownAs r.name t) :
    v.property? m = v'.property? m ∧ (v.Lists m ↔ v'.Lists m) := by
  have hname : (r.onScope scope).types.typeName t = scope.types.typeName t := Retyping.typeName_onTypes t
  rcases of_run'_component hv with ⟨hin, rfl⟩ | ⟨hnew, ⟨fields, hfields, -⟩, rfl⟩
  · rcases of_run'_component hv' with ⟨-, rfl⟩ | ⟨hnew', -⟩
    · rw [hname]
      exact ⟨rfl, Iff.rfl⟩
    · exact absurd (hname ▸ hin) hnew'
  · rcases of_run'_component hv' with ⟨hin', -⟩ | ⟨-, ⟨fields', hfields', -⟩, rfl⟩
    · exact absurd (hname ▸ hin') hnew
    · have hmoment : (r.onScope scope).moment t = scope.moment t := congrArg (Moment.component scope.time) hname
      have hread : (r.onTypes scope.types).fieldsOf t (scope.moment t) = .ok fields' := by
        rw [← hmoment]
        exact hfields'
      have hkept := Retyping.kept_fieldsOf hsteady hfields hread
      have hkeep : r.keeps scope.types t m = true :=
        decide_eq_true fun h => (List.mem_append.1 h).elim hm hm'
      rw [componentOf, componentOf, componentFrom_onScope, fieldList, fieldList, hfields, hfields']
      exact ⟨property?_componentFrom hkept hkeep, lists_componentFrom hkept hkeep⟩

/-- Two classes, the second of which inherits from the first. -/
def heirs (kind : Kind) : Scope :=
  ⟨[⟨"Base", "Base", kind, [⟨"a", .builtin .int, none, none⟩], [], none⟩,
    ⟨"Child", "Child", kind, [⟨"b", .builtin .str, none, none⟩], ["Base"], none⟩], 2024, 0⟩

/-- A text that names no type, as another annotation for the second class. -/
def misspelling : Retyping := ⟨"Child", "b", fun _ => .forward "...|...", id⟩

/-- A dataclass keeps what it inherits. -/
theorem component_retyped_heirs :
    ∃ v v' e e', ((heirs .dataclass).component (.declared "Child")).run' ⟨[], []⟩ = (.ok v, e) ∧
      ((misspelling.onScope (heirs .dataclass)).component (.declared "Child")).run' ⟨[], []⟩ = (.ok v', e') ∧
      v.property? "a" = v'.property? "a" ∧ (v.Lists "a" ↔ v'.Lists "a") := by
  have hsteady : misspelling.Steady (heirs .dataclass).types ((heirs .dataclass).moment (.declared "Child"))
      (.declared "Child") := by
    refine .cons (.inr ⟨?_, rfl⟩) .nil
    show ∀ a ∈ [("a", Annotation.mk (.builtin .int) none), ("b", ⟨.builtin .str, none⟩)], a.1 ≠ "b" → _ = _
    simp only [List.forall_mem_cons]
    exact ⟨fun _ => rfl, fun _ => rfl, by simp⟩
  have hok : (((heirs .dataclass).component (.declared "Child")).run' ⟨[], []⟩).1.toBool = true := by
    decide +kernel
  have hok' : (((misspelling.onScope (heirs .dataclass)).component (.declared "Child")).run'
      ⟨[], []⟩).1.toBool = true := by decide +kernel
  obtain ⟨v, e, hv⟩ := Build.exists_run'_eq_ok hok
  obtain ⟨v', e', hv'⟩ := Build.exists_run'_eq_ok hok'
  exact ⟨v, v', e, e', hv, hv', component_retyped (heirs .dataclass) misspelling (.declared "Child") ⟨[], []⟩ hsteady
    hv hv' (by decide +kernel) (by decide +kernel)⟩

/-! ### What is lost otherwise -/

/-- Whatever annotations are taken as they stand, every attribute that is shown is one of them. -/
theorem exists_of_mem_attributes {d : Declaration} {types : List (String × TypeExpr)} {p : Param}
    (h : p ∈ (scope.types.attributeReader d).fields types) : ∃ a ∈ types, a.1 = p.name := by
  obtain ⟨a, ha, rfl⟩ := List.mem_map.1 h
  have hlast := (List.mem_filter.1 ha).1
  rw [putAllNamed_eq] at hlast
  exact ⟨a, mem_of_mem_lastWords hlast, rfl⟩

/-- A name that no field bears is the name of no property. -/
theorem property?_of_notMem {fields : List Param} {m : String} (hm : ∀ p ∈ fields, p.name ≠ m) :
    (scope.componentFrom fields).toValue.property? m = none ∧ ¬ (scope.componentFrom fields).toValue.Lists m := by
  constructor
  · rw [property?_component, List.lookup_eq_none_iff]
    intro e he
    have hname : e.1 ∈ (fields.filter fun p => (scope.fragment p.type).isSome).map (·.name) := by
      rw [← names_propertyOf]
      exact names_writtenProperties (scope.componentFrom fields) ▸ List.mem_map_of_mem he
    obtain ⟨p, hp, hpe⟩ := List.mem_map.1 hname
    have hne := hm p (List.mem_filter.1 hp).1
    rw [hpe] at hne
    simpa using fun h => hne h.symm
  · rw [lists_iff, componentFrom, List.mem_filterMap]
    rintro ⟨p, hp, hreq⟩
    exact hm p hp (requiredName_eq_some.1 hreq).2.2

/-- **Inherited attributes are lost** when an annotation of a class or of an ancestor names nothing: the class then
shows only what it annotates itself. -/
theorem component_loses_inherited {id : String} {d : Declaration}
    (hreaders : scope.types.readersOf (scope.moment (.declared id)) (.declared id) = [scope.types.attributeReader d])
    (hno : ¬ (scope.types.attributeReader d).Resolves scope.types) {b e : Builder} {v : Value}
    (hnew : scope.types.typeName (.declared id) ∉ b.registry.names)
    (hv : (scope.component (.declared id)).run' b = (.ok v, e)) {m : String}
    (hm : ∀ a ∈ scope.types.ownAnnotations d, a.1 ≠ m) : v.property? m = none ∧ ¬ v.Lists m := by
  rcases of_run'_component hv with ⟨hin, -⟩ | ⟨-, ⟨fields, hfields, -⟩, rfl⟩
  · exact absurd hin hnew
  · rw [componentOf, fieldList, hfields]
    refine property?_of_notMem fun p hp => ?_
    rw [fieldsOf, Declarations.fieldsOf_eq, hreaders, Declarations.readAll_singleton] at hfields
    cases hps : (scope.types.attributeReader d).read scope.types with
    | error f =>
      rw [hps] at hfields
      cases hfields
    | ok ps =>
      rw [hps] at hfields
      cases hfields
      rcases Reader.read_cases hps with ⟨types, htypes, -⟩ | ⟨-, rfl⟩
      · exact absurd ⟨types, htypes⟩ hno
      · obtain ⟨a, ha, hname⟩ := exists_of_mem_attributes (Param.mem_of_mem_distinct hp)
        rw [← hname]
        exact hm a ha

/-- **One bad annotation takes an inherited attribute away.** -/
theorem heir_loses_attribute :
    ∃ v v' e e', ((heirs (.plain none)).component (.declared "Child")).run' ⟨[], []⟩ = (.ok v, e) ∧
      ((misspelling.onScope (heirs (.plain none))).component (.declared "Child")).run' ⟨[], []⟩ = (.ok v', e') ∧
      "a" ∉ (heirs (.plain none)).types.shownAs "b" (.declared "Child") ∧
      v.property? "a" ≠ none ∧ v.Lists "a" ∧ v'.property? "a" = none ∧ ¬ v'.Lists "a" := by
  have hok : (((heirs (.plain none)).component (.declared "Child")).run' ⟨[], []⟩).1.toBool = true := by
    decide +kernel
  have hok' : (((misspelling.onScope (heirs (.plain none))).component (.declared "Child")).run'
      ⟨[], []⟩).1.toBool = true := by decide +kernel
  obtain ⟨v, e, hv⟩ := Build.exists_run'_eq_ok hok
  obtain ⟨v', e', hv'⟩ := Build.exists_run'_eq_ok hok'
  have hlost : v'.property? "a" = none ∧ ¬ v'.Lists "a" :=
    component_loses_inherited
      (d := ⟨"Child", "Child", .plain none, [⟨"b", .forward "...|...", none, none⟩], ["Base"], none⟩) rfl (by decide +kernel)
      (by simp) hv' (by decide +kernel)
  refine ⟨v, v', e, e', hv, hv', by decide +kernel, ?_, ?_, hlost.1, hlost.2⟩
  · have hsome : (((writtenProperties ((heirs (.plain none)).componentOf (.declared "Child"))).lookup "a").isSome) =
        true := by decide +kernel
    rcases of_run'_component hv with ⟨hin, -⟩ | ⟨-, -, rfl⟩
    · cases hin
    · rw [property?_component]
      exact Option.isSome_iff_ne_none.1 hsome
  · rcases of_run'_component hv with ⟨hin, -⟩ | ⟨-, -, rfl⟩
    · cases hin
    · exact (lists_iff _ _).2 (by decide +kernel)

end Scope

end RouteDoc
