import RouteDoc.Proofs.Calls
import RouteDoc.Proofs.Fields
import RouteDoc.Proofs.Fragments
import RouteDoc.Proofs.Interruption

/-!
# Well-formed components

Every component that was finished, in whatever run of calls, is an object with a mapping of properties.  Names
that are required are those of properties without a default that admit no null.

* `Scope.IsComponent` — what is said of a written component, given the fields of its type;
* `Scope.isComponent_componentOf` — the component of a type whose fields hold is such a component;
* `Documentation.RunLogs` — what became of the types that a run entered;
* `Documentation.components_wellFormed` — the registry after any run, entry by entry.
-/

namespace RouteDoc

/-- The name stands in the list of required properties. -/
def Value.Lists (v : Value) (name : String) : Prop :=
  ∃ names : List String, v.get? "required" = some (.list (names.map Value.str)) ∧ name ∈ names

theorem Schema.get?_nullable (s : Schema) :
    s.toValue.get? "nullable" = if s.nullable = true then some (.bool true) else none := by
  cases s <;> simp [get?_reference, get?_array, get?_simple] <;> rfl

theorem Schema.get?_default (s : Schema) : s.toValue.get? "default" = none := by
  cases s <;> simp [get?_reference, get?_array, get?_simple]

theorem Property.get?_toValue (p : Property) (key : String) :
    p.toValue.get? key = (p.schema.toValue.get? key).or (if "default" = key then p.default else none) := by
  rw [Property.toValue, Property.members, Value.get?_object_append, Value.get?_object_optional, Option.map_id']
  rfl

namespace Scope

variable {scope : Scope}

/-! ### Written components -/

/-- What is said of a written component, given the fields of its type and its properties. -/
structure IsComponent (scope : Scope) (fields : List Param) (props : List (String × Value)) (v : Value) :
    Prop where
  type_eq : v.get? "type" = some (.str "object")
  properties_eq : v.get? "properties" = some (.object props)
  /-- The properties are those fields whose schema was built, in their order. -/
  names_eq : props.map (·.1) = (fields.filter fun p => (scope.fragment p.type).isSome).map (·.name)
  names_nodup : (props.map (·.1)).Nodup
  required_eq : ∀ r, v.get? "required" = some r → ∃ names : List String, r = .list (names.map Value.str) ∧
    names ≠ [] ∧ names.Nodup ∧ names.Sublist (props.map (·.1))
  listed_plain : ∀ n w, v.Lists n → (n, w) ∈ props → w.get? "nullable" = none ∧ w.get? "default" = none
  default_iff : ∀ p ∈ fields, ∀ w, (p.name, w) ∈ props →
    ((w.get? "default").isSome = true ↔ p.hasDefault = true)
  listed_iff : ∀ p ∈ fields, v.Lists p.name ↔
    (∃ s, scope.fragment p.type = some s ∧ s.nullable = false) ∧ p.required = true

theorem requiredName_eq_some {p : Param} {n : String} :
    scope.requiredName p = some n ↔
      (∃ s, scope.fragment p.type = some s ∧ s.nullable = false) ∧ p.required = true ∧ p.name = n := by
  unfold requiredName
  cases scope.fragment p.type with
  | none => simp
  | some s => cases hs : s.nullable <;> cases hp : p.required <;> simp [hs]

/-- The names of the properties of some fields. -/
theorem names_propertyOf (fields : List Param) :
    (fields.filterMap scope.propertyOf).map (·.1) =
      (fields.filter fun p => (scope.fragment p.type).isSome).map (·.name) := by
  induction fields with
  | nil => rfl
  | cons p fields ih =>
    cases hs : scope.fragment p.type with
    | none =>
      rw [List.filterMap_cons_none (by simp [propertyOf, hs]), List.filter_cons_of_neg (by simp [hs]), ih]
    | some s =>
      have hp : scope.propertyOf p = some (p.name, ⟨s, defaultOf p⟩) := by simp [propertyOf, hs]
      rw [List.filterMap_cons_some hp, List.filter_cons_of_pos (by simp [hs]), List.map_cons, List.map_cons, ih]

theorem fieldList_names_nodup (t : TypeExpr) : ((scope.fieldList t).map (·.name)).Nodup := by
  cases hf : scope.fieldsOf t with
  | error f => simp [fieldList, hf]
  | ok fields => simpa [fieldList, hf] using Declarations.fieldsOf_names_nodup hf

/-- What is required is a part of the properties, in their order. -/
theorem requiredNames_sublist (fields : List Param) :
    (fields.filterMap scope.requiredName).Sublist ((fields.filterMap scope.propertyOf).map (·.1)) := by
  rw [names_propertyOf]
  induction fields with
  | nil => exact .slnil
  | cons p fields ih =>
    cases hr : scope.requiredName p with
    | none =>
      rw [List.filterMap_cons_none hr]
      exact ih.trans (((List.sublist_cons_self p fields).filter _).map _)
    | some n =>
      obtain ⟨⟨s, hs, -⟩, -, rfl⟩ := requiredName_eq_some.1 hr
      rw [List.filterMap_cons_some hr, List.filter_cons_of_pos (by simp [hs]), List.map_cons]
      exact ih.cons_cons _

theorem mem_requiredNames {fields : List Param} (hnodup : (fields.map (·.name)).Nodup) {p : Param}
    (hp : p ∈ fields) : p.name ∈ fields.filterMap scope.requiredName ↔
      (∃ s, scope.fragment p.type = some s ∧ s.nullable = false) ∧ p.required = true := by
  rw [List.mem_filterMap]
  constructor
  · rintro ⟨q, hq, hr⟩
    obtain ⟨hs, hreq, hname⟩ := requiredName_eq_some.1 hr
    cases List.inj_on_of_nodup_map hnodup hq hp hname
    exact ⟨hs, hreq⟩
  · exact fun ⟨hs, hreq⟩ => ⟨p, hp, requiredName_eq_some.2 ⟨hs, hreq, rfl⟩⟩

/-- The property under the name of a field is that of the field, since no other field bears the name. -/
theorem eq_of_mem_propertyOf {fields : List Param} (hnodup : (fields.map (·.name)).Nodup) {p : Param}
    (hp : p ∈ fields) {property : Property} (h : (p.name, property) ∈ fields.filterMap scope.propertyOf) :
    ∃ s, scope.fragment p.type = some s ∧ property = ⟨s, defaultOf p⟩ := by
  obtain ⟨q, hq, hqp⟩ := List.mem_filterMap.1 h
  obtain ⟨s, hs, hpair⟩ := Option.map_eq_some_iff.1 hqp
  obtain ⟨hname, rfl⟩ := Prod.mk.inj hpair
  obtain rfl : q = p := List.inj_on_of_nodup_map hnodup hq hp hname
  exact ⟨s, hs, rfl⟩

/-- A default that can be documented is written when there is one. -/
theorem isSome_get?_default {p : Param} (s : Schema) (h : ∃ v, documentedDefault p = .ok v) :
    ((Property.toValue ⟨s, defaultOf p⟩).get? "default").isSome = p.hasDefault := by
  obtain ⟨v, hv⟩ := h
  rw [Property.get?_toValue, Schema.get?_default, Option.none_or, if_pos rfl, defaultOf, hv]
  unfold documentedDefault at hv
  cases hd : p.hasDefault with
  | false =>
    simp only [hd, Bool.false_eq_true, if_false, Except.ok.injEq] at hv
    simp [← hv]
  | true =>
    cases hvalue : p.default.toValue with
    | error f => simp [hd, hvalue, Except.map] at hv
    | ok value =>
      simp only [hd, hvalue, if_true, Except.map, Except.ok.injEq] at hv
      simp [← hv]

/-- The written properties of a component. -/
def writtenProperties (c : Component) : List (String × Value) := c.properties.map fun (n, p) => (n, p.toValue)

theorem names_writtenProperties (c : Component) : (writtenProperties c).map (·.1) = c.properties.map (·.1) := by
  rw [writtenProperties, List.map_map]
  rfl

theorem get?_component (c : Component) (key : String) :
    c.toValue.get? key =
      (if "type" = key then some (.str "object")
        else if "properties" = key then some (.object (writtenProperties c)) else none).or
      (if "required" = key ∧ c.required ≠ [] then some (.list (c.required.map Value.str)) else none) := by
  rw [Component.toValue, Value.get?_object_append, Value.get?_object_cons, Value.get?_object_cons,
    Value.get?_object_nil]
  congr 1
  cases hr : c.required with
  | nil => simp [Value.get?_object_nil]
  | cons n names => simp [Value.get?_object_cons, Value.get?_object_nil]

theorem required_of_component {c : Component} {r : Value} (h : c.toValue.get? "required" = some r) :
    c.required ≠ [] ∧ r = .list (c.required.map Value.str) := by
  rw [get?_component] at h
  by_cases hr : c.required = []
  · simp [hr] at h
  · exact ⟨hr, by simpa [hr, eq_comm] using h⟩

/-- A component lists the names that are required in it. -/
theorem lists_iff (c : Component) (n : String) : c.toValue.Lists n ↔ n ∈ c.required := by
  constructor
  · rintro ⟨names, hr, hn⟩
    have hnames : names = c.required := by
      have hmap := (Value.list.inj (required_of_component hr).2)
      exact List.map_injective_iff.2 (fun a b hab => by simpa using hab) hmap
    exact hnames ▸ hn
  · intro hn
    refine ⟨c.required, ?_, hn⟩
    have hne : c.required ≠ [] := List.ne_nil_of_mem hn
    simp [get?_component, hne]

section ComponentOf

variable {t : TypeExpr} {fields : List Param}

theorem properties_componentOf (hfields : scope.fieldsOf t = .ok fields) :
    (scope.componentOf t).properties = fields.filterMap scope.propertyOf := by
  rw [componentOf, componentFrom, fieldList, hfields]

theorem required_componentOf (hfields : scope.fieldsOf t = .ok fields) :
    (scope.componentOf t).required = fields.filterMap scope.requiredName := by
  rw [componentOf, componentFrom, fieldList, hfields]

theorem names_componentOf (hfields : scope.fieldsOf t = .ok fields) :
    (writtenProperties (scope.componentOf t)).map (·.1) =
      (fields.filter fun p => (scope.fragment p.type).isSome).map (·.name) := by
  rw [names_writtenProperties, properties_componentOf hfields, names_propertyOf]

theorem names_componentOf_nodup (hfields : scope.fieldsOf t = .ok fields) :
    ((writtenProperties (scope.componentOf t)).map (·.1)).Nodup := by
  rw [names_componentOf hfields]
  exact (Declarations.fieldsOf_names_nodup hfields).sublist (List.Sublist.map _ List.filter_sublist)

/-- What is written under the name of a field is the property of that field. -/
theorem eq_of_mem_writtenProperties (hfields : scope.fieldsOf t = .ok fields) {p : Param} (hp : p ∈ fields)
    {w : Value} (hw : (p.name, w) ∈ writtenProperties (scope.componentOf t)) :
    ∃ s, scope.fragment p.type = some s ∧ w = Property.toValue ⟨s, defaultOf p⟩ := by
  obtain ⟨⟨n, property⟩, hin, heq⟩ := List.mem_map.1 hw
  obtain ⟨rfl, rfl⟩ := Prod.mk.inj heq
  rw [properties_componentOf hfields] at hin
  obtain ⟨s, hs, rfl⟩ := eq_of_mem_propertyOf (Declarations.fieldsOf_names_nodup hfields) hp hin
  exact ⟨s, hs, rfl⟩

/-- The list of required names, where there is one, is a part of the properties in their order. -/
theorem required_eq_of_componentOf (hfields : scope.fieldsOf t = .ok fields) {r : Value}
    (hr : (scope.componentOf t).toValue.get? "required" = some r) :
    ∃ names : List String, r = .list (names.map Value.str) ∧ names ≠ [] ∧ names.Nodup
      ∧ names.Sublist ((writtenProperties (scope.componentOf t)).map (·.1)) := by
  obtain ⟨hne, rfl⟩ := required_of_component hr
  have hsub : (scope.componentOf t).required.Sublist ((writtenProperties (scope.componentOf t)).map (·.1)) := by
    rw [names_writtenProperties, properties_componentOf hfields, required_componentOf hfields]
    exact requiredNames_sublist fields
  exact ⟨_, rfl, hne, hsub.nodup (names_componentOf_nodup hfields), hsub⟩

/-- A name that is listed belongs to a field without a default, whose schema admits no null. -/
theorem plain_of_lists (hfields : scope.fieldsOf t = .ok fields) {n : String} {w : Value}
    (hn : (scope.componentOf t).toValue.Lists n) (hw : (n, w) ∈ writtenProperties (scope.componentOf t)) :
    ∃ p s, p ∈ fields ∧ scope.fragment p.type = some s ∧ s.nullable = false ∧ p.hasDefault = false
      ∧ w = Property.toValue ⟨s, defaultOf p⟩ := by
  rw [lists_iff, required_componentOf hfields] at hn
  obtain ⟨p, hp, hr⟩ := List.mem_filterMap.1 hn
  obtain ⟨⟨s, hs, hnull⟩, hreq, rfl⟩ := requiredName_eq_some.1 hr
  obtain ⟨s', hs', rfl⟩ := eq_of_mem_writtenProperties hfields hp hw
  obtain rfl : s = s' := Option.some.inj (hs.symm.trans hs')
  exact ⟨p, s, hp, hs, hnull, Declarations.fieldsOf_coherent hfields p hp hreq, rfl⟩

end ComponentOf

/-- **The component of a type is well-formed** when its fields hold. -/
theorem isComponent_componentOf {t : TypeExpr} (h : scope.FieldsHold t) :
    ∃ fields props, scope.fieldsOf t = .ok fields ∧
      scope.IsComponent fields props (scope.componentOf t).toValue := by
  obtain ⟨fields, hfields, hold⟩ := h
  have hdefault : ∀ p ∈ fields, ∀ s, scope.fragment p.type = some s →
      ((Property.toValue ⟨s, defaultOf p⟩).get? "default").isSome = p.hasDefault :=
    fun p hp s hs => isSome_get?_default s ((hold p hp).2 (by simp [hs]))
  refine ⟨fields, writtenProperties (scope.componentOf t), hfields,
    { type_eq := by simp [get?_component]
      properties_eq := by simp [get?_component]
      names_eq := names_componentOf hfields
      names_nodup := names_componentOf_nodup hfields
      required_eq := fun r hr => required_eq_of_componentOf hfields hr
      listed_plain := ?_
      default_iff := ?_
      listed_iff := ?_ }⟩
  · intro n w hn hw
    obtain ⟨p, s, hp, hs, hnull, hplain, rfl⟩ := plain_of_lists hfields hn hw
    constructor
    · simp [Property.get?_toValue, Schema.get?_nullable, hnull]
    · rw [← Option.not_isSome_iff_eq_none, hdefault p hp s hs, hplain]
      simp
  · intro p hp w hw
    obtain ⟨s, hs, rfl⟩ := eq_of_mem_writtenProperties hfields hp hw
    rw [hdefault p hp s hs]
  · intro p hp
    rw [lists_iff, required_componentOf hfields]
    exact mem_requiredNames (Declarations.fieldsOf_names_nodup hfields) hp

end Scope

/-! ### Runs -/

namespace Call

open Documentation

/-- What became of the types that a call entered, in order, each with the declarations that the call brought. -/
inductive Logs (d : Documentation) (c : Call) : List (Scope × Conversion) → Prop
  | idle : c.route? = none ∨ d.finalized = true → Logs d c []
  | done {scope : Scope} {route : Route} {us : List TypeExpr} {ws : List Warning} :
      c.route? = some (scope, route) → d.finalized = false →
      scope.Traverses d.registry.names (scope.routeErrands route) us ws none →
      Logs d c (us.map fun t => (scope, Conversion.finished t))
  | broken {scope : Scope} {route : Route} {left : List Conversion} :
      c.route? = some (scope, route) → d.finalized = false →
      scope.Breaks d.registry.names (scope.routeErrands route) left →
      Logs d c (left.map fun x => (scope, x))

/-- The entry of a type with what became of it. -/
def entryOf (e : Scope × Conversion) : String × Entry := e.1.entryLeft e.2

variable {c : Call} {d : Documentation} {log : List (Scope × Conversion)}

/-- **What a call leaves in the registry**, whether it fails or not. -/
theorem exists_logs (d : Documentation) (c : Call) :
    ∃ log, c.Logs d log ∧ (c.after d).registry = d.registry ++ log.map entryOf := by
  cases hr : c.route? with
  | none => exact ⟨[], .idle (.inl hr), by rw [registry_after_of_route?_eq_none hr]; simp⟩
  | some sr =>
    obtain ⟨scope, route⟩ := sr
    rw [after_of_route? hr]
    cases hd : d.finalized with
    | true => exact ⟨[], .idle (.inr hd), by rw [run_register_of_finalized hd]; simp⟩
    | false =>
      obtain ⟨us, ws, r, htrav, hout⟩ :=
        (Scope.follows_operation route (d.routeTags route)).total ⟨d.registry, d.warnings⟩
      cases r with
      | none =>
        refine ⟨_, .done hr hd htrav, ?_⟩
        rw [run_register_of_traverses hd htrav]
        obtain ⟨v, hv⟩ := publish_frame d.registry route (scope.operationOf route (d.routeTags route))
          { d with registry := d.registry ++ us.map scope.finished, warnings := d.warnings ++ ws }
        rw [hv, List.map_map]
        rfl
      | some f =>
        obtain ⟨b, hb, -⟩ := hout
        obtain ⟨left, hbreak, hreg⟩ := Scope.interrupts_operation route (d.routeTags route)
          ⟨d.registry, d.warnings⟩ b f (Scope.missing_lt_depth _) hb
        refine ⟨_, .broken hr hd hbreak, ?_⟩
        rw [run_register hd, hb, List.map_map]
        exact hreg

namespace Logs

/-- The fields of a type that was finished hold. -/
theorem fieldsHold (h : c.Logs d log) {scope : Scope} {t : TypeExpr} (ht : (scope, .finished t) ∈ log) :
    scope.FieldsHold t := by
  refine Scope.stop_notMem_structErrands_iff.1 fun f => ?_
  cases h with
  | idle => cases ht
  | done _ _ htrav =>
    obtain ⟨u, hu, heq⟩ := List.mem_map.1 ht
    cases heq
    exact (htrav.stop_notMem f).2 t hu
  | broken _ _ hbreak =>
    obtain ⟨x, hx, heq⟩ := List.mem_map.1 ht
    cases heq
    exact hbreak.clean_of_finished hx f

/-- Only a call that fails leaves a type under way. -/
theorem exists_failure (h : c.Logs d log) {scope : Scope} {t : TypeExpr} {component : Component}
    (ht : (scope, .begun t component) ∈ log) : ∃ f, c.failure? d = some f := by
  cases h with
  | idle => cases ht
  | done _ _ _ =>
    obtain ⟨u, -, heq⟩ := List.mem_map.1 ht
    cases heq
  | @broken scope route left hr hd hbreak =>
    obtain ⟨us, ws, f, htrav⟩ := hbreak.exists_traverses
    obtain ⟨us', ws', r, htrav', hout⟩ :=
      (Scope.follows_operation route (d.routeTags route)).total ⟨d.registry, d.warnings⟩
    obtain ⟨rfl, rfl, rfl⟩ := htrav'.unique htrav
    obtain ⟨b, hb, -⟩ := hout
    exact ⟨f, (failure?_of_route? hr).2 (by rw [run_register hd, hb])⟩

end Logs

end Call

namespace Documentation

/-- What became of all types that a run of calls entered. -/
inductive RunLogs : Documentation → List Call → List (Scope × Conversion) → Prop
  | nil {d : Documentation} : RunLogs d [] []
  | cons {d : Documentation} {c : Call} {calls : List Call} {log rest : List (Scope × Conversion)} :
      c.Logs d log → RunLogs (c.after d) calls rest → RunLogs d (c :: calls) (log ++ rest)

namespace RunLogs

variable {d : Documentation} {calls : List Call} {log : List (Scope × Conversion)}

/-- The registry after a run; by induction on the calls. -/
theorem exists_registry (d : Documentation) (calls : List Call) :
    ∃ log, RunLogs d calls log ∧ (d.afterCalls calls).registry = d.registry ++ log.map Call.entryOf := by
  induction calls generalizing d with
  | nil => exact ⟨[], .nil, by simp⟩
  | cons c calls ih =>
    obtain ⟨log, hlog, hreg⟩ := Call.exists_logs d c
    obtain ⟨rest, hrest, hregs⟩ := ih (c.after d)
    refine ⟨log ++ rest, .cons hlog hrest, ?_⟩
    rw [afterCalls_cons, hregs, hreg, List.map_append, List.append_assoc]

theorem fieldsHold (h : RunLogs d calls log) {scope : Scope} {t : TypeExpr} (ht : (scope, .finished t) ∈ log) :
    scope.FieldsHold t := by
  induction h with
  | nil => cases ht
  | cons hc _ ih =>
    rcases List.mem_append.1 ht with ht | ht
    · exact hc.fieldsHold ht
    · exact ih ht

theorem exists_failure (h : RunLogs d calls log) {scope : Scope} {t : TypeExpr} {component : Component}
    (ht : (scope, .begun t component) ∈ log) :
    ∃ before c after f, calls = before ++ c :: after ∧ c.failure? (d.afterCalls before) = some f := by
  induction h with
  | nil => cases ht
  | @cons d c calls _ _ hc _ ih =>
    rcases List.mem_append.1 ht with ht | ht
    · obtain ⟨f, hf⟩ := hc.exists_failure ht
      exact ⟨[], c, calls, f, rfl, hf⟩
    · obtain ⟨before, c', after, f, rfl, hf⟩ := ih ht
      exact ⟨c :: before, c', after, f, rfl, hf⟩

end RunLogs

/-- **Components are well-formed in every registry.**  After any run of calls, failing ones and overrides among
them, the registry consists of one entry for each type that was entered, under distinct names.  The entry of a
type that was finished is a well-formed component of its fields; only a call that failed leaves a type under way. -/
theorem components_wellFormed (s : Settings) (calls : List Call) :
    ∃ log, RunLogs (new s) calls log ∧
      ((new s).afterCalls calls).registry = log.map Call.entryOf ∧
      ((new s).afterCalls calls).registry.names.Nodup ∧
      (∀ scope t, (scope, Conversion.finished t) ∈ log → ∃ fields props,
        scope.fieldsOf t = .ok fields ∧
          scope.IsComponent fields props (scope.finished t).2.toValue) ∧
      (∀ scope t component, (scope, Conversion.begun t component) ∈ log → ∃ before c after f,
        calls = before ++ c :: after ∧ c.failure? ((new s).afterCalls before) = some f) := by
  obtain ⟨log, hlog, hreg⟩ := RunLogs.exists_registry (new s) calls
  have hreg : ((new s).afterCalls calls).registry = log.map Call.entryOf := hreg
  obtain ⟨names, hnames⟩ := RunEnters.total (new s) calls
  refine ⟨log, hlog, hreg, ?_, fun scope t ht => ?_, fun scope t component ht => hlog.exists_failure ht⟩
  · rw [hnames.registry_after.2]
    exact hnames.nodup_and_fresh.1
  · exact Scope.isComponent_componentOf (hlog.fieldsHold ht)

end Documentation

end RouteDoc
