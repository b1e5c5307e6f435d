import RouteDoc.Proofs.Factories
import RouteDoc.Proofs.Registration

/-!
# Components of reachable types

A type refers to at most one structured type: the one that it is below wrappers, aliases and a choice with
null alone, or the one that its items refer to when it is an array.  From there on paths lead through the
fields of structured types.

* `Scope.RefersTo`, `Scope.Reaches` — the structured type referred to, and those that paths lead to;
* `Scope.DescribedAs`, `Scope.fragment_induction` — how descriptions come about, and what they are;
* `Scope.describe_describes` — a description names exactly what its type refers to;
* `Scope.build_reachable` — describing a type registers exactly the reachable types, in depth-first pre-order,
  with components that depend on the declarations alone.
-/

namespace RouteDoc

/-- The components that a description refers to. -/
def Schema.components : Schema → List String
  | .reference _ component => [component]
  | .array _ items => items.components
  | .simple _ _ _ _ _ => []

namespace TypeExpr

theorem unwrap_stripWrappers (t : TypeExpr) : t.stripWrappers.unwrap = t.unwrap := by
  fun_induction stripWrappers t with
  | case1 w inner ih => rw [ih, unwrap]
  | case2 => rfl

@[simp] theorem unwrap_unwrap (t : TypeExpr) : t.unwrap.unwrap = t.unwrap := by
  fun_induction unwrap t with
  | case1 w inner ih => exact ih
  | case2 n target ih => exact ih
  | case3 w => cases w <;> rfl
  | case4 t h₁ h₂ h₃ =>
    cases t with
    | wrapped w inner => exact (h₁ w inner rfl).elim
    | renamed n target => exact (h₂ n target rfl).elim
    | width w => exact (h₃ w rfl).elim
    | _ => rfl

end TypeExpr

@[simp] theorem Declarations.typeName_unwrap (env : Declarations) (t : TypeExpr) :
    env.typeName t.unwrap = env.typeName t := by
  simp only [typeName, TypeExpr.unwrap_unwrap]

namespace Scope

variable {scope : Scope}

/-! ### What a type refers to -/

/-- A type refers to a structured type: it is that type, or an array of items that refer to it.  Wrappers,
aliases and null as the only other choice do not matter. -/
inductive RefersTo (scope : Scope) : TypeExpr → TypeExpr → Prop
  | struct {t payload : TypeExpr} {nullable : Bool} : t.payload? = some (nullable, payload) →
      scope.types.isStruct payload = true → RefersTo scope t payload.unwrap
  | items {t payload item u : TypeExpr} {nullable : Bool} : t.payload? = some (nullable, payload) →
      scope.types.tag payload = .array → payload.itemType? = some item → RefersTo scope item u →
      RefersTo scope t u

theorem refersTo_iff {t payload u : TypeExpr} {nullable : Bool} (hp : t.payload? = some (nullable, payload)) :
    scope.RefersTo t u ↔
      (scope.types.tag payload = .object ∧ u = payload.unwrap) ∨
        (scope.types.tag payload = .array ∧ ∃ item, payload.itemType? = some item ∧ scope.RefersTo item u) := by
  constructor
  · intro h
    cases h with
    | struct hp' hs =>
      cases hp.symm.trans hp'
      exact .inl ⟨by simpa [Declarations.isStruct] using hs, rfl⟩
    | items hp' ha hi h =>
      cases hp.symm.trans hp'
      exact .inr ⟨ha, _, hi, h⟩
  · rintro (⟨hs, rfl⟩ | ⟨ha, item, hi, h⟩)
    · exact .struct hp (by simp [Declarations.isStruct, hs])
    · exact .items hp ha hi h

theorem not_refersTo {t u : TypeExpr} (hp : t.payload? = none) : ¬ scope.RefersTo t u := by
  rintro (⟨hp', -⟩ | ⟨hp', -, -, -⟩) <;> rw [hp] at hp' <;> cases hp'

theorem members?_eq_none {t : TypeExpr} (h : scope.types.tag t ≠ .union) : t.members? = none := by
  unfold TypeExpr.members?
  split
  · next members hs =>
    have hu : t.unwrap = .unionOf members := by
      rw [← TypeExpr.unwrap_stripWrappers, hs]
      rfl
    rw [Declarations.tag, hu] at h
    exact absurd rfl h
  · rfl

/-- A type that denotes no value is no choice. -/
theorem payload?_of_nothing {t : TypeExpr} (h : scope.types.tag t = .nothing) : t.payload? = some (false, t) := by
  have hne : scope.types.tag t ≠ .union := by simp [h]
  have hm : t.members? = none := members?_eq_none hne
  simp only [TypeExpr.payload?, hm]

theorem tag_ne_nothing {t payload : TypeExpr} {nullable : Bool} (hp : t.payload? = some (nullable, payload))
    (h : scope.types.tag payload ≠ .nothing) : scope.types.tag t ≠ .nothing := by
  intro ht
  cases hp.symm.trans (payload?_of_nothing ht)
  exact h ht

/-- The description of a type that denotes values and is one type with or without null. -/
theorem describe_of_payload? {t payload : TypeExpr} {nullable : Bool}
    (hp : t.payload? = some (nullable, payload)) (ht : scope.types.tag t ≠ .nothing) :
    scope.describe t =
      match scope.types.tag payload with
      | .object => .ok ⟨some (.reference nullable (scope.types.typeName payload)), some payload.unwrap, []⟩
      | .array =>
        match payload.itemType? with
        | some item => (scope.describe item).map (describeArray nullable payload)
        | none =>
          (scope.describeSimple false .any).map fun s => describeArray nullable payload ⟨some s, none, []⟩
      | _ => (scope.describeSimple nullable payload).map fun s => ⟨some s, none, []⟩ := by
  rw [describe, if_neg (by simpa using ht)]
  split
  · next hp' => cases hp.symm.trans hp'
  · next hp' =>
    cases hp.symm.trans hp'
    cases htag : scope.types.tag payload <;> try rfl
    cases hi : payload.itemType? with
    | none => split <;> simp_all
    | some item => split <;> simp_all

theorem describe_struct {t payload : TypeExpr} {nullable : Bool} (hp : t.payload? = some (nullable, payload))
    (hs : scope.types.tag payload = .object) :
    scope.describe t
      = .ok ⟨some (.reference nullable (scope.types.typeName payload)), some payload.unwrap, []⟩ := by
  have ht : scope.types.tag t ≠ .nothing := tag_ne_nothing hp (by simp [hs])
  simp only [describe_of_payload? hp ht, hs]

theorem describe_items {t payload item : TypeExpr} {nullable : Bool}
    (hp : t.payload? = some (nullable, payload)) (ha : scope.types.tag payload = .array)
    (hi : payload.itemType? = some item) :
    scope.describe t = (scope.describe item).map (describeArray nullable payload) := by
  have ht : scope.types.tag t ≠ .nothing := tag_ne_nothing hp (by simp [ha])
  simp only [describe_of_payload? hp ht, ha, hi]

/-! ### What descriptions are -/

/-- How a type gets its description when nothing fails. -/
inductive DescribedAs (scope : Scope) : TypeExpr → Description → Prop
  | nothing {t : TypeExpr} : scope.types.tag t = .nothing → DescribedAs scope t ⟨none, none, []⟩
  /-- A choice that is not one type with or without null. -/
  | choice {t : TypeExpr} : scope.types.tag t ≠ .nothing → t.payload? = none →
      DescribedAs scope t ⟨none, none, [.ambiguousUnion t]⟩
  | struct {t payload : TypeExpr} {nullable : Bool} : t.payload? = some (nullable, payload) →
      scope.types.tag payload = .object →
      DescribedAs scope t ⟨some (.reference nullable (scope.types.typeName payload)), some payload.unwrap, []⟩
  | items {t payload item : TypeExpr} {nullable : Bool} {items : Description} :
      t.payload? = some (nullable, payload) → scope.types.tag payload = .array → payload.itemType? = some item →
      DescribedAs scope item items → DescribedAs scope t (describeArray nullable payload items)
  /-- Items that are not given are of any type. -/
  | anyItems {t payload : TypeExpr} {nullable : Bool} {s : Schema} :
      t.payload? = some (nullable, payload) → scope.types.tag payload = .array → payload.itemType? = none →
      scope.describeSimple false .any = .ok s → DescribedAs scope t ⟨some (.array nullable s), none, []⟩
  | simple {t payload : TypeExpr} {nullable : Bool} {s : Schema} :
      t.payload? = some (nullable, payload) → scope.types.tag t ≠ .nothing → scope.types.tag payload ≠ .object →
      scope.types.tag payload ≠ .array → scope.describeSimple nullable payload = .ok s →
      DescribedAs scope t ⟨some s, none, []⟩

/-- **Every description comes about in one of these ways**, by the recursion of the description. -/
theorem describedAs_of_describe {t : TypeExpr} {d : Description} (h : scope.describe t = .ok d) :
    scope.DescribedAs t d := by
  induction t using describe.induct scope generalizing d with
  | case1 t ht =>
    rw [describe, if_pos ht] at h
    cases h
    exact .nothing (by simpa using ht)
  | case2 t ht hp =>
    rw [describe, if_neg ht] at h
    split at h
    · cases h
      exact .choice (by simpa using ht) hp
    · next hp' => cases hp.symm.trans hp'
  | case3 t ht nullable payload hp hs =>
    rw [describe_struct hp hs] at h
    cases h
    exact .struct hp hs
  | case4 t ht nullable payload hp ha item hi ih =>
    rw [describe_items hp ha hi] at h
    obtain ⟨items, hitems, rfl⟩ := exists_of_map_eq_ok h
    exact .items hp ha hi (ih hitems)
  | case5 t ht nullable payload hp ha hi =>
    rw [describe_of_payload? hp (by simpa using ht)] at h
    simp only [ha, hi] at h
    obtain ⟨s, hs, rfl⟩ := exists_of_map_eq_ok h
    exact .anyItems hp ha hi hs
  | case6 t ht nullable payload hp hs ha =>
    have ht : scope.types.tag t ≠ .nothing := by simpa using ht
    rw [describe_of_payload? hp ht] at h
    split at h
    · next hs' => exact (hs hs').elim
    · next ha' => exact (ha ha').elim
    · obtain ⟨s, hs', rfl⟩ := exists_of_map_eq_ok h
      exact .simple hp ht hs ha hs'

theorem exists_of_fragment {t : TypeExpr} {s : Schema} (h : scope.fragment t = some s) :
    ∃ d, scope.DescribedAs t d ∧ d.schema = some s := by
  cases hd : scope.describe t with
  | error f => simp [fragment, hd] at h
  | ok d => exact ⟨d, describedAs_of_describe hd, by simpa [fragment, hd] using h⟩

theorem schema_describeArray {nullable : Bool} {t : TypeExpr} {items : Description} {s : Schema}
    (h : (describeArray nullable t items).schema = some s) :
    ∃ inner, items.schema = some inner ∧ s = .array nullable inner := by
  unfold describeArray at h
  split at h
  · next inner hinner =>
    cases h
    exact ⟨inner, hinner, rfl⟩
  · next hnone =>
    rw [hnone] at h
    cases h

/-- **What every description is**: a property of descriptions holds of all of them when it holds of references and
of the descriptions of types that are neither structured nor arrays, and passes from the items of an array to the
array. -/
theorem fragment_induction {P : Schema → Prop} (reference : ∀ nullable name, P (.reference nullable name))
    (array : ∀ nullable items, P items → P (.array nullable items))
    (simple : ∀ nullable u s, scope.types.tag u ≠ .object → scope.types.tag u ≠ .array →
      scope.describeSimple nullable u = .ok s → P s)
    {t : TypeExpr} {s : Schema} (h : scope.fragment t = some s) : P s := by
  obtain ⟨d, hd, hs⟩ := exists_of_fragment h
  clear h
  induction hd generalizing s with
  | nothing => cases hs
  | choice => cases hs
  | struct =>
    cases hs
    exact reference _ _
  | items _ _ _ hitems ih =>
    obtain ⟨inner, hinner, rfl⟩ := schema_describeArray hs
    exact array _ _ (ih hinner)
  | anyItems _ _ _ hitems =>
    cases hs
    have hany : scope.types.tag .any = .unknown := rfl
    exact array _ _ (simple _ _ _ (by simp [hany]) (by simp [hany]) hitems)
  | simple _ _ hstruct ha hsimple =>
    cases hs
    exact simple _ _ _ hstruct ha hsimple

/-- **What the description of a type says that is neither structured nor an array**: name and format as they are
found, the members of an enumeration as its choices, and the example of a date-time. -/
theorem of_describeSimple_eq_ok {t : TypeExpr} {nullable : Bool} {s : Schema}
    (h : scope.describeSimple nullable t = .ok s) :
    ∃ choices : Option Choices,
      s = .simple nullable (scope.types.nameAndFormat t).1 (scope.types.nameAndFormat t).2 choices
          (if scope.types.isDateTime t then some (dateTimeSample scope.year) else none) ∧
        ∀ c, choices = some c → scope.types.tag t = .enum ∧ c.source = t.unwrap.origin? ∧
          valuesOf (scope.types.enumValues t) = .ok c.values := by
  cases he : scope.types.tag t == .enum with
  | true =>
    cases hv : valuesOf (scope.types.enumValues t) with
    | error f =>
      simp only [describeSimple, he, hv] at h
      cases h
    | ok vs =>
      simp only [describeSimple, he, hv] at h
      cases h
      refine ⟨some ⟨t.unwrap.origin?, vs⟩, rfl, fun c hc => ?_⟩
      cases hc
      exact ⟨by simpa using he, rfl, rfl⟩
  | false =>
    simp only [describeSimple, he] at h
    cases h
    exact ⟨none, rfl, by simp⟩

theorem components_of_describeSimple {t : TypeExpr} {nullable : Bool} {s : Schema}
    (h : scope.describeSimple nullable t = .ok s) : s.components = [] := by
  obtain ⟨choices, rfl, -⟩ := of_describeSimple_eq_ok h
  rfl

/-- What a description says about the type that it describes. -/
structure Describes (scope : Scope) (t : TypeExpr) (d : Description) : Prop where
  /-- The structured type to be registered is the one referred to. -/
  target_iff : ∀ u, d.target = some u ↔ scope.RefersTo t u
  /-- What has no description refers to nothing. -/
  target_eq_none : d.schema = none → d.target = none
  /-- A description names the type to be registered. -/
  components_eq : ∀ s, d.schema = some s → s.components = (d.target.map scope.types.typeName).toList

/-- The description of a type that refers to nothing names nothing. -/
theorem Describes.of_simple {t : TypeExpr} {d : Description} (ht : d.target = none)
    (hs : ∀ s, d.schema = some s → s.components = []) (hr : ∀ u, ¬ scope.RefersTo t u) :
    scope.Describes t d :=
  ⟨fun u => by simp [ht, hr u], fun _ => ht, fun s h => by simp [ht, hs s h]⟩

/-- **A description names what its type refers to.** -/
theorem describe_describes {t : TypeExpr} {d : Description} (h : scope.describe t = .ok d) :
    scope.Describes t d := by
  replace h := describedAs_of_describe h
  induction h with
  | nothing ht =>
    refine .of_simple rfl (by simp) fun u hr => ?_
    simp [refersTo_iff (payload?_of_nothing ht), ht] at hr
  | choice _ hp => exact .of_simple rfl (by simp) fun u => not_refersTo hp
  | struct hp hs =>
    refine ⟨fun u => ?_, by simp, by simp [Schema.components]⟩
    simp [refersTo_iff hp, hs, eq_comm]
  | @items t payload item nullable items hp ha hi _ hitems =>
    have href : ∀ u, scope.RefersTo t u ↔ scope.RefersTo item u := fun u => by simp [refersTo_iff hp, ha, hi]
    cases hs : items.schema with
    | some s =>
      refine ⟨fun u => ?_, ?_, ?_⟩
      · simpa [describeArray, hs, href] using hitems.target_iff u
      · simp [describeArray, hs]
      · simpa [describeArray, hs, Schema.components] using hitems.components_eq s hs
    | none =>
      have hnone : items.target = none := hitems.target_eq_none hs
      refine .of_simple (by simpa [describeArray, hs] using hnone) (by simp [describeArray, hs]) fun u hr => ?_
      rw [href, ← hitems.target_iff, hnone] at hr
      cases hr
  | anyItems hp ha hi hitems =>
    refine .of_simple rfl ?_ fun u hr => ?_
    · simp [Schema.components, components_of_describeSimple hitems]
    · simp [refersTo_iff hp, ha, hi] at hr
  | simple hp _ hs ha hsimple =>
    refine .of_simple rfl ?_ fun u hr => ?_
    · simp [components_of_describeSimple hsimple]
    · exact ((refersTo_iff hp).1 hr).elim (fun hr => hs hr.1) fun hr => ha hr.1

/-- What refers to a structured type has a description. -/
theorem RefersTo.describe {t u : TypeExpr} (h : scope.RefersTo t u) :
    ∃ d, scope.describe t = .ok d ∧ d.target = some u := by
  induction h with
  | struct hp hs => exact ⟨_, describe_struct hp (by simpa [Declarations.isStruct] using hs), rfl⟩
  | @items t payload item u nullable hp ha hi h ih =>
    obtain ⟨d, hd, htarget⟩ := ih
    refine ⟨describeArray nullable payload d, by rw [describe_items hp ha hi, hd]; rfl, ?_⟩
    cases hs : d.schema <;> simpa [describeArray, hs] using htarget

theorem visit_mem_typeErrands {t u : TypeExpr} : .visit u ∈ scope.typeErrands t ↔ scope.RefersTo t u := by
  constructor
  · intro h
    unfold typeErrands at h
    cases hd : scope.describe t with
    | error f => simp [hd] at h
    | ok d => exact ((describe_describes hd).target_iff u).1 (by simpa [hd, eq_comm] using h)
  · intro h
    obtain ⟨d, hd, htarget⟩ := h.describe
    simp [typeErrands, hd, htarget]

theorem visit_notMem_defaultErrands {u : TypeExpr} {p : Param} : .visit u ∉ defaultErrands p := by
  unfold defaultErrands
  cases documentedDefault p <;> simp

theorem visit_mem_typedErrands {t u : TypeExpr} {p : Param} {w : Warning} :
    .visit u ∈ scope.typedErrands t p w ↔ scope.RefersTo t u := by
  rw [typedErrands, List.mem_append, visit_mem_typeErrands]
  -- Neither the documenting of a default nor a notice visits a type.
  cases scope.fragment t with
  | none => simp
  | some s => simp [visit_notMem_defaultErrands]

theorem visit_mem_structErrands {t u : TypeExpr} :
    .visit u ∈ scope.structErrands t ↔ ∃ p ∈ scope.fieldList t, scope.RefersTo p.type u := by
  unfold structErrands fieldList
  cases scope.fieldsOf t with
  | error f => simp
  | ok fields => simp [fieldErrands, visit_mem_typedErrands]

/-- The type can be described, and so can its default where it is documented. -/
def FieldHolds (scope : Scope) (p : Param) : Prop :=
  (∃ d, scope.describe p.type = .ok d) ∧ (scope.fragment p.type ≠ none → ∃ v, documentedDefault p = .ok v)

/-- The fields of a structured type can be read, and nothing fails in them. -/
def FieldsHold (scope : Scope) (t : TypeExpr) : Prop :=
  ∃ fields, scope.fieldsOf t = .ok fields ∧ ∀ p ∈ fields, scope.FieldHolds p

theorem stop_notMem_typeErrands_iff {t : TypeExpr} :
    (∀ f, .stop f ∉ scope.typeErrands t) ↔ ∃ d, scope.describe t = .ok d := by
  unfold typeErrands
  cases scope.describe t <;> simp

theorem stop_notMem_fieldErrands_iff (owner : String) {p : Param} :
    (∀ f, .stop f ∉ scope.fieldErrands owner p) ↔ scope.FieldHolds p := by
  rw [FieldHolds, ← stop_notMem_typeErrands_iff]
  simp only [fieldErrands, typedErrands, List.mem_append, not_or, forall_and]
  refine and_congr_right fun _ => ?_
  cases scope.fragment p.type with
  | none => simp
  | some s =>
    unfold defaultErrands
    cases documentedDefault p <;> simp

theorem stop_notMem_structErrands_iff {t : TypeExpr} :
    (∀ f, .stop f ∉ scope.structErrands t) ↔ scope.FieldsHold t := by
  unfold structErrands FieldsHold
  cases scope.fieldsOf t with
  | error f => simp
  | ok fields =>
    simp only [List.mem_flatMap, not_exists, not_and, Except.ok.injEq, exists_eq_left',
      ← stop_notMem_fieldErrands_iff (scope.types.typeName t)]
    exact ⟨fun h p hp f => h f p hp, fun h f p hp => h p hp f⟩

theorem fragment_atTime (time : Nat) (t : TypeExpr) : (scope.atTime time).fragment t = scope.fragment t := by
  rw [fragment, fragment, describe_atTime]

/-- Trees: nodes with a label, further nodes, and perhaps a parent. -/
def trees : Scope :=
  ⟨[⟨"Node", "Node", .dataclass,
      [⟨"label", .forward "Label", none, none⟩,
        ⟨"children", .container .list false (some [.forward "Node"]), none, none⟩,
        ⟨"parent", .union [.forward "Node", .nullType], none, none⟩], [], none⟩,
    ⟨"Label", "Label", .dataclass, [⟨"text", .builtin .str, some (.fresh (.str "")), none⟩], [], none⟩], 2024, 0⟩

/-- Tickets, whose number is the time of the call that describes them. -/
def tickets : Scope :=
  ⟨[⟨"Ticket", "Ticket", .dataclass,
      [⟨"number", .builtin .int, some (.made fun
        | .component time _ => .ok (.int time)
        | _ => .ok (.int 0)), none⟩], [], none⟩], 2024, 0⟩

/-- **Factories that are not steady show in the components**: the same type has another one at another time. -/
theorem componentOf_tickets (time : Nat) :
    ((tickets.atTime time).componentOf (.declared "Ticket")).properties.map (fun e => (e.1, e.2.default)) =
      [("number", some (.int time))] := by
  have hfields : (tickets.atTime time).fieldList (.declared "Ticket") =
      [⟨"number", .builtin .int, false, true, .int time⟩] := rfl
  obtain ⟨s, hs⟩ : ∃ s, tickets.fragment (.builtin .int) = some s := Option.isSome_iff_exists.1 (by decide +kernel)
  have hproperty : (tickets.atTime time).propertyOf ⟨"number", .builtin .int, false, true, .int time⟩ =
      some ("number", ⟨s, some (.int time)⟩) := by
    rw [propertyOf, fragment_atTime, hs]
    rfl
  rw [componentOf, hfields, componentFrom, List.filterMap_cons_some hproperty]
  rfl

end Scope

end RouteDoc
