import RouteDoc.Datum.Plain
import RouteDoc.Enumeration
import RouteDoc.Field
import RouteDoc.Schema

/-!
# Describing types

The description of a type depends on the declarations alone, not on what is already registered.  It
refers to at most one structured type, which has to be registered beside it.

* `Scope.describe` — the description of a type, with the structured type it refers to.
-/

namespace RouteDoc

/-- What a call depends on: the declared types, the current year, and the time by which calls are told apart. -/
structure Scope where
  types : Declarations
  year : Nat
  time : Nat := 0
  deriving Inhabited

/-- Notices that something is left out of the document. -/
inductive Warning where
  /-- A union that is not one type with or without null. -/
  | ambiguousUnion (t : TypeExpr)
  /-- An array whose items cannot be described. -/
  | undescribedItems (t : TypeExpr)
  /-- A field that cannot be described. -/
  | undescribedField (type field : String)
  /-- A parameter that cannot be described. -/
  | undescribedParam (location name : String)
  deriving Repr, Inhabited

/-- The description of a type, if it has one, the structured type it refers to, and the notices given on
the way. -/
structure Description where
  schema : Option Schema
  target : Option TypeExpr
  warnings : List Warning
  deriving Repr, Inhabited

namespace TypeExpr

theorem sizeOf_stripWrappers_le (t : TypeExpr) : sizeOf t.stripWrappers ≤ sizeOf t := by
  fun_induction stripWrappers t with
  | case1 w inner ih => simp only [wrapped.sizeOf_spec]; omega
  | case2 => exact Nat.le_refl _

theorem sizeOf_unwrap_le (t : TypeExpr) : sizeOf t.unwrap ≤ sizeOf t := by
  fun_induction unwrap t with
  | case1 w inner ih => simp only [wrapped.sizeOf_spec]; omega
  | case2 n target ih => simp only [renamed.sizeOf_spec]; omega
  | case3 w => cases w <;> simp [Width.target]
  | case4 => exact Nat.le_refl _

theorem sizeOf_lt_of_mem_arguments {t a : TypeExpr} (h : a ∈ t.arguments) : sizeOf a < sizeOf t := by
  cases t with
  | container c historic args =>
    cases args with
    | none => simp [arguments] at h
    | some args =>
      have := List.sizeOf_lt_of_mem (show a ∈ args from h)
      simp only [container.sizeOf_spec, Option.some.sizeOf_spec]
      omega
  | extractor e arg =>
    cases arg with
    | none => simp [arguments] at h
    | some arg =>
      simp only [arguments, List.mem_singleton] at h
      subst h
      simp only [extractor.sizeOf_spec, Option.some.sizeOf_spec]
      omega
  | unionOf members =>
    have := List.sizeOf_lt_of_mem (show a ∈ members from h)
    simp only [unionOf.sizeOf_spec]
    omega
  | wrapped w inner =>
    simp only [arguments, List.mem_singleton] at h
    subst h
    simp only [wrapped.sizeOf_spec]
    omega
  | qualified q inner =>
    cases q <;> simp only [arguments, List.mem_singleton, List.not_mem_nil] at h
    all_goals
      subst h
      simp only [qualified.sizeOf_spec]
      omega
  | literal values =>
    simp only [arguments, List.mem_map] at h
    obtain ⟨l, hl, rfl⟩ := h
    have := List.sizeOf_lt_of_mem hl
    simp only [literal.sizeOf_spec, value.sizeOf_spec]
    omega
  | _ => simp [arguments] at h

theorem sizeOf_itemType?_lt {t a : TypeExpr} (h : t.itemType? = some a) : sizeOf a < sizeOf t :=
  Nat.lt_of_lt_of_le (sizeOf_lt_of_mem_arguments (List.mem_of_head? h)) (sizeOf_unwrap_le t)

theorem sizeOf_lt_of_members? {t a : TypeExpr} {nullable : Bool} {rest : List TypeExpr}
    (h : t.members? = some (nullable, rest)) (ha : a ∈ rest) : sizeOf a < sizeOf t := by
  unfold members? at h
  split at h
  · next members hm =>
    simp only [Option.some.injEq, Prod.mk.injEq] at h
    obtain ⟨-, rfl⟩ := h
    have h1 := List.sizeOf_lt_of_mem (List.mem_filter.1 ha).1
    have h2 := sizeOf_stripWrappers_le t
    rw [hm, unionOf.sizeOf_spec] at h2
    omega
  · cases h

/-- The one type that a type is, with or without null; nothing for other unions. -/
def payload? (t : TypeExpr) : Option (Bool × TypeExpr) :=
  match t.members? with
  | some (nullable, [payload]) => some (nullable, payload)
  | some _ => none
  | none => some (false, t)

theorem sizeOf_payload?_le {t p : TypeExpr} {nullable : Bool} (h : t.payload? = some (nullable, p)) :
    sizeOf p ≤ sizeOf t := by
  unfold payload? at h
  split at h
  · next n q hm =>
    cases h
    exact Nat.le_of_lt (sizeOf_lt_of_members? hm (List.mem_singleton_self _))
  · cases h
  · cases h
    exact Nat.le_refl _

end TypeExpr

/-- The members of a built-in enumeration. -/
def Builtin.members : Builtin → List Datum
  | .bodyKind => [.str "json", .str "text", .str "form"]
  | _ => []

namespace Declarations

/-- The values of the members of an enumeration. -/
def enumValues (env : Declarations) (t : TypeExpr) : List Datum :=
  match t.unwrap with
  | .builtin b => b.members
  | .declared id =>
    match env.enumeration? id with
    | some (base, members) => base.canonical (members.map fun (_, d) => base.convert d)
    | none => []
  | _ => []

end Declarations

/-- The document values of several values, from the first on. -/
def valuesOf : List Datum → Except Failure (List Value)
  | [] => .ok []
  | d :: rest => do
    let v ← d.toValue
    .ok (v :: (← valuesOf rest))

namespace Scope

/-- The description of a type that is neither structured nor an array. -/
def describeSimple (scope : Scope) (nullable : Bool) (t : TypeExpr) : Except Failure Schema := do
  let tag := scope.types.tag t
  let (word, format) := scope.types.nameAndFormat t
  let choices ← if tag == .enum
    then (valuesOf (scope.types.enumValues t)).map fun values => some ⟨t.unwrap.origin?, values⟩
    else .ok none
  let sample := if tag == .dateTime then some (dateTimeSample scope.year) else none
  .ok (.simple nullable word format choices sample)

/-- The description of an array, given that of its items. -/
def describeArray (nullable : Bool) (t : TypeExpr) (items : Description) : Description :=
  match items.schema with
  | some s => { items with schema := some (.array nullable s) }
  | none => { items with warnings := items.warnings ++ [.undescribedItems t] }

/-- The description of a type.  The absence of a value has none, nor has a union that is not one type
with or without null. -/
def describe (scope : Scope) (t : TypeExpr) : Except Failure Description :=
  if scope.types.tag t == .nothing then .ok ⟨none, none, []⟩
  else
    match _h : t.payload? with
    | none => .ok ⟨none, none, [.ambiguousUnion t]⟩
    | some (nullable, payload) =>
      match scope.types.tag payload with
      | .object =>
        .ok ⟨some (.reference nullable (scope.types.typeName payload)), some payload.unwrap, []⟩
      | .array =>
        match _hi : payload.itemType? with
        | some item => (describe scope item).map (describeArray nullable payload)
        | none =>
          (describeSimple scope false .any).map fun s => describeArray nullable payload ⟨some s, none, []⟩
      | _ => (describeSimple scope nullable payload).map fun s => ⟨some s, none, []⟩
termination_by sizeOf t
decreasing_by
  exact Nat.lt_of_lt_of_le (TypeExpr.sizeOf_itemType?_lt _hi) (TypeExpr.sizeOf_payload?_le _h)

end Scope

end RouteDoc
