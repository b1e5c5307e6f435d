import RouteDoc.Proofs.Flattening
import RouteDoc.Proofs.Fragments

/-!
# Aliases

A distinct name for a type is described as the type that it names, and enters the same components.  The one exception
is a union: a choice is looked for below wrappers and not below aliases, so behind a name of its own a union is a text
like any type that nothing else is known of, and a nullable one counts as required.

* `Scope.outline` — a description without its notices, and how it is found;
* `Scope.ReadAlike`, `Scope.outline_congr` — types that are read alike are described alike;
* `Scope.BuiltAlike` — the same description and the same registry, whatever was registered before;
* `Scope.alias_builtAlike_iff` — which aliases are documented as the type that they name.
-/

namespace RouteDoc

namespace Scope

variable {scope : Scope}

/-! ### Descriptions without notices -/

/-- What a description says, but for notices: the schema, and the structured type to be registered. -/
def outline (scope : Scope) (t : TypeExpr) : Except Failure (Option Schema × Option TypeExpr) :=
  (scope.describe t).map fun d => (d.schema, d.target)

/-- The outline of an array, given that of its items. -/
def arrayOutline (nullable : Bool) (items : Option Schema × Option TypeExpr) : Option Schema × Option TypeExpr :=
  (items.1.map (.array nullable), items.2)

theorem map_describeArray (nullable : Bool) (payload : TypeExpr) (x : Except Failure Description) :
    ((x.map (describeArray nullable payload)).map fun d => (d.schema, d.target))
      = (x.map fun d => (d.schema, d.target)).map (arrayOutline nullable) := by
  cases x with
  | error f => rfl
  | ok d =>
    simp only [Except.map, describeArray, arrayOutline]
    cases d.schema <;> rfl

theorem outline_of_nothing {t : TypeExpr} (h : scope.types.tag t = .nothing) : scope.outline t = .ok (none, none) := by
  rw [outline, describe, if_pos (by simpa using h)]
  rfl

theorem outline_of_payload?_eq_none {t : TypeExpr} (h : t.payload? = none) : scope.outline t = .ok (none, none) := by
  rw [outline, describe]
  split
  · rfl
  · split
    · rfl
    · next hp => cases h.symm.trans hp

/-- The outline of a type that is one type with or without null. -/
theorem outline_of_payload? {t payload : TypeExpr} {nullable : Bool} (hp : t.payload? = some (nullable, payload))
    (ht : scope.types.tag t ≠ .nothing) :
    scope.outline t =
      match scope.types.tag payload with
      | .object => .ok (some (.reference nullable (scope.types.typeName payload)), some payload.unwrap)
      | .array =>
        ((payload.itemType?.map scope.outline).getD
          ((scope.describeSimple false .any).map fun s => (some s, none))).map (arrayOutline nullable)
      | _ => (scope.describeSimple nullable payload).map fun s => (some s, none) := by
  rw [outline, describe_of_payload? hp ht]
  cases htag : scope.types.tag payload
  case object => rfl
  case array =>
    cases hitem : payload.itemType? with
    | some item => exact map_describeArray nullable payload _
    | none =>
      dsimp only [Option.map_none, Option.getD_none]
      cases scope.describeSimple false .any <;> rfl
  all_goals
    dsimp only
    cases scope.describeSimple nullable payload <;> rfl

/-! ### Types that are read alike -/

/-- Two types are of one class, and what counts for it is the same. -/
structure ReadAlike (scope : Scope) (t u : TypeExpr) : Prop where
  tag_eq : scope.types.tag t = scope.types.tag u
  struct_eq : scope.types.tag t = .object → scope.types.typeName t = scope.types.typeName u ∧ t.unwrap = u.unwrap
  items_eq : scope.types.tag t = .array → t.itemType?.map scope.outline = u.itemType?.map scope.outline
  simple_eq : ∀ nullable, scope.describeSimple nullable t = scope.describeSimple nullable u

/-- **Types that are one type each, with or without null, are described alike if these are read alike.** -/
theorem outline_congr {t u p q : TypeExpr} {nullable : Bool} (ht : t.payload? = some (nullable, p))
    (hu : u.payload? = some (nullable, q)) (hnothing : scope.types.tag t = .nothing ↔ scope.types.tag u = .nothing)
    (h : scope.ReadAlike p q) : scope.outline t = scope.outline u := by
  by_cases hn : scope.types.tag t = .nothing
  · rw [outline_of_nothing hn, outline_of_nothing (hnothing.1 hn)]
  · rw [outline_of_payload? ht hn, outline_of_payload? hu fun hn' => hn (hnothing.2 hn'), ← h.tag_eq, ← h.simple_eq]
    cases htag : scope.types.tag p
    case object =>
      obtain ⟨hname, hunwrap⟩ := h.struct_eq htag
      rw [hname, hunwrap]
    case array => rw [h.items_eq htag]
    all_goals rfl

theorem describeSimple_congr {t u : TypeExpr} (hunwrap : t.unwrap = u.unwrap) (hwidth : t.width? = u.width?)
    (nullable : Bool) : scope.describeSimple nullable t = scope.describeSimple nullable u := by
  have htag : scope.types.tag t = scope.types.tag u := by rw [Declarations.tag, Declarations.tag, hunwrap]
  have hvalues : scope.types.enumValues t = scope.types.enumValues u := by
    rw [Declarations.enumValues, Declarations.enumValues, hunwrap]
  rw [describeSimple, describeSimple, htag, hvalues, hunwrap, Declarations.nameAndFormat_congr hunwrap hwidth]

/-- Wrappers and aliases without a width do not change how a type is read. -/
theorem ReadAlike.of_unwrap {t u : TypeExpr} (hunwrap : t.unwrap = u.unwrap) (hwidth : t.width? = u.width?) :
    scope.ReadAlike t u where
  tag_eq := by rw [Declarations.tag, Declarations.tag, hunwrap]
  struct_eq _ := ⟨by rw [Declarations.typeName, Declarations.typeName, hunwrap], hunwrap⟩
  items_eq _ := by rw [TypeExpr.itemType?, TypeExpr.itemType?, hunwrap]
  simple_eq := describeSimple_congr hunwrap hwidth

/-! ### Documented alike -/

/-- Two types are documented alike: from every registry they give the same description, or fail in the same way, and
leave the same registry. -/
def BuiltAlike (scope : Scope) (t u : TypeExpr) : Prop :=
  ∀ b : Builder, ((scope.build t).run' b).1 = ((scope.build u).run' b).1 ∧
    ((scope.build t).run' b).2.registry = ((scope.build u).run' b).2.registry

theorem run'_build_of_error {t : TypeExpr} {f : Failure} (h : scope.describe t = .error f) (b : Builder) :
    (scope.build t).run' b = (.error f, b) := by
  rw [build, buildWith, Build.run'_bind, Build.run'_lift, h]

/-- Notices do not count for the description and the registry. -/
theorem run'_build_of_ok {t : TypeExpr} {d : Description} (h : scope.describe t = .ok d) (b : Builder) :
    (scope.build t).run' b =
      match d.target with
      | none => (.ok d.schema, { b with warnings := b.warnings ++ d.warnings })
      | some target =>
        if b.registry.has (scope.types.typeName target) then
          (.ok d.schema, { b with warnings := b.warnings ++ d.warnings })
        else match (scope.convert target).run' b with
          | (.ok _, c) => (.ok d.schema, { c with warnings := c.warnings ++ d.warnings })
          | (.error f, c) => (.error f, c) := by
  rw [build, buildWith, Build.run'_bind, Build.run'_lift, h]
  dsimp only
  cases d.target with
  | none => rfl
  | some target =>
    dsimp only
    rw [Build.run'_bind, Build.run'_isRegistered]
    dsimp only
    cases b.registry.has (scope.types.typeName target) with
    | true => rfl
    | false =>
      simp only [Bool.not_false, if_true, Bool.false_eq_true, if_false]
      rw [Build.run'_bind]
      rcases (scope.convert target).run' b with ⟨_ | _, _⟩ <;> rfl

theorem builtAlike_of_outline_eq {t u : TypeExpr} (h : scope.outline t = scope.outline u) : scope.BuiltAlike t u := by
  intro b
  rw [outline, outline] at h
  cases ht : scope.describe t with
  | error f =>
    rw [ht] at h
    cases hu : scope.describe u with
    | error g =>
      rw [hu] at h
      cases h
      rw [run'_build_of_error ht, run'_build_of_error hu]
      exact ⟨rfl, rfl⟩
    | ok d' => rw [hu] at h; cases h
  | ok d =>
    rw [ht] at h
    cases hu : scope.describe u with
    | error g => rw [hu] at h; cases h
    | ok d' =>
      rw [hu] at h
      obtain ⟨hschema, htarget⟩ := Prod.mk.inj (Except.ok.inj h)
      rw [run'_build_of_ok ht, run'_build_of_ok hu, hschema, htarget]
      cases d'.target with
      | none => exact ⟨rfl, rfl⟩
      | some target =>
        dsimp only
        split
        · exact ⟨rfl, rfl⟩
        · rcases (scope.convert target).run' b with ⟨_ | _, _⟩ <;> exact ⟨rfl, rfl⟩

end Scope

/-! ### Unions -/

namespace TypeExpr

theorem members?_of_not_isUnion {t : TypeExpr} (h : t.stripWrappers.isUnion = false) : t.members? = none := by
  unfold members?
  split
  · next members hstrip =>
    rw [hstrip] at h
    cases h
  · rfl

theorem payload?_of_not_isUnion {t : TypeExpr} (h : t.stripWrappers.isUnion = false) :
    t.payload? = some (false, t) := by
  rw [payload?, members?_of_not_isUnion h]

/-- A union that is one type is that type or null. -/
theorem nullable_of_isUnion {t payload : TypeExpr} {nullable : Bool} (hlone : t.isLoneUnion = false)
    (h : t.stripWrappers.isUnion = true) (hp : t.payload? = some (nullable, payload)) : nullable = true := by
  unfold payload? at hp
  split at hp
  · next marked found hm =>
    cases hp
    cases hmarked : nullable with
    | true => rfl
    | false =>
      -- without a null marker nothing is taken away, and what is left would be the union itself
      subst hmarked
      have hself : t.stripOptional = t := by rw [stripOptional, hm]
      have hpayload := stripOptional_of_payload? hlone (show t.payload? = some (false, payload) by rw [payload?, hm])
      have hlt := sizeOf_lt_of_members? hm (List.mem_singleton_self payload)
      rw [← hpayload, hself] at hlt
      exact absurd hlt (Nat.lt_irrefl _)
  · cases hp
  · next hm =>
    unfold members? at hm
    split at hm
    · cases hm
    · next hunion =>
      cases hs : t.stripWrappers with
      | unionOf members => exact absurd hs (hunion members)
      | _ => rw [hs] at h; cases h

theorem unwrap_of_isUnion {t : TypeExpr} (h : t.stripWrappers.isUnion = true) : t.unwrap.isUnion = true := by
  rw [← unwrap_stripWrappers]
  cases hs : t.stripWrappers with
  | unionOf members => rfl
  | _ => rw [hs] at h; cases h

end TypeExpr

namespace Scope

variable {scope : Scope} {name : String} {t : TypeExpr}

theorem tag_of_isUnion (h : t.unwrap.isUnion = true) : scope.types.tag t = .union := by
  rw [Declarations.tag]
  cases ht : t.unwrap with
  | unionOf members => rfl
  | _ => rw [ht] at h; cases h

theorem describeSimple_of_union (h : scope.types.tag t = .union) (nullable : Bool) :
    scope.describeSimple nullable t = .ok (.simple nullable .string none none none) := by
  simp only [describeSimple, Declarations.nameAndFormat, Declarations.typeNameOf, h]
  rfl

theorem nullable_of_describeSimple {nullable : Bool} {s : Schema} (h : scope.describeSimple nullable t = .ok s) :
    s.nullable = nullable := by
  obtain ⟨choices, rfl, -⟩ := of_describeSimple_eq_ok h
  rfl

/-- A description is marked for null as the type is. -/
theorem nullable_eq_of_payload? {payload : TypeExpr} {nullable : Bool} {s : Schema}
    (hp : t.payload? = some (nullable, payload)) (h : scope.fragment t = some s) : s.nullable = nullable := by
  rcases fragment_cases hp h with ⟨-, component, rfl⟩ | ⟨-, items, rfl⟩ | hsimple
  · rfl
  · rfl
  · exact nullable_of_describeSimple hsimple

/-- A union that is described at all is described as nullable. -/
theorem nullable_of_fragment {s : Schema} (hlone : t.isLoneUnion = false) (hunion : t.stripWrappers.isUnion = true)
    (h : scope.fragment t = some s) : s.nullable = true := by
  obtain ⟨nullable, payload, hp⟩ := exists_payload?_of_fragment h
  rw [nullable_eq_of_payload? hp h]
  exact TypeExpr.nullable_of_isUnion hlone hunion hp

/-! ### Aliases -/

/-- Behind a name of its own, a union is a text. -/
theorem describe_alias_of_union (name : String) (h : t.unwrap.isUnion = true) :
    scope.describe (.renamed name t) = .ok ⟨some (.simple false .string none none none), none, []⟩ := by
  have hunion : (TypeExpr.renamed name t).unwrap.isUnion = true := h
  have htag : scope.types.tag (.renamed name t) = .union := tag_of_isUnion hunion
  have hp : (TypeExpr.renamed name t).payload? = some (false, .renamed name t) := rfl
  rw [describe_of_payload? hp (by simp [htag])]
  simp only [htag, describeSimple_of_union htag]
  rfl

/-- An alias of a type that is no union is read as that type. -/
theorem outline_alias (name : String) (h : t.stripWrappers.isUnion = false) :
    scope.outline (.renamed name t) = scope.outline t :=
  outline_congr rfl (TypeExpr.payload?_of_not_isUnion h) Iff.rfl (.of_unwrap rfl rfl)

/-- **Which aliases are documented as the type that they name.**  An alias gives the description of its type and
leaves the same registry, whatever was registered before, exactly if the type is no union, below wrappers; the width
aliases are types of their own.  A parameter is required under the alias as under the type exactly if it has a
default, or the type, seen through an extractor, is not nullable. -/
theorem alias_builtAlike_iff (scope : Scope) (name : String) {t : TypeExpr} (hlone : t.isLoneUnion = false) :
    (scope.BuiltAlike (.renamed name t) t ↔ t.stripWrappers.isUnion = false) ∧
      ∀ hasDefault,
        (scope.types.infersRequired (.renamed name t) hasDefault = scope.types.infersRequired t hasDefault ↔
          hasDefault = true ∨ (scope.types.extractType t).isNullable = false) := by
  refine ⟨⟨fun h => ?_, fun h => builtAlike_of_outline_eq (outline_alias name h)⟩, fun hasDefault => ?_⟩
  · by_contra hunion
    have hunion : t.stripWrappers.isUnion = true := by simpa using hunion
    have hdescribe : scope.describe (.renamed name t) = .ok ⟨some (.simple false .string none none none), none, []⟩ :=
      describe_alias_of_union name (TypeExpr.unwrap_of_isUnion hunion)
    have hresult := (h ⟨[], []⟩).1
    rw [run'_build_of_ok hdescribe] at hresult
    have hfragment : scope.fragment t = some (.simple false .string none none none) :=
      fragment_of_build (c := ((scope.build t).run' ⟨[], []⟩).2) (Prod.ext hresult.symm rfl)
    -- the alias is described without null, and a union only with it
    cases nullable_of_fragment hlone hunion hfragment
  · -- an alias is no extractor, and nothing that is behind it makes it nullable
    have hinner : scope.types.extractType (.renamed name t) = .renamed name t := extractType_of_plain rfl
    have hnullable : (TypeExpr.renamed name t).isNullable = false := rfl
    rw [Declarations.infersRequired, Declarations.infersRequired, hinner, hnullable]
    cases hasDefault <;> cases (scope.types.extractType t).isNullable <;> simp

/-- An integer or null is described as such, and nothing is registered for it. -/
theorem run'_build_integerOrNull (scope : Scope) (b : Builder) :
    (scope.build (.unionOf [.builtin .int, .nullType])).run' b
      = (.ok (some (.simple true .integer (some .int64) none none)), b) := by
  have hp : (TypeExpr.unionOf [.builtin .int, .nullType]).payload? = some (true, .builtin .int) := rfl
  have htag : scope.types.tag (.unionOf [.builtin .int, .nullType]) ≠ .nothing := by
    rw [tag_of_isUnion rfl]
    simp
  have hdescribe : scope.describe (.unionOf [.builtin .int, .nullType])
      = .ok ⟨some (.simple true .integer (some .int64) none none), none, []⟩ := by
    rw [describe_of_payload? hp htag]
    rfl
  simpa using run'_build_of_ok hdescribe b

/-- Depths that may be missing, in a list, under a name of their own. -/
def depths : TypeExpr := .container .list false (some [.unionOf [.builtin .int, .nullType]])

/-- Lists of depths are documented as such under every name, and are required as such. -/
theorem alias_builtAlike_depths :
    depths.isLoneUnion = false ∧ trees.BuiltAlike (.renamed "Depths" depths) depths ∧
      trees.types.infersRequired (.renamed "Depths" depths) false = trees.types.infersRequired depths false := by
  obtain ⟨hbuilt, hrequired⟩ := alias_builtAlike_iff trees "Depths" (t := depths) rfl
  exact ⟨rfl, hbuilt.2 rfl, (hrequired false).2 (.inr rfl)⟩

/-- **A nullable depth under a name of its own is a text that must be given**, although the depth itself is a number or
null that may be left out. -/
theorem named_depth_is_text :
    let depth := TypeExpr.unionOf [.builtin .int, .nullType]
    (trees.build (.renamed "Depth" depth)).run' ⟨[], []⟩
        = (.ok (some (.simple false .string none none none)), ⟨[], []⟩) ∧
      (trees.build depth).run' ⟨[], []⟩ = (.ok (some (.simple true .integer (some .int64) none none)), ⟨[], []⟩) ∧
      ¬ trees.BuiltAlike (.renamed "Depth" depth) depth ∧
      trees.types.infersRequired (.renamed "Depth" depth) false = true ∧
      trees.types.infersRequired depth false = false := by
  intro depth
  have hnamed : (trees.build (.renamed "Depth" depth)).run' ⟨[], []⟩
      = (.ok (some (.simple false .string none none none)), ⟨[], []⟩) :=
    run'_build_of_ok (describe_alias_of_union "Depth" rfl) _
  have hplain : (trees.build depth).run' ⟨[], []⟩
      = (.ok (some (.simple true .integer (some .int64) none none)), ⟨[], []⟩) := run'_build_integerOrNull trees _
  refine ⟨hnamed, hplain, fun h => ?_, rfl, rfl⟩
  have hsame := (h ⟨[], []⟩).1
  rw [hnamed, hplain] at hsame
  cases hsame

end Scope

end RouteDoc
