import RouteDoc.Proofs.Aliases

/-!
# Wrappers

Wrappers carry no type information of their own.  A type is described as the type without them, wherever they stand:
around the whole type, around the items of an array, below aliases, around the members of a union.  The exception is
a union that is another one without them, because a member in a wrapper is neither merged with a member like it, nor
taken for null, nor for a union of its own.

* `TypeExpr.withoutWrappers` — a type without its wrappers;
* `Scope.KeepsChoices` — without wrappers, the type is the same choice at every position that is read;
* `Scope.KeepsChoices.of_not_union`, `Scope.KeepsChoices.of_union` — where this is so;
* `Scope.withoutWrappers_builtAlike` — a type is documented as the type without its wrappers.
-/

namespace RouteDoc

namespace TypeExpr

mutual

/-- A type without wrappers, at every position; unions are written again, of what their members are then. -/
def withoutWrappers : TypeExpr → TypeExpr
  | container c historic args => container c historic (argsWithoutWrappers args)
  | extractor e arg => extractor e (argWithoutWrappers arg)
  | unionOf members => union (listWithoutWrappers members)
  | wrapped _ inner => withoutWrappers inner
  | qualified q inner => qualified q (withoutWrappers inner)
  | renamed name target => renamed name (withoutWrappers target)
  | t => t

/-- Optional argument lists without wrappers. -/
def argsWithoutWrappers : Option (List TypeExpr) → Option (List TypeExpr)
  | none => none
  | some args => some (listWithoutWrappers args)

/-- Optional arguments without wrappers. -/
def argWithoutWrappers : Option TypeExpr → Option TypeExpr
  | none => none
  | some arg => some (withoutWrappers arg)

/-- Lists of types without wrappers. -/
def listWithoutWrappers : List TypeExpr → List TypeExpr
  | [] => []
  | t :: rest => withoutWrappers t :: listWithoutWrappers rest

end

theorem listWithoutWrappers_eq (types : List TypeExpr) : listWithoutWrappers types = types.map withoutWrappers := by
  induction types with
  | nil => rfl
  | cons t types ih => rw [listWithoutWrappers, ih, List.map_cons]

variable {t : TypeExpr}

/-- Wrappers around the whole type do not matter. -/
theorem withoutWrappers_stripWrappers (t : TypeExpr) : t.stripWrappers.withoutWrappers = t.withoutWrappers := by
  fun_induction stripWrappers t with
  | case1 w inner ih => rw [ih, withoutWrappers]
  | case2 => rfl

/-! ### The head of a type -/

/-- Is the head of the type the same without wrappers?  Wrappers go, and unions are written again. -/
def keepsHead : TypeExpr → Bool
  | unionOf _ | wrapped _ _ => false
  | _ => true

theorem keepsHead_unwrap (h : t.unwrap.isUnion = false) : t.unwrap.keepsHead = true := by
  fun_induction unwrap t with
  | case1 w inner ih => exact ih h
  | case2 name target ih => exact ih h
  | case3 w => cases w <;> rfl
  | case4 t hwrapped _ _ =>
    cases t with
    | unionOf members => cases h
    | wrapped w inner => exact absurd rfl (hwrapped w inner)
    | _ => rfl

theorem unwrap_withoutWrappers (h : t.unwrap.isUnion = false) :
    t.withoutWrappers.unwrap = t.unwrap.withoutWrappers := by
  fun_induction unwrap t with
  | case1 w inner ih => rw [withoutWrappers, ih h]
  | case2 name target ih => rw [withoutWrappers, unwrap, ih h]
  | case3 w => cases w <;> rfl
  | case4 t hwrapped hrenamed hwidth =>
    cases t with
    | unionOf members => cases h
    | wrapped w inner => exact absurd rfl (hwrapped w inner)
    | renamed name target => exact absurd rfl (hrenamed name target)
    | width w => exact absurd rfl (hwidth w)
    | _ => rfl

theorem width?_withoutWrappers (h : t.unwrap.isUnion = false) : t.withoutWrappers.width? = t.width? := by
  fun_induction width? t with
  | case1 w inner ih => rw [withoutWrappers, ih h]
  | case2 name target ih => rw [withoutWrappers, width?, ih h]
  | case3 w => rfl
  | case4 t hwrapped hrenamed hwidth =>
    cases t with
    | unionOf members => cases h
    | wrapped w inner => exact absurd rfl (hwrapped w inner)
    | renamed name target => exact absurd rfl (hrenamed name target)
    | width w => exact absurd rfl (hwidth w)
    | _ => rfl

theorem isUnion_withoutWrappers (h : t.keepsHead = true) : t.withoutWrappers.isUnion = false := by
  cases t <;> first | rfl | cases h

theorem head?_arguments_withoutWrappers (h : t.keepsHead = true) :
    t.withoutWrappers.arguments.head? = t.arguments.head?.map withoutWrappers := by
  cases t with
  | unionOf members => cases h
  | wrapped w inner => cases h
  | container c historic args =>
    cases args with
    | none => rfl
    | some args => cases args <;> rfl
  | extractor e arg => cases arg <;> rfl
  | qualified q inner => cases q <;> rfl
  | literal values => cases values <;> rfl
  | _ => rfl

theorem origin?_withoutWrappers (h : t.keepsHead = true) : t.withoutWrappers.origin? = t.origin? := by
  cases t with
  | unionOf members => cases h
  | wrapped w inner => cases h
  | container c historic args => cases c <;> rfl
  | _ => rfl

theorem itemType?_withoutWrappers (h : t.unwrap.isUnion = false) :
    t.withoutWrappers.itemType? = t.itemType?.map withoutWrappers := by
  rw [itemType?, unwrap_withoutWrappers h, head?_arguments_withoutWrappers (keepsHead_unwrap h), itemType?]

end TypeExpr

namespace Declarations

variable {env : Declarations} {t : TypeExpr}

theorem tagOfBare_withoutWrappers (h : t.keepsHead = true) : env.tagOfBare t.withoutWrappers = env.tagOfBare t := by
  cases t with
  | unionOf members => cases h
  | wrapped w inner => cases h
  | container c historic args =>
    cases args with
    | none => rfl
    | some args => cases c <;> rfl
  | extractor e arg => cases arg <;> rfl
  | _ => rfl

theorem tag_withoutWrappers (h : t.unwrap.isUnion = false) : env.tag t.withoutWrappers = env.tag t := by
  rw [tag, TypeExpr.unwrap_withoutWrappers h, tagOfBare_withoutWrappers (TypeExpr.keepsHead_unwrap h), tag]

/-- A structured type has no wrappers within. -/
theorem withoutWrappers_of_struct (h : env.tagOfBare t = .object) : t.withoutWrappers = t := by
  cases t with
  | container c historic args =>
    cases args with
    | none => rfl
    | some args => cases c <;> cases h
  | extractor e arg =>
    cases arg with
    | none => rfl
    | some arg => cases h
  | builtin b => rfl
  | declared id => rfl
  | _ => cases h

theorem isIntegerEnum_withoutWrappers (h : t.unwrap.isUnion = false) :
    env.isIntegerEnum t.withoutWrappers = env.isIntegerEnum t := by
  have hhead := TypeExpr.keepsHead_unwrap h
  rw [isIntegerEnum, TypeExpr.unwrap_withoutWrappers h, isIntegerEnum]
  generalize t.unwrap = u at hhead
  cases u <;> first | rfl | cases hhead

theorem enumValues_withoutWrappers (h : t.unwrap.isUnion = false) :
    env.enumValues t.withoutWrappers = env.enumValues t := by
  have hhead := TypeExpr.keepsHead_unwrap h
  rw [enumValues, TypeExpr.unwrap_withoutWrappers h, enumValues]
  generalize t.unwrap = u at hhead
  cases u <;> first | rfl | cases hhead

theorem formatOf_withoutWrappers (h : t.unwrap.isUnion = false) : env.formatOf t.withoutWrappers = env.formatOf t := by
  have hhead := TypeExpr.keepsHead_unwrap h
  have hfloat : env.derivesFloat t.unwrap.withoutWrappers = env.derivesFloat t.unwrap := by
    generalize t.unwrap = u at hhead
    cases u <;> first | rfl | cases hhead
  rw [formatOf_eq, formatOf_eq env t, TypeExpr.width?_withoutWrappers h, formatOf_unwrap, formatOf_unwrap,
    tag_withoutWrappers h, TypeExpr.unwrap_withoutWrappers h, hfloat]

theorem extractType_of_keepsHead (h : t.keepsHead = true) :
    env.extractType t.withoutWrappers = (env.extractType t).withoutWrappers := by
  have hextractor : env.extractor? t.withoutWrappers = env.extractor? t := by
    rw [extractor?, extractors, resolution, TypeExpr.origin?_withoutWrappers h]
    rfl
  rw [extractType, extractType, hextractor, TypeExpr.head?_arguments_withoutWrappers h]
  split
  · rfl
  · cases t.arguments.head? <;> rfl

theorem nameAndFormat_withoutWrappers (h : t.unwrap.isUnion = false) :
    env.nameAndFormat t.withoutWrappers = env.nameAndFormat t := by
  have hname : env.typeNameOf t.withoutWrappers = env.typeNameOf t := by
    rw [typeNameOf, typeNameOf, tag_withoutWrappers h, isIntegerEnum_withoutWrappers h]
  rw [nameAndFormat, nameAndFormat, tag_withoutWrappers h, hname, formatOf_withoutWrappers h]

end Declarations

/-! ### Choices that stay -/

namespace TypeExpr

variable {t : TypeExpr}

/-- Below wrappers and aliases, a union is one without wrappers too. -/
def StaysUnion (t : TypeExpr) : Prop := t.unwrap.isUnion = true → t.withoutWrappers.unwrap.isUnion = true

theorem StaysUnion.of_not_isUnion (h : t.unwrap.isUnion = false) : t.StaysUnion := fun hunion => by
  rw [h] at hunion
  cases hunion

theorem payload?_of_not_isUnion_unwrap (h : t.unwrap.isUnion = false) : t.payload? = some (false, t) := by
  refine payload?_of_not_isUnion ?_
  by_contra hunion
  rw [unwrap_of_isUnion (by simpa using hunion)] at h
  cases h

theorem isUnion_of_payload?_eq_none (h : t.payload? = none) : t.unwrap.isUnion = true := by
  by_contra hunion
  rw [payload?_of_not_isUnion_unwrap (by simpa using hunion)] at h
  cases h

/-- The other members of a union, when each is null exactly if it is without wrappers. -/
theorem members?_withoutWrappers {members : List TypeExpr} (ht : t.stripWrappers = .unionOf members)
    (hunion : union (members.map withoutWrappers) = .unionOf (members.map withoutWrappers))
    (hnull : ∀ m ∈ members, m.withoutWrappers.isNullMarker = m.isNullMarker) :
    t.withoutWrappers.members? = t.members?.map fun m => (m.1, m.2.map withoutWrappers) := by
  have hany : (members.map withoutWrappers).any isNullMarker = members.any isNullMarker := by
    rw [List.any_map, Bool.eq_iff_iff, List.any_eq_true, List.any_eq_true]
    exact exists_congr fun m => and_congr_right fun hm => by rw [Function.comp_apply, hnull m hm]
  have hrest : (members.map withoutWrappers).filter (!·.isNullMarker)
      = (members.filter (!·.isNullMarker)).map withoutWrappers := by
    rw [List.filter_map]
    exact congrArg (List.map withoutWrappers) (List.filter_congr fun m hm => by simp [hnull m hm])
  rw [← withoutWrappers_stripWrappers, ht, withoutWrappers, listWithoutWrappers_eq, hunion]
  simp only [members?, ht, stripWrappers, hany, hrest, Option.map_some]

end TypeExpr

namespace Scope

variable {scope : Scope} {t : TypeExpr}

/-- Without wrappers, the type is the same choice, and so are the items of an array, at every depth. -/
inductive KeepsChoices (scope : Scope) : TypeExpr → Prop
  /-- Several types stay several. -/
  | several {t : TypeExpr} : t.payload? = none → t.withoutWrappers.payload? = none → KeepsChoices scope t
  /-- One type, with or without null, stays that one. -/
  | one {t payload : TypeExpr} {nullable : Bool} : t.payload? = some (nullable, payload) →
      t.withoutWrappers.payload? = some (nullable, payload.withoutWrappers) → t.StaysUnion → payload.StaysUnion →
      (scope.types.tag payload = .array → ∀ item, payload.itemType? = some item → KeepsChoices scope item) →
      KeepsChoices scope t

/-- **A type that is no union is no choice with or without wrappers**, around the whole of it and below its aliases;
what counts is the items of an array. -/
theorem KeepsChoices.of_not_union (h : t.unwrap.isUnion = false)
    (hitems : scope.types.tag t = .array → ∀ item, t.itemType? = some item → scope.KeepsChoices item) :
    scope.KeepsChoices t := by
  have hbare : t.withoutWrappers.unwrap.isUnion = false := by
    rw [TypeExpr.unwrap_withoutWrappers h, TypeExpr.isUnion_withoutWrappers (TypeExpr.keepsHead_unwrap h)]
  exact .one (TypeExpr.payload?_of_not_isUnion_unwrap h) (TypeExpr.payload?_of_not_isUnion_unwrap hbare)
    (.of_not_isUnion h) (.of_not_isUnion h) hitems

/-- **A union is the same choice when nothing is left to be written again**: without wrappers its members are
different types and no unions, and no other ones are null. -/
theorem KeepsChoices.of_union {members : List TypeExpr} (ht : t.stripWrappers = .unionOf members)
    (hunion : TypeExpr.union (members.map TypeExpr.withoutWrappers)
      = .unionOf (members.map TypeExpr.withoutWrappers))
    (hnull : ∀ m ∈ members, m.withoutWrappers.isNullMarker = m.isNullMarker)
    (hmembers : ∀ m ∈ members, m.StaysUnion ∧
      (scope.types.tag m = .array → ∀ item, m.itemType? = some item → scope.KeepsChoices item)) :
    scope.KeepsChoices t := by
  have hfound : t.members? = some (members.any TypeExpr.isNullMarker, members.filter (!·.isNullMarker)) := by
    rw [TypeExpr.members?, ht]
  have hbare := TypeExpr.members?_withoutWrappers ht hunion hnull
  rw [hfound, Option.map_some] at hbare
  cases hrest : members.filter (!·.isNullMarker) with
  | nil =>
    refine .several ?_ ?_
    · rw [TypeExpr.payload?, hfound, hrest]
    · rw [TypeExpr.payload?, hbare, hrest, List.map_nil]
  | cons payload rest =>
    cases rest with
    | nil =>
      have hpayload : payload ∈ members := (List.mem_filter.1 (hrest ▸ List.mem_singleton_self payload)).1
      have hstays : t.StaysUnion := fun _ => by
        rw [← TypeExpr.withoutWrappers_stripWrappers, ht, TypeExpr.withoutWrappers,
          TypeExpr.listWithoutWrappers_eq, hunion]
        rfl
      have hp : t.payload? = some (members.any TypeExpr.isNullMarker, payload) := by
        rw [TypeExpr.payload?, hfound, hrest]
      have hbarep : t.withoutWrappers.payload? = some (members.any TypeExpr.isNullMarker, payload.withoutWrappers) := by
        rw [TypeExpr.payload?, hbare, hrest, List.map_cons, List.map_nil]
      exact .one hp hbarep hstays (hmembers payload hpayload).1 (hmembers payload hpayload).2
    | cons other rest =>
      refine .several ?_ ?_
      · rw [TypeExpr.payload?, hfound, hrest]
      · rw [TypeExpr.payload?, hbare, hrest, List.map_cons, List.map_cons]

theorem KeepsChoices.staysUnion (h : scope.KeepsChoices t) : t.StaysUnion := by
  cases h with
  | several _ hbare => exact fun _ => TypeExpr.isUnion_of_payload?_eq_none hbare
  | one _ _ hstays _ _ => exact hstays

/-! ### Types without wrappers -/

/-- A type that is no union is read as without wrappers, if the items of an array are. -/
theorem ReadAlike.withoutWrappers (h : t.unwrap.isUnion = false)
    (hitems : scope.types.tag t = .array → ∀ item, t.itemType? = some item →
      scope.outline item = scope.outline item.withoutWrappers) : scope.ReadAlike t t.withoutWrappers where
  tag_eq := (Declarations.tag_withoutWrappers h).symm
  struct_eq hs := by
    have hunwrap : t.withoutWrappers.unwrap = t.unwrap := by
      rw [TypeExpr.unwrap_withoutWrappers h, Declarations.withoutWrappers_of_struct hs]
    exact ⟨by rw [Declarations.typeName, Declarations.typeName, hunwrap], hunwrap.symm⟩
  items_eq ha := by
    rw [TypeExpr.itemType?_withoutWrappers h]
    cases hitem : t.itemType? with
    | none => rfl
    | some item => exact congrArg some (hitems ha item hitem)
  simple_eq nullable := by
    rw [describeSimple, describeSimple, Declarations.tag_withoutWrappers h,
      Declarations.nameAndFormat_withoutWrappers h, Declarations.enumValues_withoutWrappers h,
      TypeExpr.unwrap_withoutWrappers h, TypeExpr.origin?_withoutWrappers (TypeExpr.keepsHead_unwrap h)]

/-- Unions of which nothing is known are read alike. -/
theorem ReadAlike.of_unions {u : TypeExpr} (ht : scope.types.tag t = .union) (hu : scope.types.tag u = .union) :
    scope.ReadAlike t u where
  tag_eq := by rw [ht, hu]
  struct_eq hs := by
    rw [ht] at hs
    cases hs
  items_eq ha := by
    rw [ht] at ha
    cases ha
  simple_eq nullable := by rw [describeSimple_of_union ht, describeSimple_of_union hu]

/-- **A type that stays the same choice is described as without wrappers**, by induction on the arrays in it. -/
theorem KeepsChoices.outline_eq (h : scope.KeepsChoices t) : scope.outline t = scope.outline t.withoutWrappers := by
  induction h with
  | several hp hbare => rw [outline_of_payload?_eq_none hp, outline_of_payload?_eq_none hbare]
  | @one t payload nullable hp hbare hstays hpayload _ ih =>
    have hread : scope.ReadAlike payload payload.withoutWrappers := by
      by_cases hunion : payload.unwrap.isUnion = true
      · exact .of_unions (tag_of_isUnion hunion) (tag_of_isUnion (hpayload hunion))
      · exact .withoutWrappers (by simpa using hunion) ih
    have htag : scope.types.tag t = scope.types.tag t.withoutWrappers := by
      by_cases hunion : t.unwrap.isUnion = true
      · rw [tag_of_isUnion hunion, tag_of_isUnion (hstays hunion)]
      · rw [Declarations.tag_withoutWrappers (by simpa using hunion)]
    exact outline_congr hp hbare (by rw [htag]) hread

theorem isExtractor_of_isUnion (h : t.unwrap.isUnion = true) : scope.types.isExtractor t = false := by
  cases t <;> first | rfl | cases h

/-- Without wrappers, an extractor is found that stood in some. -/
theorem extractType_withoutWrappers (h : t.StaysUnion) :
    scope.types.extractType t.withoutWrappers = (scope.types.extractType t.stripWrappers).withoutWrappers := by
  fun_induction TypeExpr.stripWrappers t with
  | case1 w inner ih => exact ih h
  | case2 t hwrapped =>
    cases t with
    | wrapped w inner => exact absurd rfl (hwrapped w inner)
    | unionOf members =>
      rw [extractType_of_plain (isExtractor_of_isUnion (h rfl)), extractType_of_plain (isExtractor_of_isUnion rfl)]
    | _ => exact Declarations.extractType_of_keepsHead rfl

/-- **A type is documented as the type without its wrappers**, when it stays the same choice without them: it gives
the same description and leaves the same registry, whatever was registered before.  A parameter is then required under
both exactly if it has a default, or what stands in its extractor, which is found without the wrappers around it, is
nullable as before. -/
theorem withoutWrappers_builtAlike (scope : Scope) {t : TypeExpr} (h : scope.KeepsChoices t) :
    scope.BuiltAlike t t.withoutWrappers ∧
      ∀ hasDefault,
        (scope.types.infersRequired t hasDefault = scope.types.infersRequired t.withoutWrappers hasDefault ↔
          hasDefault = true ∨ (scope.types.extractType t).isNullable
            = (scope.types.extractType t.stripWrappers).withoutWrappers.isNullable) := by
  refine ⟨builtAlike_of_outline_eq h.outline_eq, fun hasDefault => ?_⟩
  rw [Declarations.infersRequired, Declarations.infersRequired, extractType_withoutWrappers h.staysUnion]
  cases hasDefault <;> simp

/-- Levels that may be missing, in a list, with wrappers around the list, its items, and the levels under their own
name. -/
def levels : TypeExpr :=
  .wrapped .annotated (.container .list false (some
    [.wrapped .readOnly (.unionOf [.wrapped .annotated (.renamed "Level" (.wrapped .required (.builtin .int))),
      .nullType])]))

/-- Levels are documented as without any of the wrappers, and are required as such. -/
theorem withoutWrappers_builtAlike_levels :
    trees.KeepsChoices levels ∧
      trees.BuiltAlike levels (.container .list false (some
        [.unionOf [.renamed "Level" (.builtin .int), .nullType]])) ∧
      trees.types.infersRequired levels false = trees.types.infersRequired levels.withoutWrappers false := by
  have hunion : TypeExpr.union [.renamed "Level" (.builtin .int), .nullType]
      = .unionOf [.renamed "Level" (.builtin .int), .nullType] := by
    simp [TypeExpr.union, TypeExpr.unionMembers, TypeExpr.distinct, TypeExpr.same]
  have hbare : levels.withoutWrappers
      = .container .list false (some [.unionOf [.renamed "Level" (.builtin .int), .nullType]]) := by
    simp only [levels, TypeExpr.withoutWrappers, TypeExpr.argsWithoutWrappers, TypeExpr.listWithoutWrappers, hunion]
  have hitem : trees.KeepsChoices (.wrapped .readOnly (.unionOf
      [.wrapped .annotated (.renamed "Level" (.wrapped .required (.builtin .int))), .nullType])) := by
    refine .of_union rfl hunion (by decide) ?_
    simp only [List.forall_mem_cons]
    exact ⟨⟨.of_not_isUnion rfl, fun h => absurd h (by decide)⟩, ⟨.of_not_isUnion rfl, fun h => absurd h (by decide)⟩,
      by simp⟩
  have hkeeps : trees.KeepsChoices levels := by
    refine .of_not_union rfl fun _ item h => ?_
    cases h
    exact hitem
  obtain ⟨hbuilt, hrequired⟩ := withoutWrappers_builtAlike trees hkeeps
  exact ⟨hkeeps, hbare ▸ hbuilt, (hrequired false).2 (.inr rfl)⟩

/-- **A nullable level in a wrapper, or null, is a text or null**, although without the wrapper it is a level or null.
And a level to be queried that may be missing must be given as soon as a wrapper stands around its extractor. -/
theorem wrapped_level_is_text :
    let level := TypeExpr.unionOf [.builtin .int, .nullType]
    let wrapped := TypeExpr.unionOf [.wrapped .annotated level, .nullType]
    let query := TypeExpr.wrapped .annotated (.extractor .query (some level))
    wrapped.withoutWrappers = level ∧
      (trees.build wrapped).run' ⟨[], []⟩ = (.ok (some (.simple true .string none none none)), ⟨[], []⟩) ∧
      (trees.build level).run' ⟨[], []⟩ = (.ok (some (.simple true .integer (some .int64) none none)), ⟨[], []⟩) ∧
      ¬ trees.BuiltAlike wrapped wrapped.withoutWrappers ∧
      trees.types.infersRequired query false = true ∧
      trees.types.infersRequired query.withoutWrappers false = false := by
  intro level wrapped query
  have hlevel : level.withoutWrappers = level := by
    simp [level, TypeExpr.withoutWrappers, TypeExpr.listWithoutWrappers, TypeExpr.union, TypeExpr.unionMembers,
      TypeExpr.distinct, TypeExpr.same]
  have hbare : wrapped.withoutWrappers = level := by
    simp [wrapped, level, TypeExpr.withoutWrappers, TypeExpr.listWithoutWrappers, TypeExpr.union,
      TypeExpr.unionMembers, TypeExpr.distinct, TypeExpr.same]
  have hdescribe : trees.describe wrapped = .ok ⟨some (.simple true .string none none none), none, []⟩ := by
    have hp : wrapped.payload? = some (true, .wrapped .annotated level) := rfl
    rw [describe_of_payload? hp (by decide)]
    rfl
  have hwrapped : (trees.build wrapped).run' ⟨[], []⟩
      = (.ok (some (.simple true .string none none none)), ⟨[], []⟩) := run'_build_of_ok hdescribe _
  have hplain : (trees.build level).run' ⟨[], []⟩
      = (.ok (some (.simple true .integer (some .int64) none none)), ⟨[], []⟩) := run'_build_integerOrNull trees _
  have hquery : query.withoutWrappers = .extractor .query (some level) := by
    rw [show query.withoutWrappers = .extractor .query (some level.withoutWrappers) from rfl, hlevel]
  refine ⟨hbare, hwrapped, hplain, fun h => ?_, rfl, by rw [hquery]; rfl⟩
  have hsame := (h ⟨[], []⟩).1
  rw [hbare, hwrapped, hplain] at hsame
  cases hsame

end Scope

end RouteDoc
