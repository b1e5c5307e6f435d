import RouteDoc.Proofs.Merging
import RouteDoc.Proofs.Reachability

/-!
# The grammar of descriptions

A written description is a mapping in which some keys allow or exclude others: a reference or a type, items for
arrays alone, a format that suits the type, an example for date-times alone.  Name, format and class of a type are
found by functions of their own, which go through wrappers and aliases each in its way; they agree because an
outer chain of wrappers and aliases ends in a number as soon as a width alias stands in it.

* `TypeExpr.Chain` — the wrappers and aliases around a type, with the width aliases among them;
* `Declarations.nameAndFormat_fits` — name and format of a type suit each other and its class;
* `IsFragment` — the grammar, said of written values alone;
* `Scope.build_isFragment` — every description that is given is of the grammar.
-/

namespace RouteDoc

/-! ### Chains of wrappers and aliases -/

namespace TypeExpr

/-- A chain of wrappers and aliases leads from one type to another, through the given width aliases. -/
inductive Chain : TypeExpr → List Width → TypeExpr → Prop
  | refl {t : TypeExpr} : Chain t [] t
  | wrapped {w : Wrapper} {t u : TypeExpr} {ws : List Width} : Chain t ws u → Chain (.wrapped w t) ws u
  | renamed {name : String} {t u : TypeExpr} {ws : List Width} : Chain t ws u → Chain (.renamed name t) ws u
  | width {w : Width} {u : TypeExpr} {ws : List Width} : Chain w.target ws u → Chain (.width w) (w :: ws) u

/-- The first width alias below wrappers and other aliases. -/
def width? : TypeExpr → Option Width
  | .wrapped _ inner => width? inner
  | .renamed _ target => width? target
  | .width w => some w
  | _ => none

/-- Nothing is below the type: it is neither wrapped nor an alias. -/
def IsBare (t : TypeExpr) : Prop := t.unwrap = t ∧ t.width? = none

theorem isBare_unwrap (t : TypeExpr) : t.unwrap.IsBare := by
  refine ⟨unwrap_unwrap t, ?_⟩
  fun_induction unwrap t with
  | case1 w inner ih => exact ih
  | case2 name target ih => exact ih
  | case3 w => cases w <;> rfl
  | case4 t hwrapped hrenamed hwidth =>
    cases t with
    | wrapped w inner => exact absurd rfl (hwrapped w inner)
    | renamed name target => exact absurd rfl (hrenamed name target)
    | width w => exact absurd rfl (hwidth w)
    | _ => rfl

/-- Below a width alias there is the number that it stands for. -/
theorem unwrap_of_width? {t : TypeExpr} {w : Width} (h : t.width? = some w) : t.unwrap = w.target := by
  fun_induction width? t with
  | case1 w' inner ih => exact ih h
  | case2 name target ih => exact ih h
  | case3 w' =>
    cases h
    rfl
  | case4 => cases h

theorem Chain.unwrap_eq {t u : TypeExpr} {ws : List Width} (h : Chain t ws u) : t.unwrap = u.unwrap := by
  induction h with
  | refl => rfl
  | wrapped _ ih => exact ih
  | renamed _ ih => exact ih
  | @width w u ws _ ih =>
    rw [← ih]
    cases w <;> rfl

theorem Chain.width?_eq {t u : TypeExpr} {ws : List Width} (h : Chain t ws u) :
    t.width? = ws.head?.or u.width? := by
  induction h with
  | refl => rfl
  | wrapped _ ih => exact ih
  | renamed _ ih => exact ih
  | width _ _ => rfl

end TypeExpr

/-! ### Names and formats -/

/-- The type name that a format refines. -/
def Format.word : Format → TypeWord
  | .int32 | .int64 => .integer
  | .float | .double => .number
  | .date | .dateTime => .string

namespace Declarations

variable {env : Declarations} {t : TypeExpr}

/-- The format of a type that is neither wrapped nor an alias, by its class. -/
theorem formatOf_unwrap (env : Declarations) (t : TypeExpr) :
    env.formatOf t.unwrap =
      match env.tag t with
      | .dateTime => some .dateTime
      | .date => some .date
      | tag => if env.derivesFloat t.unwrap then some .double else if tag == .integer then some .int64 else none := by
  have hbare : t.unwrap.unwrap = t.unwrap := TypeExpr.unwrap_unwrap t
  have hwidth : t.unwrap.width? = none := (TypeExpr.isBare_unwrap t).2
  have htag : env.tag t.unwrap = env.tag t := by rw [tag, tag, hbare]
  rw [← htag]
  -- the three rows for wrappers and aliases do not apply
  generalize t.unwrap = u at hbare hwidth
  cases u with
  | wrapped w inner =>
    have hlt := TypeExpr.sizeOf_unwrap_le inner
    rw [show inner.unwrap = _ from hbare] at hlt
    simp only [TypeExpr.wrapped.sizeOf_spec] at hlt
    omega
  | renamed name target =>
    have hlt := TypeExpr.sizeOf_unwrap_le target
    rw [show target.unwrap = _ from hbare] at hlt
    simp only [TypeExpr.renamed.sizeOf_spec] at hlt
    omega
  | width w => cases hwidth
  | _ => rfl

/-- **The outermost width alias decides on the format**, and without one the type below. -/
theorem formatOf_eq (env : Declarations) (t : TypeExpr) :
    env.formatOf t = (t.width?.map Width.format).or (env.formatOf t.unwrap) := by
  fun_induction TypeExpr.width? t with
  | case1 w inner ih => exact ih
  | case2 name target ih => exact ih
  | case3 w => rfl
  | case4 t hwrapped hrenamed hwidth =>
    have hunwrap : t.unwrap = t := by
      cases t with
      | wrapped w inner => exact absurd rfl (hwrapped w inner)
      | renamed name target => exact absurd rfl (hrenamed name target)
      | width w => exact absurd rfl (hwidth w)
      | _ => rfl
    rw [hunwrap]
    rfl

/-- What is found of a type through its tag alone does not see wrappers and aliases. -/
theorem typeNameOf_congr {u : TypeExpr} (h : t.unwrap = u.unwrap) : env.typeNameOf t = env.typeNameOf u := by
  have htag : env.tag t = env.tag u := by rw [tag, tag, h]
  have henum : env.isIntegerEnum t = env.isIntegerEnum u := by rw [isIntegerEnum, isIntegerEnum, h]
  rw [typeNameOf, typeNameOf, htag, henum]

/-- A class over the binary numbers is documented as a number, unless it is an enumeration or has fields of its
own. -/
theorem tag_of_derivesFloat (h : env.derivesFloat t.unwrap = true) :
    env.tag t = .enum ∨ env.tag t = .object ∨ env.tag t = .number := by
  unfold derivesFloat at h
  split at h
  · next hu =>
    rw [tag, hu]
    exact .inr (.inr rfl)
  · next id hu =>
    have hnumber : derivedTag (env.resolution (.declared id)) = .number := by
      simp only [derivedTag, decisive, List.find?_cons, List.any_cons, h, Bool.true_or]
      rfl
    rw [tag, hu, tagOfBare, tagOfClass, hnumber]
    split
    · exact .inl rfl
    · split
      · exact .inr (.inl rfl)
      · exact .inr (.inr rfl)
  · cases h

/-- Where a format is given it is the one of the tag, or that of a width alias above a number. -/
theorem format_cases {f : Format} (h : env.formatOf t = some f) :
    (∃ w, t.width? = some w ∧ f = w.format) ∨
      (env.tag t = .dateTime ∧ f = .dateTime) ∨ (env.tag t = .date ∧ f = .date) ∨
      (env.derivesFloat t.unwrap = true ∧ f = .double) ∨ (env.tag t = .integer ∧ f = .int64) := by
  rw [formatOf_eq] at h
  cases hw : t.width? with
  | some w =>
    rw [hw] at h
    cases h
    exact .inl ⟨w, rfl, rfl⟩
  | none =>
    rw [hw, Option.map_none, Option.none_or, formatOf_unwrap] at h
    refine .inr ?_
    split at h
    · next htag =>
      cases h
      exact .inl ⟨htag, rfl⟩
    · next htag =>
      cases h
      exact .inr (.inl ⟨htag, rfl⟩)
    · split at h
      · next hfloat =>
        cases h
        exact .inr (.inr (.inl ⟨hfloat, rfl⟩))
      · split at h
        · next hint =>
          cases h
          exact .inr (.inr (.inr ⟨by simpa using hint, rfl⟩))
        · cases h

theorem tag_of_width? (env : Declarations) {w : Width} (h : t.width? = some w) :
    env.tag t = match w.format.word with | .number => .number | _ => .integer := by
  rw [tag, TypeExpr.unwrap_of_width? h]
  cases w <;> rfl

/-- **Name and format of a type suit each other**, unless it is a structured one, and the tag says for which types there
may be a format. -/
theorem nameAndFormat_fits {f : Format} (hobject : env.tag t ≠ .object) (h : (env.nameAndFormat t).2 = some f) :
    (env.nameAndFormat t).1 = f.word ∧ env.tag t ≠ .enum ∧ (f = .dateTime → env.tag t = .dateTime) := by
  have hsome : env.tag t ≠ .enum ∧ env.formatOf t = some f ∧ (env.nameAndFormat t).1 = env.typeNameOf t := by
    unfold nameAndFormat at h ⊢
    cases htag : env.tag t <;> simp_all
  obtain ⟨henum, hformat, hname⟩ := hsome
  refine ⟨?_, henum, ?_⟩
  · rw [hname, typeNameOf]
    rcases format_cases hformat with ⟨w, hw, rfl⟩ | ⟨htag, rfl⟩ | ⟨htag, rfl⟩ | ⟨hfloat, rfl⟩ | ⟨htag, rfl⟩
    · rw [tag_of_width? env hw]
      cases w <;> rfl
    · rw [htag]
      rfl
    · rw [htag]
      rfl
    · rw [((tag_of_derivesFloat hfloat).resolve_left henum).resolve_left hobject]
      rfl
    · rw [htag]
      rfl
  · rintro rfl
    rcases format_cases hformat with ⟨w, -, hf⟩ | ⟨htag, -⟩ | ⟨-, hf⟩ | ⟨-, hf⟩ | ⟨-, hf⟩
    · cases w <;> cases hf
    · exact htag
    all_goals cases hf

/-- Date-times are documented as such. -/
theorem nameAndFormat_dateTime (h : env.tag t = .dateTime) : env.nameAndFormat t = (.string, some .dateTime) := by
  have hwidth : t.width? = none := by
    cases hw : t.width? with
    | none => rfl
    | some w =>
      have htag := tag_of_width? env hw
      rw [h] at htag
      cases w <;> cases htag
  have hformat : env.formatOf t = some .dateTime := by
    rw [formatOf_eq, hwidth, formatOf_unwrap, h]
    rfl
  simp only [nameAndFormat, typeNameOf, h, hformat]

theorem format_of_width? {w : Width} (h : t.width? = some w) : (env.nameAndFormat t).2 = some w.format := by
  have hformat : env.formatOf t = some w.format := by
    rw [formatOf_eq, h]
    rfl
  have htag := tag_of_width? env h
  unfold nameAndFormat
  cases w <;> simp only [htag, hformat, Width.format, Format.word]

/-- Wrappers and aliases without a width do not change name and format. -/
theorem nameAndFormat_congr {u : TypeExpr} (hunwrap : t.unwrap = u.unwrap) (hwidth : t.width? = u.width?) :
    env.nameAndFormat t = env.nameAndFormat u := by
  have htag : env.tag t = env.tag u := by rw [tag, tag, hunwrap]
  have hname : env.typeNameOf t = env.typeNameOf u := typeNameOf_congr hunwrap
  have hformat : env.formatOf t = env.formatOf u := by rw [formatOf_eq, formatOf_eq env u, hunwrap, hwidth]
  rw [nameAndFormat, nameAndFormat, htag, hname, hformat]

end Declarations

/-! ### Sound descriptions -/

/-- The parts of a description suit each other. -/
inductive Schema.Sound : Schema → Prop
  | reference {n : Bool} {component : String} : Sound (.reference n component)
  | array {n : Bool} {items : Schema} : Sound items → Sound (.array n items)
  | simple {n : Bool} {word : TypeWord} {format : Option Format} {choices : Option Choices}
      {sample : Option String} : word ≠ .array → (∀ f, format = some f → word = f.word) →
      (∀ c, choices = some c → (word = .string ∨ word = .integer) ∧ format = none) →
      (sample.isSome = true ↔ format = some .dateTime) → Sound (.simple n word format choices sample)

namespace Scope

variable {scope : Scope}

theorem sound_describeSimple {t : TypeExpr} {n : Bool} {s : Schema} (hobject : scope.types.tag t ≠ .object)
    (htag : scope.types.tag t ≠ .array) (h : scope.describeSimple n t = .ok s) : s.Sound := by
  have hword : (scope.types.nameAndFormat t).1 = scope.types.typeNameOf t := by
    unfold Declarations.nameAndFormat
    cases scope.types.tag t <;> rfl
  have hne : (scope.types.nameAndFormat t).1 ≠ .array := by
    rw [hword, Declarations.typeNameOf]
    cases h : scope.types.tag t with
    | array => exact absurd h htag
    | enum => cases scope.types.isIntegerEnum t <;> simp
    | _ => simp
  have hsample : (if scope.types.tag t == .dateTime then some (dateTimeSample scope.year) else none :
      Option String).isSome = true ↔ (scope.types.nameAndFormat t).2 = some .dateTime := by
    by_cases hd : scope.types.tag t = .dateTime
    · simp [hd, Declarations.nameAndFormat_dateTime hd]
    · simp only [beq_iff_eq, hd, if_false, Option.isSome_none, Bool.false_eq_true, false_iff]
      exact fun hf => hd ((Declarations.nameAndFormat_fits hobject hf).2.2 rfl)
  have hfits : ∀ f, (scope.types.nameAndFormat t).2 = some f → (scope.types.nameAndFormat t).1 = f.word :=
    fun f hf => (Declarations.nameAndFormat_fits hobject hf).1
  have henum : scope.types.tag t = .enum →
      ((scope.types.nameAndFormat t).1 = .string ∨ (scope.types.nameAndFormat t).1 = .integer) ∧
        (scope.types.nameAndFormat t).2 = none := by
    intro he
    refine ⟨?_, by simp only [Declarations.nameAndFormat, he]⟩
    rw [hword, Declarations.typeNameOf, he]
    cases scope.types.isIntegerEnum t <;> simp
  obtain ⟨choices, rfl, hchoices⟩ := of_describeSimple_eq_ok h
  exact .simple hne hfits (fun c hc => henum (hchoices c hc).1) hsample

/-- **Every description is sound**, by the recursion of the description. -/
theorem sound_of_fragment {t : TypeExpr} {s : Schema} (h : scope.fragment t = some s) : s.Sound :=
  fragment_induction (fun _ _ => .reference) (fun _ _ hitems => .array hitems)
    (fun _ _ _ hobject htag hs => sound_describeSimple hobject htag hs) h

end Scope

/-! ### The grammar of written descriptions -/

namespace Value

variable {key k : String} {v : Value} {members members' : List (String × Value)}

theorem get?_object_nil (key : String) : (Value.object []).get? key = none := rfl

theorem get?_object_cons : (Value.object ((k, v) :: members)).get? key =
    if k = key then some v else (Value.object members).get? key := by
  show Entries.get? (.str key) ((.str k, v) :: _) = _
  rw [Entries.get?]
  by_cases h : k = key
  · simp [h]
  · rw [if_neg (by simpa using h), if_neg h]
    rfl

theorem get?_object_append : (Value.object (members ++ members')).get? key =
    ((Value.object members).get? key).or ((Value.object members').get? key) := by
  induction members with
  | nil => rfl
  | cons m members ih =>
    obtain ⟨k, v⟩ := m
    rw [List.cons_append, get?_object_cons, get?_object_cons, ih]
    split <;> rfl

/-- A member that may be missing. -/
theorem get?_object_optional {α : Type} (o : Option α) (f : α → Value) :
    (Value.object (o.map fun x => (k, f x)).toList).get? key = if k = key then o.map f else none := by
  cases o with
  | none => simp [get?_object_nil]
  | some x =>
    rw [Option.map_some, Option.toList_some, get?_object_cons, get?_object_nil]
    rfl

end Value

/-- What a written description must satisfy apart from its items. -/
structure IsLevel (v : Value) : Prop where
  /-- It has a reference or a type, not both. -/
  reference_or_type :
    ((∃ name, v.get? "$ref" = some (.str (componentPlace name))) ∧ v.get? "type" = none) ∨
      (v.get? "$ref" = none ∧ ∃ word : TypeWord, v.get? "type" = some (.str word.name))
  items_iff : (v.get? "items").isSome = true ↔ v.get? "type" = some (.str "array")
  /-- A format refines the type that it belongs to; so there is none with any other type. -/
  format_fits : ∀ f, v.get? "format" = some f →
    ((f = .str "int32" ∨ f = .str "int64") ∧ v.get? "type" = some (.str "integer")) ∨
      ((f = .str "float" ∨ f = .str "double") ∧ v.get? "type" = some (.str "number")) ∨
      ((f = .str "date" ∨ f = .str "date-time") ∧ v.get? "type" = some (.str "string"))
  example_iff : (v.get? "example").isSome = true ↔ v.get? "format" = some (.str "date-time")
  description_iff : (v.get? "description").isSome = true ↔ v.get? "format" = some (.str "date-time")
  enum_fits : ∀ e, v.get? "enum" = some e →
    (v.get? "type" = some (.str "string") ∨ v.get? "type" = some (.str "integer")) ∧ v.get? "format" = none
  nullable_true : ∀ n, v.get? "nullable" = some n → n = .bool true

/-- The grammar of written descriptions. -/
inductive IsFragment : Value → Prop
  | intro {v : Value} : IsLevel v → (∀ items, v.get? "items" = some items → IsFragment items) → IsFragment v

namespace Schema

theorem get?_nullableMember (n : Bool) (key : String) :
    (Value.object (nullableMember n)).get? key = if "nullable" = key ∧ n = true then some (.bool true) else none := by
  cases n <;> simp [nullableMember, Value.get?_object_nil, Value.get?_object_cons]

theorem get?_sampleMembers (sample : Option String) (key : String) :
    (Value.object (sampleMembers sample)).get? key =
      if "example" = key then sample.map Value.str
      else if "description" = key then sample.map fun _ => .str dateTimeNote else none := by
  cases sample <;> simp [sampleMembers, Value.get?_object_nil, Value.get?_object_cons]

theorem name_eq_array_iff (word : TypeWord) : word.name = "array" ↔ word = .array := by
  cases word <;> simp [TypeWord.name]

theorem name_eq_dateTime_iff (f : Format) : f.name = "date-time" ↔ f = .dateTime := by
  cases f <;> simp [Format.name]

theorem get?_reference (n : Bool) (component key : String) :
    (reference n component).toValue.get? key =
      (if "nullable" = key ∧ n = true then some (.bool true) else none).or
        (if "$ref" = key then some (.str (componentPlace component)) else none) := by
  simp only [toValue, members, Value.get?_object_append, get?_nullableMember, Value.get?_object_cons,
    Value.get?_object_nil]

theorem get?_array (n : Bool) (items : Schema) (key : String) :
    (array n items).toValue.get? key =
      (if "nullable" = key ∧ n = true then some (.bool true) else none).or
        (if "type" = key then some (.str "array") else if "items" = key then some items.toValue else none) := by
  simp only [toValue, members, Value.get?_object_append, get?_nullableMember, Value.get?_object_cons,
    Value.get?_object_nil]

theorem get?_simple (n : Bool) (word : TypeWord) (format : Option Format) (choices : Option Choices)
    (sample : Option String) (key : String) :
    (simple n word format choices sample).toValue.get? key =
      ((((if "nullable" = key ∧ n = true then some (.bool true) else none).or
        (if "type" = key then some (.str word.name) else none)).or
        (if "format" = key then format.map fun f => .str f.name else none)).or
        (if "enum" = key then choices.map fun c => .list c.values else none)).or
        (if "example" = key then sample.map Value.str
          else if "description" = key then sample.map fun _ => .str dateTimeNote else none) := by
  simp only [toValue, members, Value.get?_object_append, get?_nullableMember, Value.get?_object_cons,
    Value.get?_object_nil, Value.get?_object_optional, get?_sampleMembers]

/-- What is sound is written by the grammar, from the items outwards. -/
theorem Sound.isFragment {s : Schema} (h : s.Sound) : IsFragment s.toValue := by
  induction h with
  | @reference n component =>
    refine .intro ⟨?_, ?_, ?_, ?_, ?_, ?_, ?_⟩ ?_
    · exact .inl ⟨⟨component, by simp [get?_reference]⟩, by simp [get?_reference]⟩
    all_goals simp [get?_reference]
  | array _ ih =>
    refine .intro ⟨?_, ?_, ?_, ?_, ?_, ?_, ?_⟩ ?_
    · exact .inr ⟨by simp [get?_array], .array, by simp [get?_array, TypeWord.name]⟩
    all_goals simp [get?_array, ih]
  | @simple n word format choices sample hword hformat hchoices hsample =>
    refine .intro ⟨?_, ?_, ?_, ?_, ?_, ?_, ?_⟩ ?_
    · exact .inr ⟨by simp [get?_simple], word, by simp [get?_simple]⟩
    · simp [get?_simple, name_eq_array_iff, hword]
    · intro v hv
      obtain ⟨f, hf, rfl⟩ : ∃ f, format = some f ∧ Value.str f.name = v := by simpa [get?_simple] using hv
      rw [get?_simple, hformat f hf]
      cases f <;> simp [Format.word, Format.name, TypeWord.name]
    · simpa [get?_simple, name_eq_dateTime_iff] using hsample
    · simpa [get?_simple, name_eq_dateTime_iff] using hsample
    · intro e he
      obtain ⟨c, hc, -⟩ : ∃ c, choices = some c ∧ Value.list c.values = e := by simpa [get?_simple] using he
      obtain ⟨hw, hnone⟩ := hchoices c hc
      rcases hw with rfl | rfl <;> simp [get?_simple, hnone, TypeWord.name]
    · simp [get?_simple]
    · simp [get?_simple]

end Schema

/-! ### What is given -/

namespace Scope

variable {scope : Scope}

/-- A description that is given is the one of the type, whatever is registered. -/
theorem fragment_of_build {t : TypeExpr} {b c : Builder} {s : Schema}
    (h : (scope.build t).run' b = (.ok (some s), c)) : scope.fragment t = some s :=
  ((follows_build t).of_ok h).1.symm

/-- **Descriptions follow one grammar.**  What is given for a type is of the grammar, whatever is registered.  Under
a chain of wrappers and aliases of any length, the outermost width decides on name and format, and without one they
are those of the type at its end. -/
theorem build_isFragment (scope : Scope) :
    (∀ (t : TypeExpr) (b c : Builder) (s : Schema), (scope.build t).run' b = (.ok (some s), c) →
        IsFragment s.toValue) ∧
      ∀ (t u : TypeExpr) (ws : List Width), TypeExpr.Chain t ws u →
        (∀ w, ws.head? = some w → scope.types.nameAndFormat t = (w.format.word, some w.format)) ∧
          (ws = [] → scope.types.nameAndFormat t = scope.types.nameAndFormat u) := by
  refine ⟨fun t b c s h => ?_, fun t u ws h => ⟨fun w hw => ?_, fun hws => ?_⟩⟩
  · exact (sound_of_fragment (fragment_of_build h)).isFragment
  · have hwidth : t.width? = some w := by rw [h.width?_eq, hw, Option.some_or]
    have hformat : (scope.types.nameAndFormat t).2 = some w.format := Declarations.format_of_width? hwidth
    have hobject : scope.types.tag t ≠ .object := by
      rw [Declarations.tag_of_width? scope.types hwidth]
      cases w <;> simp [Width.format, Format.word]
    exact Prod.ext (Declarations.nameAndFormat_fits hobject hformat).1 hformat
  · have hwidth : t.width? = u.width? := by rw [h.width?_eq, hws, List.head?_nil, Option.none_or]
    exact Declarations.nameAndFormat_congr h.unwrap_eq hwidth

/-- Heights of nodes, in a list, each of which may be null: a name for integers of 32 bits. -/
def heights : TypeExpr := .container .list false (some [.unionOf [.renamed "Height" (.width .int32), .nullType]])

/-- Identifiers of administrators, which are identifiers of users, which are integers. -/
def adminIds : Scope :=
  ⟨[⟨"AdminId", "AdminId", .derived (.declared "UserId"), [], [], none⟩,
    ⟨"UserId", "UserId", .derived (.builtin .int), [], [], none⟩], 2024, 0⟩

theorem build_isFragment_heights :
    (∃ s, (trees.build heights).run' ⟨[], []⟩ = (.ok (some s), ⟨[], []⟩) ∧ IsFragment s.toValue) ∧
      trees.types.nameAndFormat (.wrapped .annotated (.renamed "Height" (.width .int32)))
        = (.integer, some .int32) ∧
      trees.types.nameAndFormat (.wrapped .required (.renamed "Label" (.declared "Label")))
        = trees.types.nameAndFormat (.declared "Label") ∧
      ∃ s, (adminIds.build (.declared "AdminId")).run' ⟨[], []⟩ = (.ok (some s), ⟨[], []⟩) ∧ IsFragment s.toValue ∧
        s.toValue = .object [("type", .str "integer"), ("format", .str "int64")] := by
  have hheight : trees.describe (.unionOf [.renamed "Height" (.width .int32), .nullType]) =
      .ok ⟨some (.simple true .integer (some .int32) none none), none, []⟩ := by
    have hp : TypeExpr.payload? (.unionOf [.renamed "Height" (.width .int32), .nullType]) =
        some (true, .renamed "Height" (.width .int32)) := rfl
    rw [describe_of_payload? hp (by decide)]
    rfl
  have hrun : (trees.build heights).run' ⟨[], []⟩
      = (.ok (some (.array false (.simple true .integer (some .int32) none none))), ⟨[], []⟩) := by
    rw [build, buildWith, Build.run'_bind, Build.run'_lift, heights, describe_items rfl rfl rfl, hheight]
    rfl
  have hadmin : (adminIds.build (.declared "AdminId")).run' ⟨[], []⟩
      = (.ok (some (.simple false .integer (some .int64) none none)), ⟨[], []⟩) := by
    rw [build, buildWith, Build.run'_bind, Build.run'_lift, describe_of_payload? rfl (by decide +kernel)]
    rfl
  exact ⟨⟨_, hrun, trees.build_isFragment.1 _ _ _ _ hrun⟩,
    (trees.build_isFragment.2 _ _ _ (.wrapped (.renamed (.width .refl)))).1 .int32 rfl,
    (trees.build_isFragment.2 _ _ _ (.wrapped (.renamed .refl))).2 rfl,
    _, hadmin, adminIds.build_isFragment.1 _ _ _ _ hadmin, rfl⟩

end Scope

end RouteDoc
