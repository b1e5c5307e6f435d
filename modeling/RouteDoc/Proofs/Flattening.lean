import Mathlib.Data.List.Forall2
import RouteDoc.Proofs.Degradation

/-!
# Flattened types

A structured type is documented in two ways: as a component, and field by field where a request extractor gathers
parameters into it.  Both ways tell the same story.

* `Scope.sample?_of_fragment` — an example stands in a description exactly when the type is a date-time;
* `Flattened`, `Scope.flattened_entry` — the entry of a field, by the property of the same field;
* `FlattenedView` — entries that agree with a component;
* `Scope.Gathers` — the entries of one parameter that is gathered from query or headers;
* `Scope.LeadsTo`, `Scope.clash_of_reachable` — where the two ways may part: types that share a class name;
* `Scope.gathered_agrees` — the entries agree with the component, from every registry.
-/

namespace RouteDoc

/-! ### Examples in descriptions -/

namespace Schema

/-- The example in a description. -/
def sample? : Schema → Option String
  | simple _ _ _ _ sample => sample
  | _ => none

theorem members_eq_append (s : Schema) : s.members = s.withoutSample.members ++ sampleMembers s.sample? := by
  cases s <;> simp [members, withoutSample, sample?, sampleMembers]

theorem nullable_withoutSample (s : Schema) : s.withoutSample.nullable = s.nullable := by cases s <;> rfl

/-- A sound description is that of a date-time exactly when it has an example. -/
theorem Sound.format_iff {s : Schema} (h : s.Sound) :
    s.toValue.get? "format" = some (.str "date-time") ↔ s.sample?.isSome = true := by
  cases h with
  | reference => simp [get?_reference, sample?]
  | array _ => simp [get?_array, sample?]
  | simple _ _ _ hsample => simp [get?_simple, sample?, name_eq_dateTime_iff, hsample]

end Schema

namespace TypeExpr

/-- A union of a single type, below wrappers; `TypeExpr.union` makes that type of it. -/
def isLoneUnion (t : TypeExpr) : Bool :=
  match t.stripWrappers with
  | .unionOf [_] => true
  | _ => false

/-- What a type is with or without null is what is left when null is taken away. -/
theorem stripOptional_of_payload? {t payload : TypeExpr} {nullable : Bool} (hlone : t.isLoneUnion = false)
    (h : t.payload? = some (nullable, payload)) : t.stripOptional = payload := by
  unfold payload? at h
  unfold stripOptional
  cases hm : t.members? with
  | none =>
    rw [hm] at h
    cases h
    rfl
  | some found =>
    rw [hm] at h
    obtain ⟨marked, rest⟩ := found
    cases rest with
    | nil => cases h
    | cons m rest =>
      cases rest with
      | cons _ _ => cases h
      | nil =>
        cases h
        cases hmarked : nullable with
        | true => rfl
        | false =>
          -- without a null marker the union has this member alone
          subst hmarked
          unfold members? at hm
          split at hm
          · next members hstrip =>
            simp only [Option.some.injEq, Prod.mk.injEq, List.any_eq_false] at hm
            obtain ⟨hnone, hfilter⟩ := hm
            have hall : members.filter (fun u => !u.isNullMarker) = members :=
              List.filter_eq_self.2 fun u hu => by simpa using hnone u hu
            rw [hall] at hfilter
            rw [isLoneUnion, hstrip, hfilter] at hlone
            cases hlone
          · cases hm

end TypeExpr

namespace Scope

variable {scope : Scope}

theorem exists_payload?_of_fragment {t : TypeExpr} {s : Schema} (h : scope.fragment t = some s) :
    ∃ nullable payload, t.payload? = some (nullable, payload) := by
  obtain ⟨d, hd, hs⟩ := exists_of_fragment h
  cases hd with
  | nothing => cases hs
  | choice => cases hs
  | struct hp => exact ⟨_, _, hp⟩
  | items hp => exact ⟨_, _, hp⟩
  | anyItems hp => exact ⟨_, _, hp⟩
  | simple hp => exact ⟨_, _, hp⟩

theorem sample?_of_describeSimple {t : TypeExpr} {nullable : Bool} {s : Schema}
    (h : scope.describeSimple nullable t = .ok s) :
    s.sample? = if scope.types.isDateTime t then some (dateTimeSample scope.year) else none := by
  obtain ⟨choices, rfl, -⟩ := of_describeSimple_eq_ok h
  rfl

/-- What a description is, by the class of what the type is apart from null. -/
theorem fragment_cases {t payload : TypeExpr} {nullable : Bool} {s : Schema}
    (hp : t.payload? = some (nullable, payload)) (h : scope.fragment t = some s) :
    (scope.types.tag payload = .object ∧ ∃ name, s = .reference nullable name) ∨
      (scope.types.tag payload = .array ∧ ∃ items, s = .array nullable items) ∨
      scope.describeSimple nullable payload = .ok s := by
  obtain ⟨d, hd, hs⟩ := exists_of_fragment h
  cases hd with
  | nothing => cases hs
  | choice => cases hs
  | struct hp' htag =>
    cases hp.symm.trans hp'
    cases hs
    exact .inl ⟨htag, _, rfl⟩
  | items hp' htag =>
    cases hp.symm.trans hp'
    obtain ⟨inner, -, rfl⟩ := schema_describeArray hs
    exact .inr (.inl ⟨htag, _, rfl⟩)
  | anyItems hp' htag =>
    cases hp.symm.trans hp'
    cases hs
    exact .inr (.inl ⟨htag, _, rfl⟩)
  | simple hp' _ _ _ hsimple =>
    cases hp.symm.trans hp'
    cases hs
    exact .inr (.inr hsimple)

/-- **An example stands in the description of a type exactly when the type, but for null, is a date-time.** -/
theorem sample?_of_fragment {t : TypeExpr} {s : Schema} (hlone : t.isLoneUnion = false)
    (h : scope.fragment t = some s) :
    s.sample? = if scope.types.isDateTime t.stripOptional then some (dateTimeSample scope.year) else none := by
  obtain ⟨nullable, payload, hp⟩ := exists_payload?_of_fragment h
  rw [TypeExpr.stripOptional_of_payload? hlone hp]
  rcases fragment_cases hp h with ⟨htag, name, rfl⟩ | ⟨htag, items, rfl⟩ | hsimple
  · simp [Schema.sample?, Declarations.isDateTime, htag]
  · simp [Schema.sample?, Declarations.isDateTime, htag]
  · exact sample?_of_describeSimple hsimple

end Scope

/-! ### Entries and properties -/

/-- The entry that a property becomes where its type is flattened.  The property is the schema of the entry, except
that the example of a date-time and the note with it stand on the entry itself. -/
inductive Flattened (location : Location) (name : String) (required : Bool) : Value → Value → Prop
  | plain {members : List (String × Value)} : (Value.object members).get? "format" ≠ some (.str "date-time") →
      Flattened location name required (.object members)
        (.object [("in", .str location.name), ("name", .str name), ("required", .bool required),
          ("schema", .object members)])
  | dateTime {before after : List (String × Value)} {sample note : Value} :
      (Value.object (before ++ after)).get? "format" = some (.str "date-time") →
      Flattened location name required
        (.object (before ++ [("example", sample), ("description", note)] ++ after))
        (.object [("in", .str location.name), ("name", .str name), ("required", .bool required),
          ("schema", .object (before ++ after)), ("example", sample), ("description", note)])

/-- The entry is required, and its schema admits no null. -/
def Value.IsFirm (entry : Value) : Prop :=
  entry.get? "required" = some (.bool true) ∧
    ∃ schema, entry.get? "schema" = some schema ∧ schema.get? "nullable" ≠ some (.bool true)

/-- **Entries agree with a component**: there is one for each property, in their order and under their names, each
with the property as its schema; and what the component requires are the entries that are required without null. -/
structure FlattenedView (location : Location) (component : Value) (entries : List Value) : Prop where
  entries_eq : ∃ props, component.get? "properties" = some (.object props) ∧ (props.map (·.1)).Nodup ∧
    List.Forall₂ (fun p e => ∃ required, Flattened location p.1 required p.2 e) props entries
  listed_iff : ∀ n, component.Lists n ↔ ∃ e ∈ entries, e.get? "name" = some (.str n) ∧ e.IsFirm

namespace Scope

variable {scope : Scope} {location : Location}

theorem extractType_of_plain {t : TypeExpr} (h : scope.types.isExtractor t = false) :
    scope.types.extractType t = t := by
  have hnone : (scope.types.extractor? t).isNone = true := by simpa [Declarations.isExtractor] using h
  unfold Declarations.extractType
  rw [if_pos hnone]

/-- **The entry of a field**, by the property of the same field. -/
theorem flattened_entry {q : Param} {s : Schema} (hlocation : location ≠ .path)
    (hplain : scope.types.isExtractor q.type = false) (hlone : q.type.isLoneUnion = false)
    (hs : scope.fragment q.type = some s) :
    Flattened location q.name q.required (Property.toValue ⟨s, defaultOf q⟩)
      (scope.entryOf location q s (defaultOf q)).toValue := by
  have hsample := sample?_of_fragment hlone hs
  have hformat : (Property.toValue ⟨s, defaultOf q⟩).get? "format" = some (.str "date-time") ↔
      s.sample?.isSome = true := by
    rw [Property.get?_toValue, if_neg (by simp), Option.or_none]
    exact (sound_of_fragment hs).format_iff
  have hrequired : (location == .path || q.required) = q.required := by simp [hlocation]
  cases hdate : scope.types.isDateTime q.type.stripOptional with
  | false =>
    rw [hdate] at hsample
    rw [hsample] at hformat
    simp only [entryOf, extractType_of_plain hplain, hdate, hrequired]
    exact .plain (by simpa [Property.toValue] using hformat)
  | true =>
    rw [hdate] at hsample
    have hmembers : Property.toValue ⟨s, defaultOf q⟩ = .object (s.withoutSample.members
        ++ [("example", .str (dateTimeSample scope.year)), ("description", .str dateTimeNote)]
        ++ ((defaultOf q).map fun v => ("default", v)).toList) := by
      rw [Property.toValue, Property.members, Schema.members_eq_append, hsample]
      rfl
    have hkept : (Value.object (s.withoutSample.members
        ++ ((defaultOf q).map fun v => ("default", v)).toList)).get? "format" = some (.str "date-time") := by
      have hthere := hformat.2 (by rw [hsample]; rfl)
      rw [hmembers, Value.get?_object_append, Value.get?_object_append] at hthere
      rw [Value.get?_object_append]
      simpa [Value.get?_object_cons, Value.get?_object_nil] using hthere
    rw [hmembers]
    simp only [entryOf, extractType_of_plain hplain, hdate, hrequired]
    exact .dateTime hkept

theorem forall₂_filterMap {α β γ : Type} {R : β → γ → Prop} {f : α → Option β} {g : α → Option γ}
    {l : List α} (h : ∀ a ∈ l, (f a = none ∧ g a = none) ∨ ∃ x y, f a = some x ∧ g a = some y ∧ R x y) :
    List.Forall₂ R (l.filterMap f) (l.filterMap g) := by
  induction l with
  | nil => exact .nil
  | cons a l ih =>
    have hrest := ih fun b hb => h b (List.mem_cons_of_mem _ hb)
    rcases h a List.mem_cons_self with ⟨hf, hg⟩ | ⟨x, y, hf, hg, hxy⟩
    · rw [List.filterMap_cons_none hf, List.filterMap_cons_none hg]
      exact hrest
    · rw [List.filterMap_cons_some hf, List.filterMap_cons_some hg]
      exact .cons hxy hrest

theorem nullable_schema_entryOf (location : Location) (p : Param) (s : Schema) (default : Option Value) :
    (scope.entryOf location p s default).schema.schema.nullable = s.nullable := by
  unfold entryOf
  dsimp only
  split
  · exact s.nullable_withoutSample
  · rfl

/-- The entry of a field is firm when the field is required and its schema admits no null. -/
theorem isFirm_entryOf_iff {q : Param} {s : Schema} {default : Option Value} (hlocation : location ≠ .path) :
    (scope.entryOf location q s default).toValue.IsFirm ↔ q.required = true ∧ s.nullable = false := by
  have hnullable : ∀ s : Schema, (Property.toValue ⟨s, default⟩).get? "nullable" ≠ some (.bool true) ↔
      s.nullable = false := by
    intro s
    have hdefault : ¬ "default" = "nullable" := by decide
    rw [Property.get?_toValue, Schema.get?_nullable, if_neg hdefault, Option.or_none]
    cases s.nullable <;> simp
  have hkept : (if scope.types.isDateTime (scope.types.extractType q.type).stripOptional then s.withoutSample
      else s).nullable = s.nullable := nullable_schema_entryOf location q s default
  rw [Value.IsFirm, RequestParameter.toValue, RequestParameter.members]
  simp only [List.cons_append, List.nil_append, Value.get?_object_cons, entryOf]
  simp [hnullable, hkept, hlocation]

/-- **The entries of the fields of a type agree with its component.** -/
theorem flattenedView_componentOf {t : TypeExpr} (hlocation : location ≠ .path)
    (hplain : ∀ q ∈ scope.fieldList t, scope.types.isExtractor q.type = false)
    (hlone : ∀ q ∈ scope.fieldList t, q.type.isLoneUnion = false)
    (hnames : ((scope.fieldList t).map (·.name)).Nodup) :
    FlattenedView location (scope.componentOf t).toValue
      (((scope.fieldList t).filterMap (scope.entryFor location)).map RequestParameter.toValue) := by
  have hentry : ∀ q ∈ scope.fieldList t, scope.entryFor location q =
      (scope.fragment q.type).map fun s => scope.entryOf location q s (defaultOf q) := by
    intro q hq
    rw [entryFor, extractType_of_plain (hplain q hq)]
  constructor
  case entries_eq =>
    refine ⟨writtenProperties (scope.componentOf t), by simp [get?_component], ?_, ?_⟩
    · rw [names_writtenProperties]
      show (((scope.fieldList t).filterMap scope.propertyOf).map (·.1)).Nodup
      rw [names_propertyOf]
      exact hnames.sublist (List.Sublist.map _ List.filter_sublist)
    · refine List.forall₂_map_left_iff.2 (List.forall₂_map_right_iff.2 (forall₂_filterMap fun q hq => ?_))
      rw [hentry q hq, propertyOf]
      cases hs : scope.fragment q.type with
      | none => exact .inl ⟨rfl, rfl⟩
      | some s => exact .inr ⟨_, _, rfl, rfl, q.required, flattened_entry hlocation (hplain q hq) (hlone q hq) hs⟩
  case listed_iff =>
    intro n
    rw [lists_iff]
    show n ∈ (scope.fieldList t).filterMap scope.requiredName ↔ _
    rw [List.mem_filterMap]
    constructor
    · rintro ⟨q, hq, hn⟩
      obtain ⟨⟨s, hs, hnull⟩, hrequired, rfl⟩ := requiredName_eq_some.1 hn
      have hin : scope.entryOf location q s (defaultOf q) ∈ (scope.fieldList t).filterMap (scope.entryFor location) :=
        List.mem_filterMap.2 ⟨q, hq, by rw [hentry q hq, hs]; rfl⟩
      exact ⟨_, List.mem_map_of_mem hin, rfl, (isFirm_entryOf_iff hlocation).2 ⟨hrequired, hnull⟩⟩
    · rintro ⟨e, he, hn, hfirm⟩
      obtain ⟨entry, hin, rfl⟩ := List.mem_map.1 he
      obtain ⟨q, hq, hentryq⟩ := List.mem_filterMap.1 hin
      rw [hentry q hq] at hentryq
      obtain ⟨s, hs, rfl⟩ := Option.map_eq_some_iff.1 hentryq
      obtain ⟨hrequired, hnull⟩ := (isFirm_entryOf_iff hlocation).1 hfirm
      have hname : q.name = n := by
        have hn' : some (Value.str q.name) = some (.str n) := hn
        simpa using hn'
      exact ⟨q, hq, requiredName_eq_some.2 ⟨⟨s, hs, hnull⟩, hrequired, hname⟩⟩

/-! ### Where the two ways may part -/

/-- The types to which visiting a type leads: that type, and those that the fields of these refer to. -/
abbrev LeadsTo (scope : Scope) (t u : TypeExpr) : Prop := scope.Reachable (fun _ => True) [.visit t] u

theorem leadsTo_refl (t : TypeExpr) : scope.LeadsTo t t := .root List.mem_cons_self trivial

/-- Two different types share a class name, and visiting one of them leads to a type that gives the failure. -/
def Clash (scope : Scope) (t : TypeExpr) (f : Failure) : Prop :=
  ∃ x y z, scope.LeadsTo t x ∧ scope.LeadsTo t y ∧ x ≠ y ∧ scope.types.typeName x = scope.types.typeName y ∧
    scope.LeadsTo y z ∧ .stop f ∈ scope.structErrands z

/-- Between two types a type on the way was passed over, for another one of its name that was entered. -/
def PassesOver (scope : Scope) (entered : List TypeExpr) (t u : TypeExpr) : Prop :=
  ∃ x y, x ∈ entered ∧ scope.LeadsTo t y ∧ x ≠ y ∧ scope.types.typeName x = scope.types.typeName y ∧
    scope.LeadsTo y u

/-- A type to which a visit leads was entered, or some type on the way was passed over. -/
theorem mem_or_passesOver_of_leadsTo {t u : TypeExpr} {us : List TypeExpr} {ws : List Warning}
    (h : scope.Traverses [] [.visit t] us ws none) (hu : scope.LeadsTo t u) :
    u ∈ us ∨ scope.PassesOver us t u := by
  -- what was asked for is entered, unless its name belongs to another type
  have hasked : ∀ {v : TypeExpr}, scope.LeadsTo t v →
      (.visit v ∈ [Errand.visit t] ∨ ∃ w ∈ us, .visit v ∈ scope.structErrands w) →
      v ∈ us ∨ scope.PassesOver us t v := by
    intro v hv hin
    obtain ⟨x, hx, hname⟩ := mem_namesOf.1 (by simpa using h.closed hin)
    by_cases heq : x = v
    · exact .inl (heq ▸ hx)
    · exact .inr ⟨x, v, hx, hv, heq, hname, leadsTo_refl v⟩
  induction hu with
  | root hin _ => exact hasked (.root hin trivial) (.inl hin)
  | step hv hin _ ih =>
    rcases ih with hentered | ⟨x, y, hx, hy, hne, hname, hlead⟩
    · exact hasked (.step hv hin trivial) (.inr ⟨_, hentered, hin⟩)
    · exact .inr ⟨x, y, hx, hy, hne, hname, .step hlead hin trivial⟩

theorem leadsTo_of_reachable {t u : TypeExpr} {mayEnter : TypeExpr → Prop} {es : List Errand}
    (hes : ∀ v, .visit v ∈ es → .visit v ∈ scope.structErrands t) (h : scope.Reachable mayEnter es u) :
    scope.LeadsTo t u := by
  induction h with
  | root hin _ => exact .step (leadsTo_refl t) (hes _ hin) trivial
  | step _ hin _ ih => exact .step ih hin trivial

/-- Where a visit went through, a failure further on is due to types that share a class name. -/
theorem clash_of_leadsTo {t u : TypeExpr} {us : List TypeExpr} {ws : List Warning} {f : Failure}
    (h : scope.Traverses [] [.visit t] us ws none) (hu : scope.LeadsTo t u) (hf : .stop f ∈ scope.structErrands u) :
    scope.Clash t f := by
  rcases mem_or_passesOver_of_leadsTo h hu with hin | ⟨x, y, hx, hy, hne, hname, hlead⟩
  · exact absurd hf ((h.stop_notMem f).2 u hin)
  · exact ⟨x, y, u, (h.reachable x hx).mono (fun _ => id) fun _ _ => trivial, hy, hne, hname, hlead, hf⟩

/-! ### Gathered parameters -/

/-- The entries of one parameter into which a request extractor gathers a type from the query or from the headers. -/
inductive Gathers (scope : Scope) (t : TypeExpr) : Location → Build (List RequestParameter) → Prop
  | query {p : Param} : p.type = .extractor .query (some t) → Gathers scope t .query (scope.allEntries [] [p] [])
  | header {p : Param} : p.type = .extractor .header (some t) → Gathers scope t .header (scope.allEntries [] [] [p])

/-- A parameter into which a structured type is gathered stands for the fields that the type has at its turn. -/
theorem candidates_of_gathered {t : TypeExpr} {p : Param} {e : Extractor} (ht : scope.types.isStruct t = true)
    (he : e.isRequest = true) (hp : p.type = .extractor e (some t)) (turn : Nat) :
    scope.candidates turn p = scope.types.fieldsOf t.unwrap (.gathering scope.time turn) := by
  have hmembers : t.members? = none := by
    have hobject : scope.types.tag t = .object := by simpa [Declarations.isStruct] using ht
    have hne : scope.types.tag t ≠ .union := by simp [hobject]
    exact members?_eq_none hne
  have hstrip : t.stripOptional = t := by simp only [TypeExpr.stripOptional, hmembers]
  have hinner : scope.types.extractType p.type = t := by rw [hp, Declarations.extractType_extractor]
  have hrequest : scope.types.isRequestParam p.type = true := by
    rw [hp, Declarations.isRequestParam_extractor, he]
  simp only [candidates, hinner, hstrip, hrequest, ht, Bool.and_self, if_true]

/-- The entries of a parameter into which a type is gathered are those of the fields of the type. -/
theorem Gathers.follows {t : TypeExpr} {fields : List Param} {step : Build (List RequestParameter)}
    (h : scope.Gathers t location step) (ht : scope.types.isStruct t = true)
    (hfields : scope.types.fieldsOf t.unwrap (.gathering scope.time 0) = .ok fields) :
    scope.Follows scope.depth step (fields.flatMap (scope.entryErrands location))
      (fields.filterMap (scope.entryFor location)) := by
  cases h with
  | @query p hp =>
    have hfollows : scope.Follows _ _ _ _ := follows_allEntries [] [p] []
    have hcandidates := candidates_of_gathered ht rfl hp 0
    simpa [inTurn, turnErrands, turnEntries, paramErrands, entriesFor, candidateList, hcandidates, hfields]
      using hfollows
  | @header p hp =>
    have hfollows : scope.Follows _ _ _ _ := follows_allEntries [] [] [p]
    have hcandidates := candidates_of_gathered ht rfl hp 0
    simpa [inTurn, turnErrands, turnEntries, paramErrands, entriesFor, candidateList, hcandidates, hfields]
      using hfollows

/-- What gathers parameters at another time gathers them now, when factories are steady. -/
theorem Gathers.of_atTime {t : TypeExpr} {step : Build (List RequestParameter)} {time : Nat}
    (hsteady : scope.types.SteadyFactories) (h : (scope.atTime time).Gathers t location step) :
    scope.Gathers t location step := by
  cases h with
  | query hp =>
    rw [allEntries_atTime hsteady]
    exact .query hp
  | header hp =>
    rw [allEntries_atTime hsteady]
    exact .header hp

theorem Gathers.location_ne {t : TypeExpr} {step : Build (List RequestParameter)}
    (h : scope.Gathers t location step) : location ≠ .path := by
  cases h <;> simp

/-- The failures of a typed name do not depend on the notice that is given for it. -/
theorem stop_mem_typedErrands {t : TypeExpr} {p : Param} {f : Failure} (w w' : Warning) :
    .stop f ∈ scope.typedErrands t p w ↔ .stop f ∈ scope.typedErrands t p w' := by
  rw [typedErrands, typedErrands, List.mem_append, List.mem_append]
  cases scope.fragment t <;> simp

/-- **Flattened types agree with their components.**  When the component of a structured type is given in an empty
registry, the entries of a parameter that gathers the type from query or headers agree with it, whatever stands in
the registry by then.  The types of the fields are no extractors.  Types are told apart by their class names alone:
where two of them share a name, describing the component may pass one over that describing the entries meets and
fails on; nothing else makes it fail.  Component and entries are given by two calls, which agree on what the factories
of defaults give when these are steady. -/
theorem gathered_agrees (scope : Scope) (hsteady : scope.types.SteadyFactories) (t : TypeExpr)
    (ht : scope.types.isStruct t = true)
    (hplain : ∀ q ∈ scope.fieldList t.unwrap, scope.types.isExtractor q.type = false)
    (hlone : ∀ q ∈ scope.fieldList t.unwrap, q.type.isLoneUnion = false)
    {component : Value} {done : Builder} (hc : (scope.component t.unwrap).run' ⟨[], []⟩ = (.ok component, done))
    {time : Nat} {location : Location} {step : Build (List RequestParameter)}
    (hstep : (scope.atTime time).Gathers t location step) (b : Builder) :
    (∃ entries after, step.run' b = (.ok entries, after) ∧
        FlattenedView location component (entries.map RequestParameter.toValue)) ∨
      ∃ f after, step.run' b = (.error f, after) ∧ scope.Clash t.unwrap f := by
  rcases of_run'_component hc with ⟨hin, -⟩ | ⟨-, hold, rfl⟩
  · cases hin
  obtain ⟨fields, hfields, hholds⟩ := hold
  have hlist : scope.fieldList t.unwrap = fields := by simp [fieldList, hfields]
  have hgathered : scope.types.fieldsOf t.unwrap (.gathering scope.time 0) = .ok fields := by
    rw [Declarations.fieldsOf_steady hsteady _ _ (scope.moment t.unwrap)]
    exact hfields
  obtain ⟨us, ws, r, htrav, hout⟩ := ((hstep.of_atTime hsteady).follows ht hgathered).total b
  cases r with
  | none =>
    have hrun : step.run' b = (.ok (fields.filterMap (scope.entryFor location)), _) := hout
    refine .inl ⟨_, _, hrun, ?_⟩
    rw [← hlist]
    exact flattenedView_componentOf hstep.location_ne hplain hlone
      (hlist ▸ Declarations.fieldsOf_names_nodup hfields)
  | some f =>
    obtain ⟨after, hrun, -⟩ := hout
    refine .inr ⟨f, after, hrun, ?_⟩
    obtain ⟨vs, xs, hvisit, -⟩ := traverses_of_run'_component hc
    rw [hlist] at hplain
    rcases htrav.stop_mem with hf | ⟨u, hu, hf⟩
    · -- the fields themselves hold, since the component was given
      obtain ⟨q, hq, hf⟩ := List.mem_flatMap.1 hf
      rw [entryErrands, extractType_of_plain (hplain q hq),
        stop_mem_typedErrands _ (.undescribedField "" q.name)] at hf
      exact absurd hf ((stop_notMem_fieldErrands_iff "").2 (hholds q hq) f)
    · refine clash_of_leadsTo hvisit (leadsTo_of_reachable (fun v hv => ?_) (htrav.reachable u hu)) hf
      obtain ⟨q, hq, hv⟩ := List.mem_flatMap.1 hv
      rw [entryErrands, visit_mem_typedErrands, extractType_of_plain (hplain q hq)] at hv
      exact visit_mem_structErrands.2 ⟨q, hlist ▸ hq, hv⟩

/-- Bookings of rooms, and of further bookings: with a date-time, one that may be null, a default, an array, a type
that refers to itself and one that has no description. -/
def bookings : Scope :=
  ⟨[⟨"Room", "Room", .dataclass, [⟨"number", .builtin .int, none, none⟩], [], none⟩,
    ⟨"Booking", "Booking", .dataclass,
      [⟨"room", .declared "Room", none, none⟩, ⟨"start", .builtin .dateTime, none, none⟩,
        ⟨"finish", .optional (.builtin .dateTime), none, none⟩,
        ⟨"next", .optional (.forward "Booking"), none, none⟩,
        ⟨"guests", .container .list false (some [.builtin .str]), none, none⟩,
        ⟨"code", .union [.builtin .int, .builtin .str], none, none⟩,
        ⟨"seats", .builtin .int, some (.fresh (.int 1)), none⟩], [], none⟩], 2024, 0⟩

theorem steadyFactories_bookings : bookings.types.SteadyFactories := by
  simp [Declarations.SteadyFactories, bookings, Default.isSteady_fresh]

/-- A parameter into which bookings are gathered. -/
def bookingFilter : Param := ⟨"filter", .extractor .query (some (.declared "Booking")), true, false, .null⟩

/-- Bookings gathered from the query at another time, where a component is registered already. -/
theorem gathered_agrees_bookings :
    ∃ component done entries after,
      (bookings.component (.declared "Booking")).run' ⟨[], []⟩ = (.ok component, done) ∧
      ((bookings.atTime 1).allEntries [] [bookingFilter] []).run' ⟨[("Old", .given .null)], []⟩ = (.ok entries, after) ∧
      FlattenedView .query component (entries.map RequestParameter.toValue) ∧
      entries.map (·.name) = ["room", "start", "finish", "next", "guests", "seats"] := by
  let step := (bookings.atTime 1).allEntries [] [bookingFilter] []
  have hok : ((bookings.component (.declared "Booking")).run' ⟨[], []⟩).1.toBool = true := by decide +kernel
  have hok' : (step.run' ⟨[("Old", .given .null)], []⟩).1.toBool = true := by decide +kernel
  obtain ⟨component, done, hc⟩ := Build.exists_run'_eq_ok hok
  obtain ⟨entries, after, he⟩ := Build.exists_run'_eq_ok hok'
  have hnames : (step.run' ⟨[("Old", .given .null)], []⟩).1.toOption.map (fun entries => entries.map (·.name)) =
      some ["room", "start", "finish", "next", "guests", "seats"] := by decide +kernel
  rw [he] at hnames
  have hgathers : (bookings.atTime 1).Gathers (.declared "Booking") .query step := .query rfl
  rcases gathered_agrees bookings steadyFactories_bookings (.declared "Booking") (by decide +kernel)
    (by decide +kernel) (by decide +kernel) hc hgathers ⟨[("Old", .given .null)], []⟩ with
    ⟨entries', after', hrun, hview⟩ | ⟨f, after', hrun, -⟩
  · rw [he] at hrun
    cases hrun
    exact ⟨component, done, entries, after, hc, he, hview, Option.some.inj hnames⟩
  · rw [he] at hrun
    cases hrun

/-- Pets with a twin of another class, which is also called a pet and has an annotation with a quote that is not
closed. -/
def namesakes : Scope :=
  ⟨[⟨"Stray", "Pet", .dataclass, [⟨"kind", .forward "'Kind", none, none⟩], [], none⟩,
    ⟨"Pet", "Pet", .dataclass, [⟨"twin", .declared "Stray", none, none⟩], [], none⟩], 2024, 0⟩

/-- A parameter into which pets are gathered. -/
def petFilter : Param := ⟨"filter", .extractor .query (some (.declared "Pet")), true, false, .null⟩

/-- **Describing the entries may fail where describing the component did not**: the component of pets passes over the
twin, whose name is registered by then, and the entries of pets do not. -/
theorem gathering_fails_on_namesake :
    namesakes.types.isStruct (.declared "Pet") = true ∧
      (∀ q ∈ namesakes.fieldList (.declared "Pet"), namesakes.types.isExtractor q.type = false) ∧
      (∃ component done, (namesakes.component (.declared "Pet")).run' ⟨[], []⟩ = (.ok component, done) ∧
        ∀ entries after, (namesakes.allEntries [] [petFilter] []).run' ⟨[], []⟩ ≠ (.ok entries, after)) := by
  have hok : ((namesakes.component (.declared "Pet")).run' ⟨[], []⟩).1.toBool = true := by decide +kernel
  have hfails : ((namesakes.allEntries [] [petFilter] []).run' ⟨[], []⟩).1.toBool = false := by decide +kernel
  obtain ⟨component, done, hc⟩ := Build.exists_run'_eq_ok hok
  refine ⟨by decide +kernel, by decide +kernel, component, done, hc, fun entries after h => ?_⟩
  rw [h] at hfails
  cases hfails

end Scope

end RouteDoc
