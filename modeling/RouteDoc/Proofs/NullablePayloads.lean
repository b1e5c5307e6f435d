import Mathlib.Data.List.Forall2
import RouteDoc.Proofs.Calls
import RouteDoc.Proofs.ContentMap
import RouteDoc.Proofs.Flattening

/-!
# Nullable payloads

A payload that may also be null is documented like the payload.  Null is looked through wherever an extractor is:
where payloads are registered, in the content map, and where structured parameters are flattened.  A type that
becomes part of a larger union together with null has no component before and none after.

* `TypeExpr.union_union` — what is written as a union is written;
* `TypeExpr.stripOptional_optional`, `Scope.payload_optional` — a type with null added, without null again;
* `SentAlike`, `Content.entries_congr`, `Scope.operation_congr` — parameters that a body is described with alike;
* `nullable_payload_alike` — parameters inside an extractor, with and without null.
-/

namespace RouteDoc

namespace TypeExpr

variable {t : TypeExpr} {types : List TypeExpr}

/-! ### Unions as they are written -/

theorem mem_of_mem_distinct (h : t ∈ distinct types) : t ∈ types := by
  induction types with
  | nil => cases h
  | cons u types ih =>
    rw [distinct, List.mem_cons] at h
    rcases h with rfl | h
    · exact List.mem_cons_self
    · -- the first type takes out those that agree with it
      exact List.mem_cons_of_mem _ (ih (List.mem_filter.1 h).1)

theorem pairwise_distinct (types : List TypeExpr) : (distinct types).Pairwise fun t u => t.same u = false := by
  induction types with
  | nil => exact List.Pairwise.nil
  | cons t types ih =>
    rw [distinct]
    refine List.pairwise_cons.2 ⟨fun u hu => ?_, ih.filter _⟩
    simpa using (List.mem_filter.1 hu).2

theorem distinct_of_pairwise (h : types.Pairwise fun t u => t.same u = false) : distinct types = types := by
  induction types with
  | nil => rfl
  | cons t types ih =>
    obtain ⟨hhead, htail⟩ := List.pairwise_cons.1 h
    rw [distinct, ih htail, List.filter_eq_self.2]
    intro u hu
    simpa using hhead u hu

theorem unionMembers_of_not_isUnion (h : t.isUnion = false) : t.unionMembers = [t] := by
  cases t with
  | unionOf members => cases h
  | _ => rfl

theorem union_of_distinct_eq (h : distinct (types.flatMap unionMembers) = [t]) : union types = t := by
  rw [union, h]

theorem union_of_distinct_ne (h : ∀ t, distinct (types.flatMap unionMembers) ≠ [t]) :
    union types = unionOf (distinct (types.flatMap unionMembers)) := by
  unfold union
  split
  · next t hone => exact absurd hone (h t)
  · rfl

theorem flatMap_unionMembers_unionOf (members : List TypeExpr) : [unionOf members].flatMap unionMembers = members :=
  List.append_nil members

/-- **What is written as a union is written**, as long as no union is a member of a union. -/
theorem union_union (hmembers : ∀ t ∈ types, ∀ u ∈ t.unionMembers, u.isUnion = false) :
    union [union types] = union types := by
  by_cases h : ∃ t, distinct (types.flatMap unionMembers) = [t]
  · obtain ⟨t, hone⟩ := h
    have hin : t ∈ types.flatMap unionMembers := mem_of_mem_distinct (by rw [hone]; exact List.mem_singleton_self t)
    obtain ⟨u, hu, ht⟩ := List.mem_flatMap.1 hin
    rw [union_of_distinct_eq hone]
    apply union_of_distinct_eq
    rw [List.flatMap_cons, unionMembers_of_not_isUnion (hmembers u hu t ht)]
    rfl
  · have hmany : ∀ t, distinct (types.flatMap unionMembers) ≠ [t] := fun t ht => h ⟨t, ht⟩
    have hagain : distinct ([unionOf (distinct (types.flatMap unionMembers))].flatMap unionMembers)
        = distinct (types.flatMap unionMembers) := by
      rw [flatMap_unionMembers_unionOf, distinct_of_pairwise (pairwise_distinct _)]
    rw [union_of_distinct_ne hmany, union_of_distinct_ne (by rwa [hagain]), hagain]

/-- A written union has no repetitions, and never a single member. -/
theorem of_union_unionOf {members : List TypeExpr} (hwritten : union [unionOf members] = unionOf members) :
    distinct members = members ∧ ∀ t, members ≠ [t] := by
  by_cases h : ∃ t, distinct members = [t]
  · obtain ⟨t, hone⟩ := h
    rw [union_of_distinct_eq (t := t) (by rwa [flatMap_unionMembers_unionOf])] at hwritten
    -- the single member would be larger than itself
    have hin : t ∈ members := mem_of_mem_distinct (by rw [hone]; exact List.mem_singleton_self t)
    have hsize := List.sizeOf_lt_of_mem hin
    rw [hwritten, unionOf.sizeOf_spec] at hsize
    omega
  · have hmany : ∀ t, distinct members ≠ [t] := fun t ht => h ⟨t, ht⟩
    rw [union_of_distinct_ne (by rwa [flatMap_unionMembers_unionOf]), flatMap_unionMembers_unionOf] at hwritten
    have heq : distinct members = members := unionOf.inj hwritten
    exact ⟨heq, by rwa [heq] at hmany⟩

/-! ### Adding null and taking it away -/

theorem stripOptional_of_not_isNullable (h : t.isNullable = false) : t.stripOptional = t := by
  unfold isNullable at h
  unfold stripOptional
  split
  · next member hm =>
    rw [hm] at h
    cases h
  · rfl

theorem same_nullType (h : t.isNullMarker = false) : t.same nullType = false := by
  cases t with
  | nullType => cases h
  | _ => simp [same]

/-- Null added to types none of which is a null marker. -/
theorem distinct_append_nullType {members : List TypeExpr} (hdistinct : distinct members = members)
    (hmarkers : ∀ t ∈ members, t.isNullMarker = false) :
    distinct (members ++ [nullType]) = members ++ [nullType] := by
  apply distinct_of_pairwise
  refine List.pairwise_append.2 ⟨?_, List.pairwise_singleton _ _, fun t ht u hu => ?_⟩
  · rw [← hdistinct]
    exact pairwise_distinct members
  · rw [List.mem_singleton.1 hu]
    exact same_nullType (hmarkers t ht)

/-- What is left when null is taken away from a union with null. -/
theorem members?_append_nullType {members : List TypeExpr} (hmarkers : ∀ t ∈ members, t.isNullMarker = false) :
    (unionOf (members ++ [nullType])).members? = some (true, members) := by
  have hfilter : (members ++ [nullType]).filter (!·.isNullMarker) = members := by
    rw [List.filter_append, List.filter_eq_self.2 fun t ht => by simp [hmarkers t ht]]
    exact List.append_nil members
  have hany : (members ++ [nullType]).any isNullMarker = true := by
    rw [List.any_append]
    exact Bool.or_true _
  rw [members?, show (unionOf (members ++ [nullType])).stripWrappers = unionOf (members ++ [nullType]) from rfl]
  dsimp only
  rw [hany, hfilter]

/-- **Null added to a type that is no union is looked through again.** -/
theorem stripOptional_optional (hunion : t.isUnion = false) (hmarker : t.isNullMarker = false) :
    t.optional.stripOptional = t := by
  have hmarkers : ∀ u ∈ [t], u.isNullMarker = false := by simpa using hmarker
  have hmembers : [t, nullType].flatMap unionMembers = [t] ++ [nullType] := by
    rw [List.flatMap_cons, unionMembers_of_not_isUnion hunion]
    rfl
  have hdistinct : distinct ([t, nullType].flatMap unionMembers) = [t] ++ [nullType] := by
    rw [hmembers]
    exact distinct_append_nullType rfl hmarkers
  have hoptional : t.optional = unionOf ([t] ++ [nullType]) := by
    rw [optional, union_of_distinct_ne (by rw [hdistinct]; simp), hdistinct]
  rw [hoptional, stripOptional, members?_append_nullType hmarkers]

/-- **Null added to a written union of several types stays among them.** -/
theorem isUnion_stripOptional_optional (hwritten : union [t] = t) (hunion : t.isUnion = true)
    (hnullable : t.isNullable = false) :
    t.optional.stripOptional.isUnion = true ∨ t.optional.stripOptional = nullType := by
  cases t with
  | unionOf members =>
    obtain ⟨hdistinct, hmany⟩ := of_union_unionOf hwritten
    have hmarkers : ∀ u ∈ members, u.isNullMarker = false := by
      have hany : members.any isNullMarker = false := hnullable
      simpa using hany
    have hall : distinct ([unionOf members, nullType].flatMap unionMembers) = members ++ [nullType] :=
      distinct_append_nullType hdistinct hmarkers
    cases members with
    | nil =>
      right
      rw [optional, union_of_distinct_eq hall]
      rfl
    | cons u members =>
      left
      have hoptional : (unionOf (u :: members)).optional = unionOf (u :: members ++ [nullType]) := by
        rw [optional, union_of_distinct_ne (by rw [hall]; simp), hall]
      rw [hoptional, stripOptional, members?_append_nullType hmarkers]
      cases members with
      | nil => exact absurd rfl (hmany u)
      | cons v members => rfl
  | _ => cases hunion

end TypeExpr

namespace Declarations

variable {env : Declarations} {t : TypeExpr}

theorem tag_of_isUnion_self (h : t.isUnion = true) : env.tag t = .union := by
  cases t with
  | unionOf members => rfl
  | _ => cases h

/-- Nothing is known of the type by which a payload is described. -/
structure IsOpaque (env : Declarations) (t : TypeExpr) : Prop where
  isStruct : env.isStruct t = false
  word : env.typeNameOf t = .string

theorem isOpaque_of_isUnion (h : t.isUnion = true) : env.IsOpaque t := by
  have htag : env.tag t = .union := tag_of_isUnion_self h
  constructor
  · rw [isStruct, htag]
    rfl
  · rw [typeNameOf, htag]

/-- **A payload that may be null**, with null taken away, is the payload, or nothing is known of either. -/
theorem payload_optional (hwritten : TypeExpr.union [t] = t) (hnullable : t.isNullable = false)
    (hmarker : t.isNullMarker = false) :
    t.optional.stripOptional = t.stripOptional ∨
      env.IsOpaque t.optional.stripOptional ∧ env.IsOpaque t.stripOptional := by
  rw [TypeExpr.stripOptional_of_not_isNullable hnullable]
  cases hunion : t.isUnion with
  | false => exact .inl (TypeExpr.stripOptional_optional hunion hmarker)
  | true =>
    right
    refine ⟨?_, isOpaque_of_isUnion hunion⟩
    rcases TypeExpr.isUnion_stripOptional_optional hwritten hunion hnullable with h | h
    · exact isOpaque_of_isUnion h
    · rw [h]
      exact ⟨rfl, rfl⟩

end Declarations

/-! ### Parameters that a body is described with alike -/

/-- A body is described with one parameter as with another: both are required or not, sent in one encoding, and
have the same payload, as far as it is described. -/
structure SentAlike (types : Declarations) (p q : Param) : Prop where
  required : q.required = p.required
  family : types.bodyKind q.type = types.bodyKind p.type
  payload : Content.payload types q = Content.payload types p ∨
    types.IsOpaque (Content.payload types q) ∧ types.IsOpaque (Content.payload types p)

namespace SentAlike

variable {types : Declarations} {p q : Param}

theorem refl (p : Param) : SentAlike types p p := ⟨rfl, rfl, .inl rfl⟩

theorem isStruct (h : SentAlike types p q) :
    types.isStruct (Content.payload types q) = types.isStruct (Content.payload types p) := by
  rcases h.payload with h | ⟨hq, hp⟩
  · rw [h]
  · rw [hq.isStruct, hp.isStruct]

theorem word (h : SentAlike types p q) :
    types.typeNameOf (Content.payload types q) = types.typeNameOf (Content.payload types p) := by
  rcases h.payload with h | ⟨hq, hp⟩
  · rw [h]
  · rw [hq.word, hp.word]

/-- Structured payloads are the same. -/
theorem eq_of_isStruct (h : SentAlike types p q) (hstruct : types.isStruct (Content.payload types p) = true) :
    Content.payload types q = Content.payload types p := by
  rcases h.payload with h | ⟨-, hp⟩
  · exact h
  · rw [hp.isStruct] at hstruct
    cases hstruct

end SentAlike

namespace Content

variable {types : Declarations} {ps qs : List Param}

theorem add_congr {p q : Param} (h : SentAlike types p q) (t : Tally) : t.add types q = t.add types p := by
  rw [Tally.add, Tally.add, h.isStruct, h.word]
  cases hstruct : types.isStruct (payload types p) with
  | true => rw [h.eq_of_isStruct hstruct]
  | false => rfl

theorem tallyStep_congr {p q : Param} (h : SentAlike types p q) (tallies : BodyKind → Tally) :
    tallyStep types tallies q = tallyStep types tallies p := by
  unfold tallyStep
  rw [h.family]
  cases types.bodyKind p.type with
  | error d => rfl
  | ok kind =>
    dsimp only
    rw [add_congr h]

theorem foldl_tallyStep_congr (h : List.Forall₂ (SentAlike types) ps qs) (tallies : BodyKind → Tally) :
    qs.foldl (tallyStep types) tallies = ps.foldl (tallyStep types) tallies := by
  induction h generalizing tallies with
  | nil => rfl
  | cons hpq _ ih => rw [List.foldl_cons, List.foldl_cons, tallyStep_congr hpq, ih]

/-- Parameters that are sent alike have the same content map. -/
theorem entries_congr (h : List.Forall₂ (SentAlike types) ps qs) : entries types qs = entries types ps := by
  rw [← entriesOf_tally, ← entriesOf_tally, tally, tally, foldl_tallyStep_congr h]

theorem findSome?_obstacle?_congr (h : List.Forall₂ (SentAlike types) ps qs) :
    qs.findSome? (obstacle? types) = ps.findSome? (obstacle? types) := by
  induction h with
  | nil => rfl
  | @cons p q ps qs hpq _ ih =>
    have hobstacle : obstacle? types q = obstacle? types p := by rw [obstacle?, obstacle?, hpq.family]
    rw [List.findSome?_cons, List.findSome?_cons, hobstacle, ih]

theorem content_congr (h : List.Forall₂ (SentAlike types) ps qs) : content types qs = content types ps := by
  rw [content, content, findSome?_obstacle?_congr h, entries_congr h]

end Content

namespace Scope

variable {scope : Scope} {ps qs : List Param}

/-- Parameters that are sent alike register the same types. -/
theorem convertBodies_congr (h : List.Forall₂ (SentAlike scope.types) ps qs) :
    scope.convertBodies qs = scope.convertBodies ps := by
  induction h with
  | nil => rfl
  | @cons p q ps qs hpq _ ih =>
    rw [convertBodies, convertBodies]
    dsimp only
    rw [hpq.isStruct, ih]
    cases hstruct : scope.types.isStruct (Content.payload scope.types p) with
    | true => rw [hpq.eq_of_isStruct hstruct]
    | false => simp only [Bool.false_eq_true, if_false]

theorem any_required_congr {types : Declarations} (h : List.Forall₂ (SentAlike types) ps qs) :
    qs.any (·.required) = ps.any (·.required) := by
  induction h with
  | nil => rfl
  | cons hpq _ ih => rw [List.any_cons, List.any_cons, hpq.required, ih]

theorem isEmpty_congr {types : Declarations} (h : List.Forall₂ (SentAlike types) ps qs) :
    qs.isEmpty = ps.isEmpty := by
  cases h <;> rfl

/-- **Routes whose bodies are sent alike are described alike**, from every registry. -/
theorem operation_congr (route : Route) (h : List.Forall₂ (SentAlike scope.types) route.bodyParams qs) :
    scope.operation { route with bodyParams := qs } = scope.operation route := by
  funext tags
  have hbody : requestBody { route with bodyParams := qs } = requestBody route := by
    funext content
    unfold requestBody
    dsimp only
    rw [isEmpty_congr h, any_required_congr h]
  unfold operation
  rw [hbody]
  dsimp only
  rw [convertBodies_congr h, Content.content_congr h]

end Scope

namespace Documentation

variable {scope : Scope} {route : Route} {qs : List Param}

/-- The tags of a route do not depend on its body. -/
theorem routeTags_body (d : Documentation) : d.routeTags { route with bodyParams := qs } = d.routeTags route := rfl

/-- Where an operation is published does not depend on the body of its route. -/
theorem publish_body (known : Registry) (o : Operation) :
    publish known { route with bodyParams := qs } o = publish known route o := rfl

/-- Routes that are described alike are documented alike. -/
theorem register_congr (h : List.Forall₂ (SentAlike scope.types) route.bodyParams qs) :
    register scope { route with bodyParams := qs } = register scope route := by
  have hdescribe : describe scope { route with bodyParams := qs } = describe scope route := by
    unfold describe
    simp only [routeTags_body, Scope.operation_congr route h]
  rw [register_eq, register_eq, hdescribe]
  simp only [publish_body]

end Documentation

/-! ### Parameters inside an extractor -/

namespace Scope

variable {scope : Scope} {t : TypeExpr} {e : Extractor} {p : Param}

/-- A body parameter is sent alike with a payload that may be null. -/
theorem sentAlike_optional (hwritten : TypeExpr.union [t] = t) (hnullable : t.isNullable = false)
    (hmarker : t.isNullMarker = false) (hp : p.type = .extractor e (some t)) :
    SentAlike scope.types p { p with type := .extractor e (some t.optional) } := by
  constructor
  case required => rfl
  case family =>
    rw [hp]
    rfl
  case payload =>
    rw [Content.payload, Content.payload, hp, Declarations.extractType_extractor, Declarations.extractType_extractor]
    exact Declarations.payload_optional hwritten hnullable hmarker

/-- A structured parameter stands for the same fields when it may be null. -/
theorem candidates_optional (hstruct : scope.types.isStruct t = true) (hnullable : t.isNullable = false)
    (hmarker : t.isNullMarker = false) (hrequest : e.isRequest = true) (hp : p.type = .extractor e (some t))
    (turn : Nat) :
    scope.candidates turn { p with type := .extractor e (some t.optional) } = scope.candidates turn p := by
  have hunion : t.isUnion = false := by
    cases h : t.isUnion with
    | false => rfl
    | true =>
      rw [(Declarations.isOpaque_of_isUnion h).isStruct] at hstruct
      cases hstruct
  have hgathered : ∀ u, scope.types.isRequestParam (.extractor e (some u)) = true := fun _ => by
    rw [Declarations.isRequestParam_extractor, hrequest]
  unfold candidates
  dsimp only
  rw [hp, Declarations.extractType_extractor, Declarations.extractType_extractor,
    TypeExpr.stripOptional_optional hunion hmarker, TypeExpr.stripOptional_of_not_isNullable hnullable, hgathered, hgathered,
    hstruct]
  rfl

theorem entries_optional (location : Location) (hstruct : scope.types.isStruct t = true)
    (hnullable : t.isNullable = false) (hmarker : t.isNullMarker = false) (hrequest : e.isRequest = true)
    (hp : p.type = .extractor e (some t)) (turn : Nat) :
    scope.entries location turn { p with type := .extractor e (some t.optional) } = scope.entries location turn p := by
  rw [entries, entries, candidates_optional hstruct hnullable hmarker hrequest hp]

/-- One parameter among others is listed by its entries. -/
theorem entriesAll_congr {location : Location} {q : Param}
    (h : ∀ turn, scope.entries location turn q = scope.entries location turn p) (before after : List Param)
    (start : Nat) :
    scope.entriesAll location ((before ++ q :: after).zipIdx start)
      = scope.entriesAll location ((before ++ p :: after).zipIdx start) := by
  induction before generalizing start with
  | nil => rw [List.nil_append, List.nil_append, List.zipIdx_cons, List.zipIdx_cons, entriesAll, entriesAll, h]
  | cons first before ih =>
    rw [List.cons_append, List.cons_append, List.zipIdx_cons, List.zipIdx_cons, entriesAll, entriesAll, ih]

/-- **Nullable payloads are documented like the payload.**  The type is one that is written, no nullable union and no
null marker.  A body parameter that reads it with an extractor, as part of any route, can read it or null instead:
the content map, the description of the route with all that is registered for it, and the documentation that the
route leads to stay as they are.  Where the type is structured, a request parameter that gathers it can gather it or
null: the entries, and what is registered for them, stay as they are. -/
theorem nullable_payload_alike (scope : Scope) (t : TypeExpr) (hwritten : TypeExpr.union [t] = t)
    (hnullable : t.isNullable = false) (hmarker : t.isNullMarker = false) :
    (∀ (route : Route) (before after : List Param) (p : Param) (e : Extractor),
        route.bodyParams = before ++ p :: after → p.type = .extractor e (some t) →
        let widened := { route with
          bodyParams := before ++ { p with type := .extractor e (some t.optional) } :: after }
        Content.entries scope.types widened.bodyParams = Content.entries scope.types route.bodyParams ∧
          scope.operation widened = scope.operation route ∧
          Documentation.register scope widened = Documentation.register scope route) ∧
      (scope.types.isStruct t = true →
        ∀ (location : Location) (before after : List Param) (p : Param) (e : Extractor),
          e.isRequest = true → p.type = .extractor e (some t) →
          let widened := { p with type := .extractor e (some t.optional) }
          (∀ turn, scope.entries location turn widened = scope.entries location turn p) ∧
            ∀ start, scope.entriesAll location ((before ++ widened :: after).zipIdx start)
              = scope.entriesAll location ((before ++ p :: after).zipIdx start)) := by
  constructor
  · intro route before after p e hroute hp widened
    have halike : List.Forall₂ (SentAlike scope.types) route.bodyParams widened.bodyParams := by
      rw [hroute]
      refine List.rel_append (List.forall₂_same.2 fun q _ => .refl q) ?_
      exact .cons (sentAlike_optional hwritten hnullable hmarker hp) (List.forall₂_same.2 fun q _ => .refl q)
    exact ⟨Content.entries_congr halike, operation_congr route halike, Documentation.register_congr halike⟩
  · intro hstruct location before after p e hrequest hp widened
    have hentries : ∀ turn, scope.entries location turn widened = scope.entries location turn p :=
      entries_optional location hstruct hnullable hmarker hrequest hp
    exact ⟨hentries, entriesAll_congr hentries before after⟩

/-- A scope with pets. -/
def pets : Scope := ⟨Content.petTypes, 2024, 0⟩

/-- A route to which a number or a text is sent with a pet. -/
def sendingPets (t : TypeExpr) : Route :=
  ⟨"/pets", "POST", [], [], [],
    [Content.sent "pet" (.declared "Pet"), Content.sent "tag" (.extractor .body (some t))], [], []⟩

/-- A tag that is a number or a text, or null; and a pet, or null, that is gathered from the query. -/
theorem nullable_pets_alike :
    let tag := TypeExpr.unionOf [.builtin .int, .builtin .str]
    let pet := TypeExpr.declared "Pet"
    (TypeExpr.union [tag] = tag ∧ tag.isNullable = false ∧ tag.isNullMarker = false) ∧
      Documentation.register pets (sendingPets tag.optional) = Documentation.register pets (sendingPets tag) ∧
      (TypeExpr.union [pet] = pet ∧ pet.isNullable = false ∧ pet.isNullMarker = false ∧
        pets.types.isStruct pet = true) ∧
      pets.entries .query 0 (Content.sent "pet" (.extractor .query (some pet.optional)))
        = pets.entries .query 0 (Content.sent "pet" (.extractor .query (some pet))) := by
  intro tag pet
  have htag : TypeExpr.union [tag] = tag := by
    have hwritten : TypeExpr.union [.builtin .int, .builtin .str] = tag := by
      simp [tag, TypeExpr.union, TypeExpr.distinct, TypeExpr.unionMembers, TypeExpr.same]
    rw [← hwritten]
    exact TypeExpr.union_union (by simp [TypeExpr.unionMembers, TypeExpr.isUnion])
  have hstruct : pets.types.isStruct pet = true := by decide
  obtain ⟨hbody, -⟩ := nullable_payload_alike pets tag htag rfl rfl
  obtain ⟨-, hgathered⟩ := nullable_payload_alike pets pet rfl rfl rfl
  refine ⟨⟨htag, rfl, rfl⟩, ?_, ⟨rfl, rfl, rfl, hstruct⟩, ?_⟩
  · exact (hbody (sendingPets tag) [Content.sent "pet" (.declared "Pet")] []
      (Content.sent "tag" (.extractor .body (some tag))) .body rfl rfl).2.2
  · exact (hgathered hstruct .query [] [] (Content.sent "pet" (.extractor .query (some pet))) .query rfl rfl).1 0

end Scope

end RouteDoc
