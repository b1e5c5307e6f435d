import RouteDoc.Proofs.Merging
import RouteDoc.Proofs.Operations
import RouteDoc.Proofs.Reachability

/-!
# References in documents

A reference is the value under `$ref` at a place where a schema stands: in a parameter, in the content of a
body or a response, among the components, and below these in properties, items and lists of alternatives.
What stands in a default or among admitted values is no schema, whatever its keys are.

* `Position`, `RefersAt` — the places of a document, and the references below them;
* `Resolves` — every reference below a place names one of some components;
* `Resolves.overlay` — an override with resolved references keeps references resolved;
* `Schema.resolves`, `Component.resolves`, `Operation.resolves` — what the parts of a document refer to.
-/

namespace RouteDoc

/-! ### Places -/

/-- What a value stands for in a document, by its place. -/
inductive Position where
  | document | components | paths | pathItem | operation
  | parameterList | parameter
  | responseMap
  /-- A response or the body of a request. -/
  | body
  | contentMap | media
  | schemaMap | schemaList | schema | reference
  deriving DecidableEq, Repr

namespace Position

/-- The place under a key of a mapping, if references can stand below it. -/
def child? : Position → String → Option Position
  | document, "components" => some components
  | document, "paths" => some paths
  | components, "schemas" => some schemaMap
  | paths, _ => some pathItem
  | pathItem, _ => some operation
  | operation, "parameters" => some parameterList
  | operation, "requestBody" => some body
  | operation, "responses" => some responseMap
  | parameter, "schema" => some schema
  | responseMap, _ => some body
  | body, "content" => some contentMap
  | contentMap, _ => some media
  | media, "schema" => some schema
  | schemaMap, _ => some schema
  | schema, "properties" => some schemaMap
  | schema, "items" => some schema
  | schema, "allOf" => some schemaList
  | schema, "anyOf" => some schemaList
  | schema, "$ref" => some reference
  | _, _ => none

/-- The place of every item of a list, if references can stand below it. -/
def item? : Position → Option Position
  | parameterList => some parameter
  | schemaList => some schema
  | _ => none

end Position

/-- Below a value that stands at a place there is a reference with the given value. -/
inductive RefersAt : Position → Value → Value → Prop
  | here {v : Value} : RefersAt .reference v v
  | entry {p q : Position} {es : Entries} {k : Key} {key : String} {v r : Value} :
      (k, v) ∈ es → k.text? = some key → p.child? key = some q → RefersAt q v r → RefersAt p (.map es) r
  | item {p q : Position} {vs : List Value} {v r : Value} :
      v ∈ vs → p.item? = some q → RefersAt q v r → RefersAt p (.list vs) r

/-- Every reference below the value names one of the components. -/
def Resolves (names : List String) (p : Position) (v : Value) : Prop :=
  ∀ r, RefersAt p v r → ∃ n ∈ names, r = .str (componentPlace n)

/-- Every reference below the members of a mapping names one of the components. -/
def ResolvesAll (names : List String) (p : Position) (members : List (String × Value)) : Prop :=
  ∀ m ∈ members, ∀ q, p.child? m.1 = some q → Resolves names q m.2

variable {names names' : List String} {p q : Position} {v w : Value} {es os : Entries}
  {members members' : List (String × Value)}

namespace Resolves

theorem mono (h : Resolves names p v) (hsub : names ⊆ names') : Resolves names' p v := by
  intro r hr
  obtain ⟨n, hn, rfl⟩ := h r hr
  exact ⟨n, hsub hn, rfl⟩

theorem map (hp : p ≠ .reference)
    (h : ∀ k v, (k, v) ∈ es → ∀ key, k.text? = some key → ∀ q, p.child? key = some q → Resolves names q v) :
    Resolves names p (.map es) := by
  intro r hr
  cases hr with
  | here => exact absurd rfl hp
  | entry hin ht hq hr => exact h _ _ hin _ ht _ hq r hr

theorem of_map (h : Resolves names p (.map es)) {k : Key} {v : Value} (hin : (k, v) ∈ es) {key : String}
    (ht : k.text? = some key) (hq : p.child? key = some q) : Resolves names q v :=
  fun r hr => h r (.entry hin ht hq hr)

theorem list {vs : List Value} (hp : p ≠ .reference)
    (h : ∀ v ∈ vs, ∀ q, p.item? = some q → Resolves names q v) : Resolves names p (.list vs) := by
  intro r hr
  cases hr with
  | here => exact absurd rfl hp
  | item hin hq hr => exact h _ hin _ hq r hr

theorem reference {n : String} (h : n ∈ names) : Resolves names .reference (.str (componentPlace n)) := by
  intro r hr
  cases hr
  exact ⟨n, h, rfl⟩

theorem object (hp : p ≠ .reference) (h : ResolvesAll names p members) :
    Resolves names p (.object members) := by
  refine map hp fun k v hin key ht q hq => ?_
  obtain ⟨m, hm, heq⟩ := List.mem_map.1 hin
  cases heq
  cases ht
  exact h m hm q hq

/-! ### Overrides -/

/-- A reference that resolves is no mapping. -/
theorem ne_reference (h : Resolves names p (.map es)) : p ≠ .reference := by
  rintro rfl
  obtain ⟨n, -, hn⟩ := h _ .here
  cases hn

mutual

/-- **Overrides keep references resolved.** -/
theorem overlay (p : Position) (existing : Option Value) (v : Value)
    (hbase : ∀ w, existing = some w → Resolves names p w) (hv : Resolves names p v) :
    Resolves names p (Value.over existing v) := by
  rcases Value.over_cases existing v with h | ⟨base, os, rfl, rfl⟩
  · rwa [h]
  · rw [Value.over]
    exact merge p base os (hbase _ rfl) hv
  termination_by sizeOf v

theorem merge (p : Position) (base os : Entries) (hbase : Resolves names p (.map base))
    (hos : Resolves names p (.map os)) : Resolves names p (.map (Entries.merge base os)) := by
  match os with
  | [] => rwa [Entries.merge]
  | (k, v) :: rest =>
    rw [Entries.merge]
    have hrest : Resolves names p (.map rest) :=
      map hos.ne_reference fun l w hin key ht q hq => hos.of_map (List.mem_cons_of_mem _ hin) ht hq
    refine merge p _ rest (map hbase.ne_reference fun l w hin key ht q hq => ?_) hrest
    rcases Entries.mem_set hin with hin | ⟨htext, rfl⟩
    · exact hbase.of_map hin ht hq
    · -- the value stored under the key is laid over the one that stood there, at the same place
      refine overlay q (base.get? k) v (fun w hw => ?_) (hos.of_map List.mem_cons_self (htext ▸ ht) hq)
      obtain ⟨l', hin', ht'⟩ := Entries.exists_mem_of_get? hw
      exact hbase.of_map hin' (ht'.trans (htext ▸ ht)) hq
  termination_by sizeOf os

end

end Resolves

/-! ### Members -/

@[simp] theorem resolvesAll_nil : ResolvesAll names p [] := by simp [ResolvesAll]

@[simp] theorem resolvesAll_cons {k : String} : ResolvesAll names p ((k, v) :: members) ↔
    (∀ q, p.child? k = some q → Resolves names q v) ∧ ResolvesAll names p members := by
  simp [ResolvesAll]

@[simp] theorem resolvesAll_append : ResolvesAll names p (members ++ members') ↔
    ResolvesAll names p members ∧ ResolvesAll names p members' := by
  simp [ResolvesAll, or_imp, forall_and]

/-- A member that is left out at times, under a key that is no place for references. -/
theorem resolvesAll_optional {α : Type} {k : String} (o : Option α) (value : α → Value) (h : p.child? k = none) :
    ResolvesAll names p (o.map fun x => (k, value x)).toList := by
  cases o <;> simp [h]

theorem resolvesAll_sampleMembers (sample : Option String) (hexample : p.child? "example" = none)
    (hdescription : p.child? "description" = none) : ResolvesAll names p (sampleMembers sample) := by
  cases sample <;> simp [sampleMembers, hexample, hdescription]

theorem resolvesAll_nullableMember (nullable : Bool) (h : p.child? "nullable" = none) :
    ResolvesAll names p (nullableMember nullable) := by
  cases nullable <;> simp [nullableMember, h]

/-! ### Schemas and components -/

-- from here on every place and key is a concrete one
attribute [simp] Position.child?

theorem Schema.resolvesAll_members (s : Schema) (h : ∀ n ∈ s.components, n ∈ names) :
    ResolvesAll names .schema s.members := by
  induction s with
  | reference nullable component =>
    have hc : Resolves names .reference (.str (componentPlace component)) :=
      .reference (h component (by simp [components]))
    simpa [members, resolvesAll_nullableMember] using hc
  | array nullable items ih =>
    have hitems : Resolves names .schema (.object items.members) := .object (by decide) (ih h)
    simpa [members, resolvesAll_nullableMember] using hitems
  | simple nullable word format choices sample =>
    simp only [members, resolvesAll_append, resolvesAll_cons, resolvesAll_nil, and_true]
    exact ⟨⟨⟨⟨resolvesAll_nullableMember _ rfl, by simp⟩, resolvesAll_optional _ _ rfl⟩,
      resolvesAll_optional _ _ rfl⟩, resolvesAll_sampleMembers _ rfl rfl⟩

theorem Schema.resolves (s : Schema) (h : ∀ n ∈ s.components, n ∈ names) : Resolves names .schema s.toValue :=
  .object (by decide) (s.resolvesAll_members h)

/-- What stands in the default of a property is no reference. -/
theorem Property.resolves (p : Property) (h : ∀ n ∈ p.schema.components, n ∈ names) :
    Resolves names .schema p.toValue := by
  refine .object (by decide) ?_
  rw [members, resolvesAll_append]
  exact ⟨p.schema.resolvesAll_members h, resolvesAll_optional _ _ rfl⟩

/-- A mapping from names to schemas. -/
theorem resolves_schemaMap {α : Type} (entries : List (String × α)) (value : α → Value)
    (h : ∀ e ∈ entries, Resolves names .schema (value e.2)) :
    Resolves names .schemaMap (.object (entries.map fun (n, x) => (n, value x))) := by
  refine .object (by decide) fun m hm q hq => ?_
  obtain ⟨e, he, rfl⟩ := List.mem_map.1 hm
  cases hq
  exact h e he

theorem Component.resolves (c : Component)
    (h : ∀ e ∈ c.properties, ∀ n ∈ e.2.schema.components, n ∈ names) : Resolves names .schema c.toValue := by
  refine .object (by decide) ?_
  have hproperties := resolves_schemaMap c.properties Property.toValue fun e he => e.2.resolves (h e he)
  have hrequired : ResolvesAll names .schema
      (if c.required.isEmpty then [] else [("required", .list (c.required.map Value.str))]) := by
    split <;> simp
  simpa [hproperties] using hrequired

/-- A list of alternatives, or of schemas that are combined. -/
theorem resolves_schemaList {α : Type} (items : List α) (value : α → Value)
    (h : ∀ x ∈ items, Resolves names .schema (value x)) :
    Resolves names .schemaList (.list (items.map value)) := by
  refine .list (by decide) fun v hv q hq => ?_
  obtain ⟨x, hx, rfl⟩ := List.mem_map.1 hv
  cases hq
  exact h x hx

/-! ### Operations -/

theorem RequestParameter.resolves (p : RequestParameter) (h : ∀ n ∈ p.schema.schema.components, n ∈ names) :
    Resolves names .parameter p.toValue := by
  refine .object (by decide) ?_
  have hschema : Resolves names .schema p.schema.toValue := p.schema.resolves h
  simpa [members, hschema] using resolvesAll_sampleMembers p.sample rfl rfl

/-- A schema in the content of a body. -/
theorem resolves_media (h : Resolves names .schema v) : Resolves names .media (.object [("schema", v)]) :=
  .object (by decide) (by simpa using h)

theorem Encoding.resolves (e : Encoding) (h : ∀ n ∈ e.components, n ∈ names) :
    Resolves names .schema (Content.encodingValue e) := by
  refine .object (by decide) ?_
  have hcombined : Resolves names .schemaList
      (.list (e.components.map fun name => .object [("$ref", .str (componentPlace name))])) :=
    resolves_schemaList e.components _ fun n hn =>
      Schema.resolves (.reference false n) (by simpa [Schema.components] using h n hn)
  simpa using hcombined

theorem Content.resolves (types : Declarations) (ps : List Param)
    (h : ∀ e ∈ encodings types ps, ∀ n ∈ e.components, n ∈ names) :
    Resolves names .contentMap (.object (entries types ps)) := by
  have hown : ResolvesAll names .contentMap
      ((encodings types ps).map fun e => mediaEntry e.kind.mediaType (encodingValue e)) := by
    intro m hm q hq
    obtain ⟨e, he, rfl⟩ := List.mem_map.1 hm
    cases hq
    exact resolves_media (e.resolves (h e he))
  have hfile : Resolves names .schema (.object [("type", .str "string"), ("format", .str "binary")]) :=
    .object (by decide) (by simp)
  have hupload : Resolves names .schemaMap
      (.object [("file", .object [("type", .str "string"), ("format", .str "binary")])]) :=
    .object (by decide) (by simpa using hfile)
  have halways : ResolvesAll names .contentMap always := by
    simp only [always, mediaEntry, resolvesAll_cons, resolvesAll_nil, and_true, Position.child?,
      Option.some.injEq, forall_eq']
    exact ⟨resolves_media (.object (by decide) (by simp)),
      resolves_media (.object (by decide) (by simpa using hupload))⟩
  exact .object (by decide) (resolvesAll_append.2 ⟨hown, halways⟩)

theorem Responses.resolves_schemaValue? {schemas : List Schema}
    (h : ∀ s ∈ schemas, ∀ n ∈ s.components, n ∈ names) (hv : schemaValue? schemas = some v) :
    Resolves names .schema v := by
  have hschemas : ∀ s ∈ schemas, Resolves names .schema s.toValue := fun s hs => s.resolves (h s hs)
  unfold schemaValue? at hv
  split at hv
  · cases hv
  · cases hv
    exact hschemas _ List.mem_cons_self
  · cases hv
    have hlist := resolves_schemaList schemas Schema.toValue hschemas
    exact .object (by decide) (by simpa using hlist)

theorem Responses.resolves (r : Responses) (h : ∀ s ∈ r.schemas, ∀ n ∈ s.components, n ∈ names) :
    Resolves names .responseMap r.toValue := by
  have hcontent : ResolvesAll names .body (contentMembers r.schemas) := by
    unfold contentMembers
    cases hv : schemaValue? r.schemas with
    | none => simp
    | some v =>
      have hmedia := resolves_media (resolves_schemaValue? h hv)
      have hmap : Resolves names .contentMap (.object [("application/json", .object [("schema", v)])]) :=
        .object (by decide) (by simpa using hmedia)
      simpa using hmap
  have hsuccess : Resolves names .body
      (.object ([("description", .str "200 response")] ++ contentMembers r.schemas)) :=
    .object (by decide) (by simpa using hcontent)
  have hfailure : Resolves names .body
      (.object [("description", .str "500 Server encountered a problem")]) :=
    .object (by decide) (by simp)
  refine .object (by decide) ?_
  simp only [resolvesAll_cons, resolvesAll_nil, and_true, Position.child?, Option.some.injEq, forall_eq']
  exact ⟨hsuccess, hfailure⟩

theorem RequestBody.resolves (b : RequestBody) (h : Resolves names .contentMap (.object b.content)) :
    Resolves names .body b.toValue :=
  .object (by decide) (by simpa using h)

theorem Operation.resolves (o : Operation)
    (hparameters : ∀ p ∈ o.parameters, ∀ n ∈ p.schema.schema.components, n ∈ names)
    (hresponses : ∀ s ∈ o.responses.schemas, ∀ n ∈ s.components, n ∈ names)
    (hbody : ∀ b, o.body = some b → Resolves names .contentMap (.object b.content)) :
    Resolves names .operation o.toValue := by
  have hlist : Resolves names .parameterList (.list (o.parameters.map RequestParameter.toValue)) := by
    refine .list (by decide) fun v hv q hq => ?_
    obtain ⟨p, hp, rfl⟩ := List.mem_map.1 hv
    cases hq
    exact p.resolves (hparameters p hp)
  have hmembers : ResolvesAll names .operation (o.body.map fun b => ("requestBody", b.toValue)).toList := by
    cases hb : o.body with
    | none => simp
    | some b => simpa using b.resolves (hbody b hb)
  refine .object (by decide) ?_
  simpa [hlist, o.responses.resolves hresponses] using hmembers

/-! ### What descriptions refer to -/

namespace Scope

variable {scope : Scope} {es : List Errand}

/-- All types that the errands ask for have one of the names. -/
def Covers (scope : Scope) (names : List String) (es : List Errand) : Prop :=
  ∀ u, .visit u ∈ es → scope.types.typeName u ∈ names

theorem Covers.subset {es' : List Errand} (h : scope.Covers names es) (hsub : es' ⊆ es) :
    scope.Covers names es' :=
  fun u hu => h u (hsub hu)

/-- A description names only types that it asks for. -/
theorem Covers.components {t : TypeExpr} {s : Schema} (h : scope.Covers names (scope.typeErrands t))
    (hs : scope.fragment t = some s) : ∀ n ∈ s.components, n ∈ names := by
  intro n hn
  unfold fragment at hs
  cases hd : scope.describe t with
  | error f => simp [hd] at hs
  | ok d =>
    simp only [hd] at hs
    rw [(describe_describes hd).components_eq s hs] at hn
    cases htarget : d.target with
    | none => simp [htarget] at hn
    | some u =>
      simp only [htarget, Option.map_some, Option.toList_some, List.mem_singleton] at hn
      subst hn
      exact h u (visit_mem_typeErrands.2 (((describe_describes hd).target_iff u).1 htarget))

/-- **The component of a type** refers only to types that its fields ask for. -/
theorem Covers.componentOf {t : TypeExpr} (h : scope.Covers names (scope.structErrands t)) :
    Resolves names .schema (scope.componentOf t).toValue := by
  refine Component.resolves _ fun e he n hn => ?_
  obtain ⟨p, hp, hprop⟩ := List.mem_filterMap.1 he
  obtain ⟨s, hs, rfl⟩ := Option.map_eq_some_iff.1 hprop
  refine Covers.components (t := p.type) (fun u hu => ?_) hs n hn
  exact h u (visit_mem_structErrands.2 ⟨p, hp, visit_mem_typeErrands.1 hu⟩)

theorem components_withoutSample (s : Schema) : s.withoutSample.components = s.components := by
  cases s <;> rfl

theorem components_entryOf (location : Location) (p : Param) (s : Schema) (default : Option Value) :
    (scope.entryOf location p s default).schema.schema.components = s.components := by
  dsimp only [entryOf]
  split
  · exact components_withoutSample s
  · rfl

theorem Covers.entriesFor {location : Location} {turn : Nat} {p : Param}
    (h : scope.Covers names (scope.paramErrands location turn p)) :
    ∀ r ∈ scope.entriesFor location turn p, ∀ n ∈ r.schema.schema.components, n ∈ names := by
  intro r hr n hn
  unfold Scope.entriesFor candidateList at hr
  unfold paramErrands at h
  cases hc : scope.candidates turn p with
  | error f => simp [hc] at hr
  | ok candidates =>
    simp only [hc] at h hr
    obtain ⟨c, hcin, hentry⟩ := List.mem_filterMap.1 hr
    obtain ⟨s, hs, rfl⟩ := Option.map_eq_some_iff.1 hentry
    have hc : scope.Covers names (scope.typeErrands (scope.types.extractType c.type)) :=
      h.subset fun e he => List.mem_flatMap.2 ⟨c, hcin, List.mem_append_left _ he⟩
    rw [components_entryOf] at hn
    exact hc.components hs n hn

theorem mem_of_mem_distinct {schemas : List Schema} {s : Schema} (h : s ∈ Responses.distinct schemas) :
    s ∈ schemas := by
  have hfold : ∀ (rest out : List Schema), s ∈ rest.foldl Responses.insertNew out → s ∈ out ∨ s ∈ rest := by
    intro rest
    induction rest with
    | nil => exact fun out h => .inl h
    | cons t rest ih =>
      intro out h
      rcases ih _ h with h | h
      · unfold Responses.insertNew at h
        split at h
        · exact .inl h
        · rcases List.mem_append.1 h with h | h
          · exact .inl h
          · exact .inr (List.mem_singleton.1 h ▸ List.mem_cons_self)
      · exact .inr (List.mem_cons_of_mem _ h)
  exact (hfold schemas [] h).resolve_left (by simp)

theorem Covers.encodings {ps : List Param} (h : scope.Covers names (ps.flatMap scope.bodyErrands)) :
    ∀ e ∈ Content.encodings scope.types ps, ∀ n ∈ e.components, n ∈ names := by
  intro e he n hn
  obtain ⟨kind, -, rfl⟩ := List.mem_map.1 (List.mem_filter.1 he).1
  obtain ⟨t, ht, rfl⟩ := List.mem_map.1 hn
  obtain ⟨ht, hstruct⟩ := List.mem_filter.1 ht
  obtain ⟨p, hp, rfl⟩ := List.mem_map.1 ht
  rw [← Declarations.typeName_unwrap]
  refine h _ (List.mem_flatMap.2 ⟨p, (List.mem_filter.1 hp).1, ?_⟩)
  simp [bodyErrands, hstruct]

/-- **The operation of a route** refers only to types that the route asks for. -/
theorem Covers.operationOf {route : Route} (h : scope.Covers names (scope.routeErrands route))
    (tags : List String) : Resolves names .operation (scope.operationOf route tags).toValue := by
  refine Operation.resolves _ (fun r hr => ?_) (fun s hs => ?_) (fun b hb => ?_)
  · obtain ⟨⟨location, p, turn⟩, hp, hr⟩ := List.mem_flatMap.1 hr
    have hparam : scope.Covers names (scope.paramErrands location turn p) := h.subset fun e he =>
      List.mem_append_left _ (List.mem_append_right _ (List.mem_flatMap.2 ⟨_, hp, he⟩))
    exact hparam.entriesFor r hr
  · obtain ⟨t, ht, hfragment⟩ := List.mem_filterMap.1 (mem_of_mem_distinct hs)
    refine Covers.components (t := t) (h.subset fun e he => ?_) hfragment
    exact List.mem_append_right _ (List.mem_append_right _ (List.mem_flatMap.2 ⟨t, ht, he⟩))
  · simp only [Scope.operationOf, requestBody] at hb
    split at hb
    · cases hb
      exact Content.resolves _ _ (Covers.encodings (h.subset fun e he =>
        List.mem_append_left _ (List.mem_append_left _ he)))
    · cases hb

end Scope

end RouteDoc
