import RouteDoc.Proofs.Atomicity
import RouteDoc.Proofs.Components
import RouteDoc.Proofs.Json.Printing
import RouteDoc.Proofs.Mirror
import RouteDoc.Proofs.Publication

/-!
# The shape of documents

Whatever is documented is keyed by texts and consists of what JSON knows: defaults and enumeration members are
brought into that shape, and schemas, components and operations are put together from texts.  So the document of
every run of calls has that shape, as long as every override has it.

* `Datum.textKeyed_toValue` — values in the shape of a document;
* `Scope.textKeyed_componentOf`, `Scope.textKeyed_operationOf` — components and operations;
* `Value.Regular` — the invariant: the shape, and a mapping under every path;
* `Documentation.regular_after`, `Documentation.regular_afterCalls` — what one call and a run preserve.
-/

namespace RouteDoc

open Value

/-! ### Defaults and enumeration members -/

/-- The value is keyed by texts and consists of what JSON knows. -/
abbrev Shaped (v : Value) : Prop := v.TextKeyed Scalar.IsJson

namespace Datum

mutual

theorem textKeyed_plain : (d : Datum) → (levels : ℕ) → (v : Value) → plain levels d = .ok v → Shaped v
  | .gathering kind items, levels, v, h => by
    rw [plain] at h
    split at h
    · cases h
    · obtain ⟨vs, hvs, h⟩ := exists_of_bind_eq_ok h
      cases h
      exact .list (textKeyed_plainAll items (levels - 1) vs hvs)
  | .map entries, levels, v, h => by
    rw [plain] at h
    split at h
    · cases h
    · obtain ⟨pairs, hpairs, h⟩ := exists_of_bind_eq_ok h
      cases h
      have hall := textKeyed_plainEntries entries (levels - 1) pairs hpairs
      exact textKeyed_ofPairs (fun e he => (hall e he).1) fun e he => (hall e he).2
  | .member id type name base value, levels, v, h => by
    rw [plain] at h
    split at h
    · cases h
    · exact textKeyed_plain value (levels - 1) v h
  | .record id type .fields fields, levels, v, h => by
    rw [plain] at h
    split at h
    · cases h
    · obtain ⟨pairs, hpairs, h⟩ := exists_of_bind_eq_ok h
      cases h
      have hall := textKeyed_plainFields fields (levels - 1) false pairs hpairs
      exact textKeyed_ofPairs (fun e he => (hall e he).1) fun e he => (hall e he).2
  | .record id type .aliased fields, levels, v, h => by
    rw [plain] at h
    split at h
    · cases h
    · obtain ⟨pairs, hpairs, h⟩ := exists_of_bind_eq_ok h
      cases h
      have hall := textKeyed_plainFields fields (levels - 1) true pairs hpairs
      exact textKeyed_ofPairs (fun e he => (hall e he).1) fun e he => (hall e he).2
  | .record id type .places fields, levels, v, h => by
    rw [plain] at h
    split at h
    · cases h
    · obtain ⟨pairs, hpairs, h⟩ := exists_of_bind_eq_ok h
      cases h
      have hall := textKeyed_plainFields fields (levels - 1) false pairs hpairs
      refine .list fun w hw => ?_
      obtain ⟨e, he, rfl⟩ := List.mem_map.1 hw
      exact (hall e he).2
  | .bytes octets, levels, v, h => by
    rw [plain] at h
    split at h
    · cases h
    · obtain ⟨text, -, h⟩ := exists_of_bind_eq_ok h
      cases h
      exact .scalar trivial
  | .null, _, _, h | .bool _, _, _, h | .int _, _, _, h | .float _, _, _, h | .str _, _, _, h
  | .decimal _, _, _, h | .date _, _, _, h | .dateTime _, _, _, h | .time _, _, _, h | .duration _, _, _, h
  | .uuid _, _, _, h | .address _, _, _, h | .complex _, _, _, h => by
    rw [plain] at h
    split at h <;> cases h
    exact .scalar trivial
  | .path _, _, _, h | .range _ _, _, _, h | .absent _ _, _, _, h | .typeItself _ _ _, _, _, h
  | .foreign _, _, _, h | .cycle, _, _, h => by
    rw [plain] at h
    split at h <;> cases h

theorem textKeyed_plainAll : (ds : List Datum) → (levels : ℕ) → (vs : List Value) →
    plainAll levels ds = .ok vs → ∀ v ∈ vs, Shaped v
  | [], levels, vs, h => by
    cases h
    simp
  | d :: ds, levels, vs, h => by
    rw [plainAll] at h
    obtain ⟨v, hv, h⟩ := exists_of_bind_eq_ok h
    obtain ⟨ws, hws, h⟩ := exists_of_bind_eq_ok h
    cases h
    exact List.forall_mem_cons.2 ⟨textKeyed_plain d levels v hv, textKeyed_plainAll ds levels ws hws⟩

theorem textKeyed_plainEntries : (entries : List (Datum × Datum)) → (levels : ℕ) → (pairs : List (Key × Value)) →
    plainEntries levels entries = .ok pairs → ∀ e ∈ pairs, (∃ name, e.1 = .str name) ∧ Shaped e.2
  | [], levels, pairs, h => by
    cases h
    simp
  | (k, d) :: entries, levels, pairs, h => by
    rw [plainEntries] at h
    obtain ⟨key, -, h⟩ := exists_of_bind_eq_ok h
    obtain ⟨v, hv, h⟩ := exists_of_bind_eq_ok h
    obtain ⟨rest, hrest, h⟩ := exists_of_bind_eq_ok h
    cases h
    exact List.forall_mem_cons.2
      ⟨⟨⟨key, rfl⟩, textKeyed_plain d levels v hv⟩, textKeyed_plainEntries entries levels rest hrest⟩

theorem textKeyed_plainFields : (fields : List (String × String × Datum)) → (levels : ℕ) → (publicly : Bool) →
    (pairs : List (Key × Value)) → plainFields levels publicly fields = .ok pairs →
    ∀ e ∈ pairs, (∃ name, e.1 = .str name) ∧ Shaped e.2
  | [], levels, publicly, pairs, h => by
    cases h
    simp
  | (name, publicName, d) :: fields, levels, publicly, pairs, h => by
    rw [plainFields] at h
    obtain ⟨v, hv, h⟩ := exists_of_bind_eq_ok h
    obtain ⟨rest, hrest, h⟩ := exists_of_bind_eq_ok h
    cases h
    exact List.forall_mem_cons.2
      ⟨⟨⟨_, rfl⟩, textKeyed_plain d levels v hv⟩, textKeyed_plainFields fields levels publicly rest hrest⟩

end

/-- **Whatever is written for a datum is keyed by texts**, also where the datum is shown as a text. -/
theorem textKeyed_toValue {d : Datum} {v : Value} (h : d.toValue = .ok v) : Shaped v := by
  unfold toValue at h
  split at h
  · next w hw =>
    cases h
    exact textKeyed_plain d depthLimit _ hw
  · split at h
    · cases h
    · cases h
      exact .scalar trivial
  · cases h

end Datum

theorem textKeyed_valuesOf {ds : List Datum} {vs : List Value} (h : valuesOf ds = .ok vs) : ∀ v ∈ vs, Shaped v := by
  induction ds generalizing vs with
  | nil =>
    cases h
    simp
  | cons d ds ih =>
    rw [valuesOf] at h
    obtain ⟨v, hv, h⟩ := exists_of_bind_eq_ok h
    obtain ⟨ws, hws, h⟩ := exists_of_bind_eq_ok h
    cases h
    exact List.forall_mem_cons.2 ⟨Datum.textKeyed_toValue hv, ih hws⟩

theorem textKeyed_defaultOf {p : Param} {v : Value} (h : v ∈ Scope.defaultOf p) : Shaped v := by
  unfold Scope.defaultOf Scope.documentedDefault at h
  cases hd : p.hasDefault with
  | false => simp [hd] at h
  | true =>
    cases hv : p.default.toValue with
    | error f => simp [hd, hv, Except.map] at h
    | ok w =>
      simp only [hd, hv, if_true, Except.map, Option.mem_def, Option.some.injEq] at h
      exact h ▸ Datum.textKeyed_toValue hv

/-! ### Schemas and what is made of them -/

/-- Every member is keyed by texts. -/
def AllShaped (members : List (String × Value)) : Prop := ∀ m ∈ members, Shaped m.2

section Members

variable {v : Value} {k s : String} {b : Bool} {members members' : List (String × Value)}

@[simp] theorem shaped_str : Shaped (.str s) := .scalar trivial

@[simp] theorem shaped_bool : Shaped (.bool b) := .scalar trivial

theorem shaped_texts (names : List String) : Shaped (.list (names.map Value.str)) := by
  refine .list fun v hv => ?_
  obtain ⟨s, -, rfl⟩ := List.mem_map.1 hv
  exact shaped_str

@[simp] theorem allShaped_nil : AllShaped [] := by simp [AllShaped]

@[simp] theorem allShaped_cons : AllShaped ((k, v) :: members) ↔ Shaped v ∧ AllShaped members := by
  simp [AllShaped]

@[simp] theorem allShaped_append : AllShaped (members ++ members') ↔ AllShaped members ∧ AllShaped members' := by
  simp [AllShaped, or_imp, forall_and]

theorem allShaped_optional {α : Type} {o : Option α} {value : α → Value} (h : ∀ x ∈ o, Shaped (value x)) :
    AllShaped (o.map fun x => (k, value x)).toList := by
  cases o with
  | none => simp
  | some x => simpa using h x rfl

end Members

theorem allShaped_sampleMembers (sample : Option String) : AllShaped (sampleMembers sample) := by
  cases sample <;> simp [sampleMembers]

theorem allShaped_nullableMember (nullable : Bool) : AllShaped (nullableMember nullable) := by
  cases nullable <;> simp [nullableMember]

/-- The admitted values of a description, and those of its items, are keyed by texts. -/
def Schema.Shaped : Schema → Prop
  | reference _ _ => True
  | array _ items => items.Shaped
  | simple _ _ _ choices _ => ∀ c ∈ choices, ∀ v ∈ c.values, RouteDoc.Shaped v

theorem Schema.Shaped.allShaped {s : Schema} (h : s.Shaped) : AllShaped s.members := by
  induction s with
  | reference nullable component => simp [members, allShaped_nullableMember]
  | array nullable items ih =>
    have hitems : RouteDoc.Shaped (.object items.members) := .object items.keys_nodup (ih h)
    simp [members, allShaped_nullableMember, hitems]
  | simple nullable word format choices sample =>
    simp only [members, allShaped_append, allShaped_cons, allShaped_nil, and_true]
    exact ⟨⟨⟨⟨allShaped_nullableMember _, shaped_str⟩, allShaped_optional fun _ _ => shaped_str⟩,
      allShaped_optional fun c hc => .list (h c hc)⟩, allShaped_sampleMembers _⟩

theorem Schema.Shaped.textKeyed {s : Schema} (h : s.Shaped) : RouteDoc.Shaped s.toValue :=
  .object s.keys_nodup h.allShaped

theorem Schema.Shaped.withoutSample {s : Schema} (h : s.Shaped) : s.withoutSample.Shaped := by
  cases s <;> exact h

/-- A described field with its default is keyed by texts. -/
theorem Property.textKeyed {p : Property} (hschema : p.schema.Shaped) (hdefault : ∀ v ∈ p.default, Shaped v) :
    Shaped p.toValue := by
  refine .object ?_ (allShaped_append.2 ⟨hschema.allShaped, allShaped_optional hdefault⟩)
  have hfresh : "default" ∉ p.schema.members.map (·.1) := by
    cases p.schema with
    | reference nullable component => cases nullable <;> simp [Schema.members, nullableMember]
    | array nullable items => cases nullable <;> simp [Schema.members, nullableMember]
    | simple nullable word format choices sample =>
      cases nullable <;> cases format <;> cases choices <;> cases sample <;>
        simp [Schema.members, nullableMember, sampleMembers]
  rw [Property.members, List.map_append]
  cases p.default with
  | none => simpa using p.schema.keys_nodup
  | some v =>
    refine List.nodup_append.2 ⟨p.schema.keys_nodup, by simp, fun a ha b hb hab => ?_⟩
    obtain rfl : b = "default" := by simpa using hb
    exact hfresh (hab ▸ ha)

theorem RequestParameter.textKeyed {p : RequestParameter} (h : Shaped p.schema.toValue) : Shaped p.toValue := by
  refine .object ?_ (allShaped_append.2 ⟨by simp [h], allShaped_sampleMembers _⟩)
  rw [members]
  cases p.sample <;> simp [sampleMembers]

theorem Component.textKeyed {c : Component} (hnames : (c.properties.map (·.1)).Nodup)
    (hproperties : ∀ p ∈ c.properties, Shaped p.2.toValue) : Shaped c.toValue := by
  have hwritten : Shaped (.object (Scope.writtenProperties c)) := by
    refine .object (by rwa [Scope.names_writtenProperties]) fun m hm => ?_
    obtain ⟨p, hp, rfl⟩ := List.mem_map.1 hm
    exact hproperties p hp
  unfold Scope.writtenProperties at hwritten
  unfold toValue
  cases c.required.isEmpty with
  | true => exact .object (by simp) (by simpa using hwritten)
  | false => exact .object (by simp) (by simpa using ⟨hwritten, shaped_texts _⟩)

theorem Responses.textKeyed {r : Responses} (h : ∀ s ∈ r.schemas, s.Shaped) : Shaped r.toValue := by
  have hschema : ∀ v ∈ schemaValue? r.schemas, Shaped v := by
    intro v hv
    unfold schemaValue? at hv
    split at hv
    · cases hv
    · next s hs =>
      cases hv
      exact (h s (by simp [hs])).textKeyed
    · cases hv
      refine TextKeyed.single (.list fun w hw => ?_)
      obtain ⟨s, hs, rfl⟩ := List.mem_map.1 hw
      exact (h s hs).textKeyed
  have hcontent : AllShaped (contentMembers r.schemas) :=
    allShaped_optional fun v hv => (hschema v hv).single.single
  have hkeys : ((("description", Value.str "200 response") :: contentMembers r.schemas).map (·.1)).Nodup := by
    unfold contentMembers
    cases schemaValue? r.schemas <;> simp
  have hsuccess : Shaped (.object (("description", .str "200 response") :: contentMembers r.schemas)) :=
    .object hkeys (allShaped_cons.2 ⟨shaped_str, hcontent⟩)
  have hfailure : Shaped (.object [("description", .str "500 Server encountered a problem")]) := shaped_str.single
  refine .object (by simp) (allShaped_cons.2 ⟨hsuccess, ?_⟩)
  simpa using hfailure

theorem Content.textKeyed (types : Declarations) (ps : List Param) : Shaped (.object (entries types ps)) := by
  refine .object (keys_nodup types ps) ?_
  show AllShaped (entries types ps)
  have hown : AllShaped ((encodings types ps).map fun e => mediaEntry e.kind.mediaType (encodingValue e)) := by
    intro m hm
    obtain ⟨e, -, rfl⟩ := List.mem_map.1 hm
    have hrefs : Shaped (.list (e.components.map fun name => .object [("$ref", .str (componentPlace name))])) := by
      refine .list fun v hv => ?_
      obtain ⟨name, -, rfl⟩ := List.mem_map.1 hv
      exact shaped_str.single
    exact TextKeyed.single (.object (by simp) (by simpa using hrefs))
  have hfile : Shaped (.object [("type", .str "string"), ("format", .str "binary")]) :=
    .object (by simp) (by simp)
  have hupload : Shaped (.object
      [("type", .str "object"),
        ("properties", .object [("file", .object [("type", .str "string"), ("format", .str "binary")])]),
        ("required", .list [.str "file"])]) :=
    .object (by simp) (by simpa using ⟨hfile.single, shaped_texts ["file"]⟩)
  have hobject : Shaped (.object [("type", .str "object")]) := shaped_str.single
  rw [entries, allShaped_append]
  refine ⟨hown, ?_⟩
  simpa [always, mediaEntry] using ⟨hobject.single, hupload.single⟩

theorem Operation.textKeyed {o : Operation} (hparameters : ∀ p ∈ o.parameters, Shaped p.toValue)
    (hresponses : Shaped o.responses.toValue) (hbody : ∀ b ∈ o.body, Shaped b.toValue) : Shaped o.toValue := by
  have hlist : Shaped (.list (o.parameters.map RequestParameter.toValue)) := by
    refine .list fun v hv => ?_
    obtain ⟨p, hp, rfl⟩ := List.mem_map.1 hv
    exact hparameters p hp
  refine .object ?_ (allShaped_append.2
    ⟨by simpa using ⟨shaped_texts o.tags, hlist, hresponses⟩, allShaped_optional hbody⟩)
  cases o.body <;> simp

/-! ### What a route brings into the document -/

namespace Scope

variable {scope : Scope}

theorem shaped_describeSimple {nullable : Bool} {t : TypeExpr} {s : Schema}
    (h : scope.describeSimple nullable t = .ok s) : s.Shaped := by
  obtain ⟨choices, rfl, hchoices⟩ := of_describeSimple_eq_ok h
  intro c hc
  exact textKeyed_valuesOf (hchoices c hc).2.2

/-- Every description is keyed by texts. -/
theorem shaped_fragment {t : TypeExpr} {s : Schema} (h : scope.fragment t = some s) : s.Shaped :=
  fragment_induction (P := Schema.Shaped) (fun _ _ => trivial) (fun _ _ hitems => hitems)
    (fun _ _ _ _ _ hs => shaped_describeSimple hs) h

/-- **The component of a type is keyed by texts.** -/
theorem textKeyed_componentOf (t : TypeExpr) : Shaped (scope.componentOf t).toValue := by
  refine Component.textKeyed ?_ fun p hp => ?_
  · show (((scope.fieldList t).filterMap scope.propertyOf).map (·.1)).Nodup
    rw [names_propertyOf]
    exact (fieldList_names_nodup t).sublist (List.filter_sublist.map _)
  · obtain ⟨field, -, hfield⟩ := List.mem_filterMap.1 hp
    obtain ⟨s, hs, rfl⟩ := Option.map_eq_some_iff.1 hfield
    exact Property.textKeyed (shaped_fragment hs) fun v hv => textKeyed_defaultOf hv

theorem textKeyed_entryFor {location : Location} {p : Param} {r : RequestParameter}
    (h : scope.entryFor location p = some r) : Shaped r.toValue := by
  obtain ⟨s, hs, rfl⟩ := Option.map_eq_some_iff.1 h
  have hschema : (scope.entryOf location p s (defaultOf p)).schema.schema.Shaped := by
    unfold entryOf
    dsimp only
    split
    · exact (shaped_fragment hs).withoutSample
    · exact shaped_fragment hs
  exact RequestParameter.textKeyed (Property.textKeyed hschema fun v hv => textKeyed_defaultOf hv)

/-- **The operation of a route is keyed by texts.** -/
theorem textKeyed_operationOf (route : Route) (tags : List String) :
    Shaped (scope.operationOf route tags).toValue := by
  refine Operation.textKeyed (fun r hr => ?_) (Responses.textKeyed fun s hs => ?_) fun b hb => ?_
  · obtain ⟨q, -, hr⟩ := List.mem_flatMap.1 hr
    obtain ⟨c, -, hentry⟩ := List.mem_filterMap.1 hr
    exact textKeyed_entryFor hentry
  · obtain ⟨t, -, ht⟩ := List.mem_filterMap.1 (mem_of_mem_distinct hs)
    exact shaped_fragment ht
  · simp only [operationOf, requestBody] at hb
    split at hb
    · cases hb
      exact .object (by simp) (by simpa using Content.textKeyed scope.types route.bodyParams)
    · cases hb

end Scope

/-! ### Documents -/

namespace Settings

theorem textKeyed_document (s : Settings) : Shaped s.document := by
  have hinfo : Shaped s.info := by
    unfold info
    cases s.description with
    | none => exact .object (by simp) (by simp)
    | some d =>
      dsimp only
      split
      · exact .object (by simp) (by simp)
      · exact .object (by simp) (by simp)
  have hcomponents : Shaped (.object [("schemas", .map [])]) := TextKeyed.single textKeyed_nil
  refine .object (by simp) ?_
  simpa using ⟨hinfo, textKeyed_nil, hcomponents⟩

end Settings

/-- Every entry is a mapping. -/
def Entries.AllMaps (es : Entries) : Prop := ∀ e ∈ es, e.2.isMap = true

namespace Entries.AllMaps

variable {es os : Entries} {key : Key} {v : Value}

theorem set (h : es.AllMaps) (hv : v.isMap = true) : (es.set key v).AllMaps := by
  intro e he
  rcases Entries.mem_set (k := e.1) (v := e.2) he with he | ⟨-, heq⟩
  · exact h e he
  · rw [heq]
    exact hv

theorem merge (h : es.AllMaps) (hos : os.AllMaps) : (es.merge os).AllMaps := by
  induction os generalizing es with
  | nil => rwa [Entries.merge]
  | cons o os ih =>
    obtain ⟨k, v⟩ := o
    have hv : (Value.over (es.get? k) v).isMap = true := by
      rcases over_cases (es.get? k) v with hover | ⟨base, os', hbase, hos'⟩
      · rw [hover]
        exact hos (k, v) List.mem_cons_self
      · rw [hbase, hos', over_map_map]
        rfl
    rw [Entries.merge]
    exact ih (h.set hv) fun e he => hos e (List.mem_cons_of_mem _ he)

theorem isMap_get? (h : es.AllMaps) (hv : es.get? key = some v) : v.isMap = true := by
  obtain ⟨k, hin, -⟩ := Entries.exists_mem_of_get? hv
  exact h _ hin

end Entries.AllMaps

namespace Value

/-- A document that is keyed by texts and, where its paths are a mapping, has a mapping under each of them. -/
structure Regular (p : Scalar → Prop) (v : Value) : Prop where
  textKeyed : v.TextKeyed p
  paths : ∀ paths : Entries, v.get? "paths" = some (.map paths) → paths.AllMaps

namespace Regular

variable {p : Scalar → Prop} {v w override : Value} {path : String}

theorem mergeInto (h : v.Regular p) (ho : override.Regular p) (hw : v.mergeInto override = .ok w) :
    w.Regular p := by
  refine ⟨h.textKeyed.mergeInto ho.textKeyed hw, fun paths hpaths => ?_⟩
  cases v with
  | map es =>
    cases override with
    | map os =>
      cases hw
      have hos : Entries.Distinct os := ho.textKeyed.distinct
      rw [get?, entries?, Option.bind_some, Entries.get?_merge hos.unrepeated] at hpaths
      cases hover : Entries.get? (.str "paths") os with
      | none =>
        rw [hover] at hpaths
        exact h.paths paths hpaths
      | some value =>
        rw [hover, Option.map_some, Option.some_or, Option.some.injEq] at hpaths
        rcases over_cases (Entries.get? (.str "paths") es) value with heq | ⟨base, items, hbase, hitems⟩
        · refine ho.paths paths ?_
          rw [get?, entries?, Option.bind_some, hover, ← heq, hpaths]
        · rw [hbase, hitems, over_map_map] at hpaths
          cases hpaths
          exact (h.paths base hbase).merge (ho.paths items (hitems ▸ hover))
    | _ => cases hw
  | _ => cases hw

theorem openPaths (h : v.Regular p) (hw : v.openPaths = .ok w) : w.Regular p := by
  cases v with
  | map es =>
    cases hw
    split
    · exact h
    · next hnone =>
      have hfresh : Entries.has (.str "paths") es = false := Bool.eq_false_iff.2 hnone
      rw [← Entries.set_of_not_has hfresh]
      refine ⟨h.textKeyed.set textKeyed_nil, fun paths hpaths => ?_⟩
      rw [get?, entries?, Option.bind_some, Entries.get?_set] at hpaths
      simp only [Key.str_same_str, decide_true, if_true, Option.some.injEq, map.injEq] at hpaths
      subst hpaths
      exact fun e he => absurd he List.not_mem_nil
  | _ => cases hw

theorem afterFailedRoute (h : v.Regular p) : v.afterFailedRoute.Regular p := by
  unfold Value.afterFailedRoute
  split
  · next opened hopen => exact h.openPaths hopen
  · exact h

theorem mergePath (h : v.Regular p) (ho : override.TextKeyed p) (hw : v.mergePath path override = .ok w) :
    w.Regular p := by
  obtain ⟨fields, hfields, hafter⟩ := exists_of_bind_eq_ok hw
  obtain ⟨paths, hpaths, hmerged⟩ := exists_of_bind_eq_ok hafter
  obtain ⟨item, hitem, hset⟩ := exists_of_bind_eq_ok hmerged
  cases v with
  | map es =>
    cases hfields
    cases hset
    have hget : Entries.get? (.str "paths") fields = some (.map paths) := by
      cases hv : Entries.get? (.str "paths") fields with
      | none =>
        rw [hv] at hpaths
        cases hpaths
      | some u =>
        rw [hv, Option.getD_some] at hpaths
        cases u with
        | map items =>
          cases hpaths
          rfl
        | _ => cases hpaths
    have hmaps : paths.AllMaps := h.paths paths hget
    have hkeyed : (Value.map paths).TextKeyed p := h.textKeyed.get? hget
    -- what stands under the path is a mapping, so it is not read as a sequence of pairs
    obtain ⟨base, hbase, hbasekeyed⟩ : ∃ base, (paths.get? (.str path)).getD (.map []) = .map base ∧
        (Value.map base).TextKeyed p := by
      cases hp : paths.get? (.str path) with
      | none => exact ⟨[], rfl, textKeyed_nil⟩
      | some u =>
        cases u with
        | map base => exact ⟨base, rfl, hkeyed.get? hp⟩
        | _ => cases hmaps.isMap_get? hp
    rw [hbase] at hitem
    cases override with
    | map os =>
      cases hitem
      have hset : (Value.map (paths.set (.str path) (.map (Entries.merge base os)))).TextKeyed p :=
        hkeyed.set (hbasekeyed.merge ho)
      refine ⟨h.textKeyed.set hset, fun after hafter => ?_⟩
      rw [get?, entries?, Option.bind_some, Entries.get?_set] at hafter
      simp only [Key.str_same_str, decide_true, if_true, Option.some.injEq, map.injEq] at hafter
      subst hafter
      exact hmaps.set rfl
    | _ => cases hitem
  | _ => cases hfields

theorem mergeRoute (h : v.Regular p) (ho : override.TextKeyed p) (hw : v.mergeRoute path override = .ok w) :
    w.Regular p := by
  obtain ⟨opened, hopen, hw⟩ := exists_of_bind_eq_ok hw
  exact (h.openPaths hopen).mergePath ho hw

end Regular

end Value

/-! ### Runs -/

/-- The overrides of a call are regular. -/
def Call.Regular (p : Scalar → Prop) : Call → Prop
  | .mergeInto override => override.Regular p
  | .mergeRoute _ override => override.TextKeyed p
  | _ => True

namespace Documentation

variable {p : Scalar → Prop} {d : Documentation}

theorem regular_new (hp : ∀ s : Scalar, s.IsJson → p s) (s : Settings) : (new s).document.Regular p := by
  refine ⟨s.textKeyed_document.mono hp, fun paths hpaths => ?_⟩
  cases hpaths
  exact fun e he => absurd he List.not_mem_nil

/-- Publishing a described route keeps the document regular. -/
theorem regular_publish (hp : ∀ s : Scalar, s.IsJson → p s) (h : d.document.Regular p) {scope : Scope} {us : List TypeExpr}
    {known : Registry} (hadded : (d.registry.filter fun (name, _) => !known.has name) = us.map scope.finished)
    (hnodup : (Registry.names (us.map scope.finished)).Nodup) (route : Route) (tags : List String) :
    (run (publish known route (scope.operationOf route tags)) d).2.document.Regular p := by
  have hcomponents : (componentsOverride (us.map scope.finished)).Regular p := by
    have hentries : Shaped (.object (Registry.toEntries (us.map scope.finished))) := by
      refine .object (by rwa [toEntries_names]) fun m hm => ?_
      obtain ⟨e, he, rfl⟩ := List.mem_map.1 hm
      obtain ⟨u, -, rfl⟩ := List.mem_map.1 he
      exact Scope.textKeyed_componentOf u
    refine ⟨hentries.single.single.mono hp, fun paths hpaths => ?_⟩
    simp [componentsOverride, get?, object, entries?, Entries.get?] at hpaths
  have hoperation : (operationOverride route.method (scope.operationOf route tags)).TextKeyed p :=
    (Scope.textKeyed_operationOf route tags).single.mono hp
  rw [run_publish, hadded]
  split
  · exact h
  · next v hv =>
    have hv : v.Regular p := by
      unfold withComponents at hv
      split at hv
      · cases hv
        exact h
      · exact h.mergeInto hcomponents hv
    split
    · next w hw => exact hv.mergeRoute hoperation hw
    · exact hv.afterFailedRoute

theorem regular_register (hp : ∀ s : Scalar, s.IsJson → p s) (h : d.document.Regular p) (scope : Scope) (route : Route) :
    (run (register scope route) d).2.document.Regular p := by
  cases hd : d.finalized with
  | true => rwa [run_register_of_finalized hd]
  | false =>
    obtain ⟨us, ws, r, htrav, hout⟩ :=
      (Scope.follows_operation route (d.routeTags route)).total ⟨d.registry, d.warnings⟩
    cases r with
    | none =>
      rw [run_register_of_traverses hd htrav]
      have hadded := filter_not_has_append (Scope.finished_fresh htrav)
      exact regular_publish (by exact hp) (by exact h) hadded (Scope.finished_nodup htrav) _ _
    | some f =>
      obtain ⟨b, hb, -⟩ := hout
      rw [run_register hd, hb]
      exact h

/-- **One call keeps the document regular**, as long as its overrides are. -/
theorem regular_after (hp : ∀ s : Scalar, s.IsJson → p s) (h : d.document.Regular p) {c : Call} (hc : c.Regular p) :
    (c.after d).document.Regular p := by
  cases hr : c.route? with
  | some sr =>
    rw [Call.after_of_route? hr]
    exact regular_register hp h sr.1 sr.2
  | none =>
    cases c with
    | tag path methods tags =>
      obtain ⟨table, ht⟩ := Call.after_tag path methods tags d
      rw [ht]
      exact h
    | tagsFor path method => exact h
    | register scope route => cases hr
    | registerHandler scope method path handler tags =>
      obtain ⟨f, hf⟩ := Call.run_registerHandler_of_route?_eq_none (d := d) hr
      rwa [Call.after, hf]
    | mergeInto override =>
      rw [Call.after_mergeInto]
      split
      · exact h
      · split
        · next v hv => exact h.mergeInto hc hv
        · exact h
    | mergeRoute path override =>
      rw [Call.after_mergeRoute]
      split
      · exact h
      · split
        · next v hv => exact h.mergeRoute hc hv
        · exact h.afterFailedRoute
    | finalize =>
      rw [Call.after_finalize]
      exact h

/-- **Every run of calls keeps the document regular**, as long as all overrides are. -/
theorem regular_afterCalls (hp : ∀ s : Scalar, s.IsJson → p s) (h : d.document.Regular p) {calls : List Call}
    (hcalls : ∀ c ∈ calls, c.Regular p) : (d.afterCalls calls).document.Regular p := by
  induction calls generalizing d with
  | nil => exact h
  | cons c calls ih =>
    rw [afterCalls_cons]
    exact ih (regular_after hp h (hcalls c List.mem_cons_self)) fun c hc => hcalls c (List.mem_cons_of_mem _ hc)

end Documentation

end RouteDoc
