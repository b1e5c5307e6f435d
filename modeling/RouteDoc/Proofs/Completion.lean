import RouteDoc.Proofs.Factories
import RouteDoc.Proofs.Publication

/-!
# When documenting a route returns

Publishing never fails where nothing was merged by hand, so a call fails only while its route is described.  It
fails for four reasons alone: the text of a reference cannot be read; a factory fails; a value that has to be
documented, a default or a member of an enumeration, is not brought into the shape of a document and has no text in its
place; or what stands in the place of an encoding cannot be a key.

* `Scope.Enumerates` — the enumeration whose members the description of a type lists;
* `Scope.exists_describe_iff` — a type has a description unless such a member fails;
* `Scope.Converts`, `Scope.FieldsConvert`, `Scope.RouteConverts` — nothing fails in a typed name, in the fields of
  a type, in the parameters and results of a route;
* `Documentation.register_returns_iff` — when documenting a route returns, and why it fails when it does not.
-/

namespace RouteDoc

/-! ### Values to be documented -/

/-- The value has a shape in a document, or a text in its place. -/
def Datum.IsDocumented (d : Datum) : Prop := ∃ v, d.toValue = .ok v

theorem Datum.not_isDocumented_iff {d : Datum} : ¬ d.IsDocumented ↔ ∃ f, d.toValue = .error f := by
  unfold IsDocumented
  cases d.toValue <;> simp

theorem exists_of_valuesOf_eq_error {ds : List Datum} {f : Failure} (h : valuesOf ds = .error f) :
    ∃ d ∈ ds, d.toValue = .error f := by
  induction ds with
  | nil => cases h
  | cons d ds ih =>
    rw [valuesOf] at h
    cases hd : d.toValue with
    | error g =>
      rw [hd] at h
      cases h
      exact ⟨d, List.mem_cons_self, hd⟩
    | ok v =>
      rw [hd] at h
      cases hrest : valuesOf ds with
      | error g =>
        have hg : g = f := by
          rw [hrest] at h
          cases h
          rfl
        obtain ⟨e, he, hfail⟩ := ih (hg ▸ hrest)
        exact ⟨e, List.mem_cons_of_mem _ he, hfail⟩
      | ok vs =>
        rw [hrest] at h
        cases h

theorem exists_valuesOf_iff {ds : List Datum} :
    (∃ vs, valuesOf ds = .ok vs) ↔ ∀ d ∈ ds, d.IsDocumented := by
  constructor
  · induction ds with
    | nil => simp
    | cons d ds ih =>
      rintro ⟨vs, hvs⟩
      rw [valuesOf] at hvs
      cases hd : d.toValue with
      | error f =>
        rw [hd] at hvs
        cases hvs
      | ok v =>
        rw [hd] at hvs
        cases hrest : valuesOf ds with
        | error f =>
          rw [hrest] at hvs
          cases hvs
        | ok rest => exact List.forall_mem_cons.2 ⟨⟨v, hd⟩, ih ⟨rest, hrest⟩⟩
  · intro h
    cases hvs : valuesOf ds with
    | ok vs => exact ⟨vs, rfl⟩
    | error f =>
      obtain ⟨d, hd, hfail⟩ := exists_of_valuesOf_eq_error hvs
      exact absurd (h d hd) (Datum.not_isDocumented_iff.2 ⟨f, hfail⟩)

namespace Scope

variable {scope : Scope}

/-! ### Types to be described -/

/-- The description of a type lists the members of an enumeration: the type is the enumeration, or an array of
items that are described so.  Null as another choice does not matter. -/
inductive Enumerates (scope : Scope) : TypeExpr → TypeExpr → Prop
  | enum {t payload : TypeExpr} {nullable : Bool} : t.payload? = some (nullable, payload) →
      scope.types.tag payload = .enum → Enumerates scope t payload
  | items {t payload item u : TypeExpr} {nullable : Bool} : t.payload? = some (nullable, payload) →
      scope.types.tag payload = .array → payload.itemType? = some item → Enumerates scope item u →
      Enumerates scope t u

/-- All members that the description of a type lists are documented. -/
def MembersConvert (scope : Scope) (t : TypeExpr) : Prop :=
  ∀ u, scope.Enumerates t u → ∀ d ∈ scope.types.enumValues u, d.IsDocumented

theorem of_describeSimple_eq_error {t : TypeExpr} {nullable : Bool} {f : Failure}
    (h : scope.describeSimple nullable t = .error f) :
    scope.types.tag t = .enum ∧ valuesOf (scope.types.enumValues t) = .error f := by
  cases he : scope.types.tag t == .enum with
  | false =>
    simp only [describeSimple, he] at h
    cases h
  | true =>
    refine ⟨by simpa using he, ?_⟩
    cases hv : valuesOf (scope.types.enumValues t) with
    | error g =>
      simp only [describeSimple, he, hv] at h
      cases h
      rfl
    | ok vs =>
      simp only [describeSimple, he, hv] at h
      cases h

theorem exists_valuesOf_of_describeSimple {t : TypeExpr} {nullable : Bool} {s : Schema}
    (ht : scope.types.tag t = .enum) (h : scope.describeSimple nullable t = .ok s) :
    ∃ vs, valuesOf (scope.types.enumValues t) = .ok vs := by
  cases hv : valuesOf (scope.types.enumValues t) with
  | ok vs => exact ⟨vs, rfl⟩
  | error f =>
    simp only [describeSimple, ht, hv] at h
    cases h

/-- **A description fails at a member of an enumeration**, and nowhere else. -/
theorem exists_of_describe_eq_error {t : TypeExpr} {f : Failure} (h : scope.describe t = .error f) :
    ∃ u, scope.Enumerates t u ∧ ∃ d ∈ scope.types.enumValues u, d.toValue = .error f := by
  induction t using describe.induct scope with
  | case1 t ht =>
    rw [describe, if_pos ht] at h
    cases h
  | case2 t ht hp =>
    rw [describe, if_neg ht] at h
    split at h
    · cases h
    · next hp' => cases hp.symm.trans hp'
  | case3 t ht nullable payload hp hs =>
    rw [describe_struct hp hs] at h
    cases h
  | case4 t ht nullable payload hp ha item hi ih =>
    rw [describe_items hp ha hi] at h
    obtain ⟨u, hu, hfail⟩ := ih (map_eq_error_iff.1 h)
    exact ⟨u, .items hp ha hi hu, hfail⟩
  | case5 t ht nullable payload hp ha hi =>
    rw [describe_of_payload? hp (by simpa using ht)] at h
    simp only [ha, hi] at h
    have hany : Tag.unknown = .enum := (of_describeSimple_eq_error (map_eq_error_iff.1 h)).1
    cases hany
  | case6 t ht nullable payload hp hs ha =>
    rw [describe_of_payload? hp (by simpa using ht)] at h
    split at h
    · next hs' => exact (hs hs').elim
    · next ha' => exact (ha ha').elim
    · obtain ⟨henum, hvalues⟩ := of_describeSimple_eq_error (map_eq_error_iff.1 h)
      exact ⟨payload, .enum hp henum, exists_of_valuesOf_eq_error hvalues⟩

/-- A type that has a description lists documented members alone; by induction on the way to the enumeration. -/
theorem membersConvert_of_describe {t : TypeExpr} {d : Description} (h : scope.describe t = .ok d) :
    scope.MembersConvert t := by
  intro u hu
  induction hu generalizing d with
  | @enum t payload nullable hp henum =>
    rw [describe_of_payload? hp (tag_ne_nothing hp (by simp [henum]))] at h
    simp only [henum] at h
    cases hs : scope.describeSimple nullable payload with
    | error f =>
      rw [hs] at h
      cases h
    | ok s => exact exists_valuesOf_iff.1 (exists_valuesOf_of_describeSimple henum hs)
  | @items t payload item u nullable hp ha hi _ ih =>
    rw [describe_items hp ha hi] at h
    cases hd : scope.describe item with
    | error f =>
      rw [hd] at h
      cases h
    | ok d => exact ih hd

/-- **When a type has a description.** -/
theorem exists_describe_iff {t : TypeExpr} : (∃ d, scope.describe t = .ok d) ↔ scope.MembersConvert t := by
  constructor
  · rintro ⟨d, hd⟩
    exact membersConvert_of_describe hd
  · intro h
    cases hd : scope.describe t with
    | ok d => exact ⟨d, rfl⟩
    | error f =>
      obtain ⟨u, hu, d, hin, hfail⟩ := exists_of_describe_eq_error hd
      exact absurd (h u hu d hin) (Datum.not_isDocumented_iff.2 ⟨f, hfail⟩)

/-! ### Names to be documented -/

/-- Nothing fails in a typed name: the members that its type lists are documented, and, unless the name is left
out, so is its default. -/
structure Converts (scope : Scope) (t : TypeExpr) (p : Param) : Prop where
  members : scope.MembersConvert t
  default : scope.fragment t ≠ none → p.hasDefault = true → p.default.IsDocumented

theorem exists_documentedDefault_iff {p : Param} :
    (∃ v, documentedDefault p = .ok v) ↔ (p.hasDefault = true → p.default.IsDocumented) := by
  unfold documentedDefault Datum.IsDocumented
  cases p.hasDefault with
  | false => simp
  | true => cases p.default.toValue <;> simp [Except.map]

theorem stop_notMem_typedErrands_iff {t : TypeExpr} {p : Param} (w : Warning) :
    (∀ f, .stop f ∉ scope.typedErrands t p w) ↔ scope.Converts t p := by
  have hdefault : (∀ f, .stop f ∉ defaultErrands p) ↔ (p.hasDefault = true → p.default.IsDocumented) := by
    rw [← exists_documentedDefault_iff, defaultErrands]
    cases documentedDefault p <;> simp
  have htype : (∀ f, .stop f ∉ scope.typeErrands t) ↔ scope.MembersConvert t :=
    stop_notMem_typeErrands_iff.trans exists_describe_iff
  simp only [typedErrands, List.mem_append, not_or, forall_and, htype]
  cases hs : scope.fragment t with
  | none => exact ⟨fun h => ⟨h.1, fun hne => absurd hs hne⟩, fun h => ⟨h.members, by simp⟩⟩
  | some s =>
    rw [hdefault]
    exact ⟨fun h => ⟨h.1, fun _ => h.2⟩, fun h => ⟨h.members, h.default (by simp [hs])⟩⟩

/-- Nothing fails in the fields of a type, which can be read. -/
def FieldsConvert (scope : Scope) (t : TypeExpr) : Prop :=
  ∃ fields, scope.fieldsOf t = .ok fields ∧ ∀ p ∈ fields, scope.Converts p.type p

/-- Nothing fails in the parameters of a route, which can be gathered, or in its results, and what its bodies have in
the place of encodings can be keys. -/
structure RouteConverts (scope : Scope) (route : Route) : Prop where
  params : ∀ q ∈ inTurn route.pathParams route.queryParams route.headerParams,
    ∃ candidates, scope.candidates q.2.2 q.2.1 = .ok candidates ∧
      ∀ p ∈ candidates, scope.Converts (scope.types.extractType p.type) p
  content : ∀ p ∈ route.bodyParams, Content.obstacle? scope.types p = none
  results : ∀ t ∈ Responses.concreteTypes route.returnTypes, scope.MembersConvert t

theorem stop_notMem_flatMap_iff {α : Type} {l : List α} {errands : α → List Errand} {holds : α → Prop}
    (h : ∀ a, (∀ f, .stop f ∉ errands a) ↔ holds a) :
    (∀ f, .stop f ∉ l.flatMap errands) ↔ ∀ a ∈ l, holds a := by
  simp only [List.mem_flatMap, not_exists, not_and, ← h]
  exact ⟨fun hl a ha f => hl f a ha, fun hl f a ha => hl a ha f⟩

theorem stop_notMem_structErrands_iff_fieldsConvert {t : TypeExpr} :
    (∀ f, .stop f ∉ scope.structErrands t) ↔ scope.FieldsConvert t := by
  unfold structErrands FieldsConvert
  cases scope.fieldsOf t with
  | error f => simp
  | ok fields =>
    simp only [Except.ok.injEq, exists_eq_left']
    exact stop_notMem_flatMap_iff fun p => stop_notMem_typedErrands_iff _

theorem stop_notMem_paramErrands_iff (location : Location) {turn : Nat} {p : Param} :
    (∀ f, .stop f ∉ scope.paramErrands location turn p) ↔
      ∃ candidates, scope.candidates turn p = .ok candidates ∧
        ∀ q ∈ candidates, scope.Converts (scope.types.extractType q.type) q := by
  unfold paramErrands
  cases scope.candidates turn p with
  | error f => simp
  | ok candidates =>
    simp only [Except.ok.injEq, exists_eq_left']
    exact stop_notMem_flatMap_iff fun q => stop_notMem_typedErrands_iff _

theorem stop_notMem_bodyErrands (p : Param) (f : Failure) : .stop f ∉ scope.bodyErrands p := by
  unfold bodyErrands
  split <;> simp

theorem stop_notMem_contentErrands_iff {ps : List Param} :
    (∀ f, .stop f ∉ scope.contentErrands ps) ↔ ∀ p ∈ ps, Content.obstacle? scope.types p = none := by
  rw [← List.findSome?_eq_none_iff]
  unfold contentErrands Content.content
  cases ps.findSome? (Content.obstacle? scope.types) <;> simp

theorem stop_notMem_routeErrands_iff {route : Route} :
    (∀ f, .stop f ∉ scope.routeErrands route) ↔ scope.RouteConverts route := by
  have hbodies : ∀ f, .stop f ∉ route.bodyParams.flatMap scope.bodyErrands := fun f hin =>
    (List.mem_flatMap.1 hin).elim fun p hp => stop_notMem_bodyErrands p f hp.2
  have hresults : (∀ f, .stop f ∉ (Responses.concreteTypes route.returnTypes).flatMap scope.typeErrands) ↔
      ∀ t ∈ Responses.concreteTypes route.returnTypes, scope.MembersConvert t :=
    stop_notMem_flatMap_iff fun t => stop_notMem_typeErrands_iff.trans exists_describe_iff
  have hparams : (∀ f, .stop f ∉ scope.turnErrands (inTurn route.pathParams route.queryParams route.headerParams)) ↔
      ∀ q ∈ inTurn route.pathParams route.queryParams route.headerParams,
        ∃ candidates, scope.candidates q.2.2 q.2.1 = .ok candidates ∧
          ∀ p ∈ candidates, scope.Converts (scope.types.extractType p.type) p :=
    stop_notMem_flatMap_iff fun q => stop_notMem_paramErrands_iff q.1
  simp only [routeErrands, List.mem_append, not_or, forall_and, hresults, hparams, stop_notMem_contentErrands_iff]
  constructor
  · rintro ⟨⟨-, hparams⟩, hcontent, hresults⟩
    exact ⟨hparams, hcontent, hresults⟩
  · exact fun h => ⟨⟨hbodies, h.params⟩, h.content, h.results⟩

/-! ### Failures of descriptions -/

/-- When a call reads fields: for components, and for parameters that are gathered. -/
inductive Reads (scope : Scope) : Moment → Prop
  | component (name : String) : Reads scope (.component scope.time name)
  | gathering (turn : Nat) : Reads scope (.gathering scope.time turn)

/-- Why a description fails. -/
inductive IsCause (scope : Scope) (f : Failure) : Prop
  /-- The text of a reference cannot be read. -/
  | reference : scope.types.IsUnreadable scope.types.modules f → IsCause scope f
  /-- A factory fails when it is asked. -/
  | factory {m : Moment} : scope.Reads m → scope.types.IsFault m f → IsCause scope f
  /-- A value is not documented. -/
  | value (d : Datum) : d.toValue = .error f → IsCause scope f
  /-- A value that cannot be a key stands in the place of an encoding. -/
  | encoding (place : Datum) : place.obstacle?.map Failure.notAKey = some f → IsCause scope f

theorem isCause_of_fieldsOf {t : TypeExpr} {m : Moment} {f : Failure} (hm : scope.Reads m)
    (h : scope.types.fieldsOf t m = .error f) : scope.IsCause f :=
  (Declarations.fault_of_fieldsOf_eq_error h).elim .reference (.factory hm)

theorem isCause_of_typedErrands {t : TypeExpr} {p : Param} {w : Warning} {f : Failure}
    (h : .stop f ∈ scope.typedErrands t p w) : scope.IsCause f := by
  rcases List.mem_append.1 h with h | h
  · unfold typeErrands at h
    cases hd : scope.describe t with
    | ok d => simp [hd] at h
    | error g =>
      obtain rfl : f = g := by simpa [hd] using h
      obtain ⟨u, -, d, -, hfail⟩ := exists_of_describe_eq_error hd
      exact .value d hfail
  · cases hs : scope.fragment t with
    | none => simp [hs] at h
    | some s =>
      rw [hs] at h
      unfold defaultErrands documentedDefault at h
      cases hdefault : p.hasDefault with
      | false => simp [hdefault] at h
      | true =>
        cases hv : p.default.toValue with
        | ok v => simp [hdefault, hv, Except.map] at h
        | error g =>
          obtain rfl : f = g := by simpa [hdefault, hv, Except.map] using h
          exact .value p.default hv

theorem isCause_of_typeErrands {t : TypeExpr} {f : Failure} (h : .stop f ∈ scope.typeErrands t) :
    scope.IsCause f :=
  isCause_of_typedErrands (p := default) (w := default) (List.mem_append_left _ h)

theorem isCause_of_structErrands {t : TypeExpr} {f : Failure} (h : .stop f ∈ scope.structErrands t) :
    scope.IsCause f := by
  unfold structErrands at h
  cases hf : scope.fieldsOf t with
  | error g =>
    obtain rfl : f = g := by simpa [hf] using h
    exact isCause_of_fieldsOf (.component _) hf
  | ok fields =>
    rw [hf] at h
    obtain ⟨p, -, hp⟩ := List.mem_flatMap.1 h
    exact isCause_of_typedErrands hp

theorem isCause_of_paramErrands {location : Location} {turn : Nat} {p : Param} {f : Failure}
    (h : .stop f ∈ scope.paramErrands location turn p) : scope.IsCause f := by
  unfold paramErrands at h
  cases hc : scope.candidates turn p with
  | error g =>
    obtain rfl : f = g := by simpa [hc] using h
    unfold candidates at hc
    dsimp only at hc
    split at hc
    · exact isCause_of_fieldsOf (.gathering turn) hc
    · cases hc
  | ok candidates =>
    rw [hc] at h
    obtain ⟨q, -, hq⟩ := List.mem_flatMap.1 h
    exact isCause_of_typedErrands hq

theorem isCause_of_turnErrands {ps : List (Location × Param × Nat)} {f : Failure}
    (h : .stop f ∈ scope.turnErrands ps) : scope.IsCause f :=
  (List.mem_flatMap.1 h).elim fun _ hq => isCause_of_paramErrands hq.2

theorem isCause_of_contentErrands {ps : List Param} {f : Failure} (h : .stop f ∈ scope.contentErrands ps) :
    scope.IsCause f := by
  unfold contentErrands Content.content at h
  cases hfound : ps.findSome? (Content.obstacle? scope.types) with
  | none => simp [hfound] at h
  | some kind =>
    obtain rfl : f = .notAKey kind := by simpa [hfound] using h
    obtain ⟨p, -, hp⟩ := List.exists_of_findSome?_eq_some hfound
    unfold Content.obstacle? at hp
    split at hp
    · cases hp
    · next place _ => exact .encoding place (by rw [hp]; rfl)

theorem isCause_of_routeErrands {route : Route} {f : Failure} (h : .stop f ∈ scope.routeErrands route) :
    scope.IsCause f := by
  rcases List.mem_append.1 h with h | h
  · rcases List.mem_append.1 h with h | h
    · obtain ⟨p, -, hp⟩ := List.mem_flatMap.1 h
      exact absurd hp (stop_notMem_bodyErrands p f)
    · exact isCause_of_turnErrands h
  · rcases List.mem_append.1 h with h | h
    · exact isCause_of_contentErrands h
    · obtain ⟨t, -, ht⟩ := List.mem_flatMap.1 h
      exact isCause_of_typeErrands ht

/-- From every registry, the step gives the result, or it fails for such a cause. -/
def Gives {α : Type} (scope : Scope) (step : Build α) (a : α) : Prop :=
  ∀ b, (∃ after, step.run' b = (.ok a, after)) ∨ ∃ f after, step.run' b = (.error f, after) ∧ scope.IsCause f

/-- A step whose errands fail for such causes alone gives its result. -/
theorem Follows.gives {α : Type} {step : Build α} {es : List Errand} {a : α}
    (h : scope.Follows scope.depth step es a) (hcause : ∀ f, .stop f ∈ es → scope.IsCause f) :
    scope.Gives step a := by
  intro b
  obtain ⟨us, ws, r, htrav, hout⟩ := h.total b
  cases r with
  | none => exact .inl ⟨_, hout⟩
  | some f =>
    obtain ⟨after, hrun, -⟩ := hout
    refine .inr ⟨f, after, hrun, ?_⟩
    rcases htrav.stop_mem with hf | ⟨u, -, hf⟩
    · exact hcause f hf
    · exact isCause_of_structErrands hf

/-- A traversal fails for such a cause. -/
theorem isCause_of_traverses {seen : List String} {route : Route} {us : List TypeExpr} {ws : List Warning}
    {f : Failure} (h : scope.Traverses seen (scope.routeErrands route) us ws (some f)) : scope.IsCause f :=
  h.stop_mem.elim isCause_of_routeErrands fun ⟨_, _, hu⟩ => isCause_of_structErrands hu

/-- A traversal does not fail exactly when nothing fails in the route and in the types that are entered. -/
theorem eq_none_iff_converts {seen : List String} {route : Route} {us : List TypeExpr} {ws : List Warning}
    {r : Option Failure} (h : scope.Traverses seen (scope.routeErrands route) us ws r) :
    r = none ↔ scope.RouteConverts route ∧ ∀ u ∈ us, scope.FieldsConvert u := by
  constructor
  · rintro rfl
    refine ⟨stop_notMem_routeErrands_iff.1 fun f => (h.stop_notMem f).1, fun u hu => ?_⟩
    exact stop_notMem_structErrands_iff_fieldsConvert.1 fun f => (h.stop_notMem f).2 u hu
  · rintro ⟨hroute, hfields⟩
    cases r with
    | none => rfl
    | some f =>
      rcases h.stop_mem with hf | ⟨u, hu, hf⟩
      · exact absurd hf (stop_notMem_routeErrands_iff.2 hroute f)
      · exact absurd hf (stop_notMem_structErrands_iff_fieldsConvert.2 (hfields u hu) f)

end Scope

namespace Documentation

variable {d : Documentation} {scope : Scope} {route : Route}

/-! ### Calls that return -/

/-- Where nothing was merged by hand, a route whose traversal does not fail is documented. -/
theorem run_register_of_none (hpaths : d.document.HasPaths) (hmaps : d.document.MapsAbove IsPlace)
    (hopen : d.finalized = false) {us : List TypeExpr} {ws : List Warning}
    (htrav : scope.Traverses d.registry.names (scope.routeErrands route) us ws none) :
    ∃ e, run (register scope route) d = (.ok (scope.operationOf route (d.routeTags route)), e) ∧
      e.warnings = d.warnings ++ ws := by
  have hrun := run_register_of_traverses hopen htrav
  rw [run_publish_overlays hpaths (Scope.finished_fresh htrav) (Scope.finished_nodup htrav)
    (fun n _ => .inl ⟨n, rfl⟩) (apart_of_isPlace fun _ hp => hp) hmaps route.isPlace] at hrun
  exact ⟨_, hrun, rfl⟩

/-- **When documenting a route returns.**  In every open documentation to which calls without overrides lead, the
call makes one finite traversal.  It gives an operation, with notices of what is left out, exactly when nothing
fails in the route and in the types that it enters; otherwise it fails, because of a reference that cannot be read, a
factory that fails, a value that is not documented, or one that cannot be a key in the place of an encoding. -/
theorem register_returns_iff (s : Settings) (calls : List Call) (hcalls : ∀ c ∈ calls, c.isOverride = false)
    (scope : Scope) (route : Route) (hopen : ((new s).afterCalls calls).finalized = false) :
    ∃ us ws r, scope.Traverses ((new s).afterCalls calls).registry.names (scope.routeErrands route) us ws r ∧
      ((∃ o e, run (register scope route) ((new s).afterCalls calls) = (.ok o, e)) ↔
        scope.RouteConverts route ∧ ∀ u ∈ us, scope.FieldsConvert u) ∧
      (∀ o e, run (register scope route) ((new s).afterCalls calls) = (.ok o, e) →
        o = scope.operationOf route (((new s).afterCalls calls).routeTags route) ∧
          e.warnings = ((new s).afterCalls calls).warnings ++ ws) ∧
      ∀ f e, run (register scope route) ((new s).afterCalls calls) = (.error f, e) → scope.IsCause f := by
  generalize hd : (new s).afterCalls calls = d at *
  have hpaths : d.document.HasPaths := hd ▸ hasPaths_afterCalls (hasPaths_new s) calls
  have hmaps : d.document.MapsAbove IsPlace := hd ▸ mapsAbove_afterCalls s hcalls
  obtain ⟨us, ws, r, htrav, hout⟩ :=
    (Scope.follows_operation route (d.routeTags route)).total ⟨d.registry, d.warnings⟩
  refine ⟨us, ws, r, htrav, ?_⟩
  rw [← Scope.eq_none_iff_converts htrav]
  cases r with
  | none =>
    obtain ⟨e, hrun, hws⟩ := run_register_of_none hpaths hmaps hopen htrav
    rw [hrun]
    refine ⟨by simp, fun o e' h => ?_, fun f e' h => ?_⟩
    · cases h
      exact ⟨rfl, hws⟩
    · cases h
  | some f =>
    obtain ⟨b, hb, -⟩ := hout
    rw [run_register hopen, hb]
    refine ⟨by simp, fun o e h => ?_, fun g e h => ?_⟩
    · cases h
    · cases h
      exact Scope.isCause_of_traverses htrav

/-- Documenting trees, under tags that were given before. -/
theorem register_returns_iff_trees :
    ∃ us ws r,
      Scope.trees.Traverses [] (Scope.trees.routeErrands gettingTrees) us ws r ∧
        Scope.trees.RouteConverts gettingTrees ∧ ∀ u ∈ us, Scope.trees.FieldsConvert u := by
  have hok : (run (register Scope.trees gettingTrees)
      ((new default).afterCalls [.tag "/trees" (.list [.str "get"]) (.list [.str "trees"])])).1.toBool = true := by
    decide +kernel
  obtain ⟨us, ws, r, htrav, hiff, -⟩ := register_returns_iff default
    [.tag "/trees" (.list [.str "get"]) (.list [.str "trees"])] (by decide) Scope.trees gettingTrees
    (by decide +kernel)
  have hnames : ((new default).afterCalls
      [.tag "/trees" (.list [.str "get"]) (.list [.str "trees"])]).registry.names = [] := by decide +kernel
  rw [hnames] at htrav
  exact ⟨us, ws, r, htrav, hiff.1 (exists_run_eq_ok hok)⟩

/-- A route with a parameter whose default is octets. -/
def readingOctets (octets : List UInt8) : Route :=
  ⟨"/data", "GET", [], [⟨"data", .builtin .bytes, false, true, .bytes octets⟩], [], [], [], []⟩

/-- **A default that is no text fails the whole route**, although a text could stand in its place. -/
theorem octets_fail_route :
    (new default).finalized = false ∧
      (run (register ⟨[], 2024, 0⟩ (readingOctets [0x61])) (new default)).1.toBool = true ∧
      ¬ ∃ o e, run (register ⟨[], 2024, 0⟩ (readingOctets [0xff])) (new default) = (.ok o, e) := by
  have hfails : (run (register ⟨[], 2024, 0⟩ (readingOctets [0xff])) (new default)).1.toBool = false := by
    decide +kernel
  refine ⟨rfl, by decide +kernel, ?_⟩
  rintro ⟨o, e, hrun⟩
  rw [hrun] at hfails
  cases hfails

end Documentation

end RouteDoc
