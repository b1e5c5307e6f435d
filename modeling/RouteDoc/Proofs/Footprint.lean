import RouteDoc.Proofs.Atomicity
import RouteDoc.Proofs.KeyPath
import RouteDoc.Proofs.Mirror

/-!
# Footprints

Documenting a route lays two overrides over the document: one with the components that are new, one with the
operation under its path and method.  An override reaches no further than the places that it gives values to;
above them mappings only gain keys behind those they have, and everything else stays.  So what users merged in
survives, as long as it is no part of what later routes are about to write themselves.

* `Value.ConfinedTo` — the places that an override gives values to;
* `Value.AlikeExceptAt`, `Value.alike_over` — the frame of an override, and that it composes;
* `Documentation.run_publish_overlays` — documenting a route, as two overrides of the document;
* `Documentation.alike_afterCalls` — what a run without overrides by hand leaves alone;
* `Documentation.overrides_survive` — the frame of such a run, for every documentation that calls lead to.
-/

namespace RouteDoc

namespace Value

variable {u v w o : Value} {p q : KeyPath} {places places' : KeyPath → Prop}

/-! ### Frames -/

/-- What stands at the path, if anything, is a mapping. -/
def MapAt (v : Value) (p : KeyPath) : Prop := ∀ w, v.at? p = some w → w.isMap = true

instance : Decidable (v.MapAt p) :=
  decidable_of_iff ((v.at? p).all isMap = true) (by simp [MapAt, Option.all_eq_true])

/-- Only mappings stand above the places. -/
def MapsAbove (places : KeyPath → Prop) (v : Value) : Prop :=
  ∀ p q, places q → p <+: q → p ≠ q → v.MapAt p

/-- A mapping keeps its keys in their order and may gain others behind them; where nothing stood, a mapping may
appear. -/
inductive Grows : Option Value → Option Value → Prop
  | absent : Grows none none
  | created {es : Entries} : Grows none (some (.map es))
  | extended {es fs : Entries} : es.keys <+: fs.keys → Grows (some (.map es)) (some (.map fs))

/-- The two values are the same except at some places and below them: above the places mappings grow, and at every
other path stands what stood there. -/
structure AlikeExceptAt (places : KeyPath → Prop) (v w : Value) : Prop where
  above : ∀ p q, places q → p <+: q → p ≠ q → Grows (v.at? p) (w.at? p)
  elsewhere : ∀ p, (∀ q, places q → ¬ q <+: p ∧ ¬ p <+: q) → w.at? p = v.at? p

theorem Grows.refl_of_mapAt (h : v.MapAt p) : Grows (v.at? p) (v.at? p) := by
  cases hp : v.at? p with
  | none => exact .absent
  | some w =>
    have hw : w.isMap = true := h w hp
    cases w with
    | map es => exact .extended (List.prefix_refl _)
    | _ => cases hw

theorem Grows.trans {a b c : Option Value} (hab : Grows a b) (hbc : Grows b c) : Grows a c := by
  cases hab with
  | absent => exact hbc
  | created =>
    cases hbc with
    | extended _ => exact .created
  | extended h =>
    cases hbc with
    | extended h' => exact .extended (h.trans h')

theorem Grows.mapAt {a : Option Value} (h : Grows a (w.at? p)) : w.MapAt p := by
  intro x hx
  rw [hx] at h
  cases h <;> rfl

theorem AlikeExceptAt.refl (h : v.MapsAbove places) : AlikeExceptAt places v v :=
  ⟨fun p q hq hpq hne => .refl_of_mapAt (h p q hq hpq hne), fun _ _ => rfl⟩

theorem AlikeExceptAt.trans (huv : AlikeExceptAt places u v) (hvw : AlikeExceptAt places v w) :
    AlikeExceptAt places u w := by
  constructor
  · intro p q hq hpq hne
    exact (huv.above p q hq hpq hne).trans (hvw.above p q hq hpq hne)
  · intro p hp
    rw [hvw.elsewhere p hp, huv.elsewhere p hp]

/-- Above the places there are still mappings. -/
theorem AlikeExceptAt.mapsAbove (h : AlikeExceptAt places v w) : w.MapsAbove places :=
  fun p q hq hpq hne => (h.above p q hq hpq hne).mapAt

/-! ### What an override reaches -/

theorem keys_prefix_set (key : Key) (value : Value) (es : Entries) : es.keys <+: (es.set key value).keys := by
  induction es with
  | nil => exact List.nil_prefix
  | cons e es ih =>
    obtain ⟨k, v⟩ := e
    rw [Entries.set]
    split
    · exact List.prefix_refl _
    · exact List.cons_prefix_cons.2 ⟨rfl, ih⟩

/-- **An override moves no key**: those that are there stay in front. -/
theorem keys_prefix_merge (base os : Entries) : base.keys <+: (base.merge os).keys := by
  induction os generalizing base with
  | nil =>
    rw [Entries.merge]
  | cons o os ih =>
    obtain ⟨k, v⟩ := o
    rw [Entries.merge]
    exact (keys_prefix_set _ _ _).trans (ih _)

/-- The override gives values only at the places and below them: above a place it has mappings, and any other
path it leaves alone.  No mapping on the way names a key twice. -/
def ConfinedTo (o : Value) (places : KeyPath → Prop) : Prop :=
  ∀ p, (∀ q, places q → ¬ q <+: p) →
    o.DistinctAbove p ∧ ((∃ q, places q ∧ p <+: q) ∧ (∃ os, o.at? p = some (.map os)) ∨ o.Omits p)

theorem confinedTo_root (o : Value) : o.ConfinedTo (· = []) :=
  fun _ hp => absurd List.nil_prefix (hp [] rfl)

theorem ConfinedTo.mono (h : o.ConfinedTo places) (hsub : ∀ q, places q → places' q) : o.ConfinedTo places' := by
  intro p hp
  obtain ⟨hd, hcase⟩ := h p fun q hq => hp q (hsub q hq)
  exact ⟨hd, hcase.imp_left fun ⟨⟨q, hq, hpq⟩, hos⟩ => ⟨⟨q, hsub q hq, hpq⟩, hos⟩⟩

/-- The places of a mapping whose members have theirs. -/
def PlacesUnder (members : List (String × Value)) (under : String → KeyPath → Prop) (p : KeyPath) : Prop :=
  ∃ m ∈ members, ∃ q, under m.1 q ∧ p = .str m.1 :: q

/-- An override by members reaches what its members reach. -/
theorem confinedTo_object {members : List (String × Value)} {under : String → KeyPath → Prop}
    (hne : members ≠ []) (hkeys : (members.map (·.1)).Nodup) (hunder : ∀ m ∈ members, ∃ q, under m.1 q)
    (hmembers : ∀ m ∈ members, m.2.ConfinedTo (under m.1)) :
    (Value.object members).ConfinedTo (PlacesUnder members under) := by
  obtain ⟨es, hobject, hdistinct, hget⟩ := object_eq_map hkeys
  rw [hobject]
  intro p hp
  cases p with
  | nil =>
    obtain ⟨m, hm⟩ := List.exists_mem_of_ne_nil members hne
    obtain ⟨q, hq⟩ := hunder m hm
    refine ⟨fun q es hqp hqne _ => absurd (List.prefix_nil.1 hqp) hqne, .inl ⟨?_, _, at?_nil _⟩⟩
    exact ⟨.str m.1 :: q, ⟨m, hm, q, hq, rfl⟩, List.nil_prefix⟩
  | cons k p =>
    cases hk : Entries.get? k es with
    | none =>
      refine ⟨.cons hdistinct fun w hw => ?_, .inr (.missing hk)⟩
      rw [hk] at hw
      cases hw
    | some w =>
      obtain ⟨m, hm, rfl, rfl⟩ := hget k w hk
      have hbelow : ∀ q, under m.1 q → ¬ q <+: p := by
        intro q hq hqp
        exact hp (.str m.1 :: q) ⟨m, hm, q, hq, rfl⟩ (List.cons_prefix_cons.2 ⟨rfl, hqp⟩)
      obtain ⟨hd, hcase⟩ := hmembers m hm p hbelow
      refine ⟨.cons hdistinct fun w hw => ?_, ?_⟩
      · cases hk.symm.trans hw
        exact hd
      · rcases hcase with ⟨⟨q, hq, hpq⟩, os, hos⟩ | homits
        · have hplace : PlacesUnder members under (.str m.1 :: q) := ⟨m, hm, q, hq, rfl⟩
          refine .inl ⟨⟨.str m.1 :: q, hplace, List.cons_prefix_cons.2 ⟨rfl, hpq⟩⟩, os, ?_⟩
          rw [at?_map_cons, hk]
          exact hos
        · exact .inr (.inside hk homits)

theorem confinedTo_single {k : String} (h : o.ConfinedTo places) (hplace : ∃ q, places q) :
    (Value.object [(k, o)]).ConfinedTo fun p => ∃ q, places q ∧ p = .str k :: q := by
  have hconfined : (Value.object [(k, o)]).ConfinedTo (PlacesUnder [(k, o)] fun _ => places) :=
    confinedTo_object (by simp) (by simp) (by simpa using hplace) (by simpa using h)
  refine hconfined.mono ?_
  rintro _ ⟨m, hm, q, hq, rfl⟩
  cases List.mem_singleton.1 hm
  exact ⟨q, hq, rfl⟩

/-- No place lies above another one. -/
def Apart (places : KeyPath → Prop) : Prop := ∀ q r, places q → places r → q <+: r → q = r

/-- **The frame of an override.**  Where only mappings stand above some places, none of which lies above another,
an override that is confined to them changes nothing else. -/
theorem alike_over (hconfined : o.ConfinedTo places) (hapart : Apart places) (hmaps : v.MapsAbove places) :
    AlikeExceptAt places v (Value.over (some v) o) := by
  constructor
  · intro p q hq hpq hne
    have hnone : ∀ r, places r → ¬ r <+: p := by
      intro r hr hrp
      have hrq : r = q := hapart r q hr hq (hrp.trans hpq)
      subst hrq
      exact hne (hpq.eq_of_length_le hrp.length_le)
    have hv : v.MapAt p := hmaps p q hq hpq hne
    obtain ⟨hd, ⟨-, os, hos⟩ | homits⟩ := hconfined p hnone
    · rw [at?_over_of_at? hd.unrepeatedAbove hos, Option.bind_some]
      cases hp : v.at? p with
      | none =>
        rw [over_none]
        exact .created
      | some w =>
        have hw : w.isMap = true := hv w hp
        cases w with
        | map base =>
          rw [over_map_map]
          exact .extended (keys_prefix_merge base os)
        | _ => cases hw
    · rw [homits.at?_over hd.unrepeatedAbove]
      exact .refl_of_mapAt hv
  · intro p hp
    obtain ⟨hd, ⟨⟨q, hq, hpq⟩, -⟩ | homits⟩ := hconfined p fun r hr => (hp r hr).1
    · exact absurd hpq (hp q hq).2
    · exact homits.at?_over hd.unrepeatedAbove _

end Value

/-! ### Overrides of documents -/

namespace Value

variable {v w override : Value} {path : String} {os : Entries}

/-- The override of a document that lays an override over one of its paths. -/
def pathOverride (path : String) (override : Value) : Value := .object [("paths", .object [(path, override)])]

theorem mergeInto_eq_over (hv : v.isMap = true) (hoverride : override.isMap = true) :
    v.mergeInto override = .ok (Value.over (some v) override) := by
  cases v with
  | map es =>
    cases override with
    | map os => rw [over_map_map]; rfl
    | _ => cases hoverride
  | _ => cases hv

theorem MapAt.of_get? {es : Entries} {k : Key} (h : (Value.map es).MapAt [k]) {w : Value}
    (hw : es.get? k = some w) : ∃ fs : Entries, w = .map fs := by
  have hmap : w.isMap = true := h w (by simp [hw])
  cases w with
  | map fs => exact ⟨fs, rfl⟩
  | _ => cases hmap

theorem over_pathOverride (es : Entries) (path : String) (override : Value) :
    Value.over (some (.map es)) (pathOverride path override) =
      .map (es.set (.str "paths") (.map ((entriesOf (es.get? (.str "paths"))).set (.str path)
        (Value.over ((entriesOf (es.get? (.str "paths"))).get? (.str path)) override)))) := by
  have hitem : Entries.Unrepeated [(.str path, override)] := List.pairwise_singleton _ _
  show Value.over (some (.map es)) (.map [(.str "paths", .map [(.str path, override)])]) = _
  rw [over_map_map, Entries.merge, Entries.merge, over_map hitem, Entries.merge, Entries.merge]

/-- A document with a mapping for its paths, or with nothing there, is opened by giving it one. -/
theorem exists_openPaths {es : Entries} (hpaths : (Value.map es).MapAt [.str "paths"]) :
    ∃ opened : Entries, (Value.map es).openPaths = .ok (.map opened) ∧
      opened.get? (.str "paths") = some (.map (entriesOf (es.get? (.str "paths")))) ∧
      ∀ v, opened.set (.str "paths") v = es.set (.str "paths") v := by
  cases hget : es.get? (.str "paths") with
  | none =>
    have hhas : es.has (.str "paths") = false := by rw [Entries.has, hget]; rfl
    have hsame : (Key.str "paths").same (.str "paths") = true := by simp
    refine ⟨es.set (.str "paths") (.map []), ?_, ?_, fun v => Entries.set_set hsame _ v es⟩
    · simp [openPaths, entriesFor, bind, Except.bind, hhas, Entries.set_of_not_has]
    · rw [Entries.get?_set, if_pos hsame]
      rfl
  | some w =>
    obtain ⟨paths, rfl⟩ := hpaths.of_get? hget
    have hopen : (Value.map es).openPaths = .ok (.map es) :=
      HasPaths.openPaths ⟨es, rfl, by rw [Entries.has, hget]; rfl⟩
    exact ⟨es, hopen, hget, fun _ => rfl⟩

/-- An override of a mapping, or of nothing, is laid over it. -/
theorem merge_getD {item : Option Value} (hitem : ∀ w, item = some w → w.isMap = true) (hos : os.Unrepeated) :
    (item.getD (.map [])).merge (.map os) = .ok (Value.over item (.map os)) := by
  cases item with
  | none =>
    have hfresh : Entries.merge [] os = os := Entries.merge_of_fresh hos fun _ _ => rfl
    rw [over_none]
    show Except.ok (Value.map (Entries.merge [] os)) = _
    rw [hfresh]
  | some w =>
    have hw : w.isMap = true := hitem w rfl
    cases w with
    | map base => rw [over_map_map]; rfl
    | _ => cases hw

/-- Where only mappings stand above the path, laying an override over it is an override of the document. -/
theorem mergeRoute_eq_over (hv : v.isMap = true) (hos : os.Unrepeated) (hpaths : v.MapAt [.str "paths"])
    (hitem : v.MapAt [.str "paths", .str path]) :
    v.mergeRoute path (.map os) = .ok (Value.over (some v) (pathOverride path (.map os))) := by
  cases v with
  | map es =>
    obtain ⟨opened, hopen, hget, hset⟩ := exists_openPaths hpaths
    have hmaps : ∀ w, (entriesOf (Entries.get? (.str "paths") es)).get? (.str path) = some w → w.isMap = true := by
      intro w hw
      refine hitem w ?_
      rw [at?_map_cons, bind_at?_cons, hw, Option.bind_some, at?_nil]
    rw [mergeRoute, hopen, over_pathOverride]
    simp only [mergePath, entriesFor, bind, Except.bind, hget, Option.getD_some, merge_getD hmaps hos, hset]
  | _ => cases hv

end Value

/-! ### Places of a document -/

/-- Where a component stands in a document. -/
def componentPath (name : String) : KeyPath := [.str "components", .str "schemas", .str name]

/-- Where the operation of a method under a path stands in a document. -/
def operationPath (path method : String) : KeyPath := [.str "paths", .str path, .str method]

/-- The path under which a route is documented. -/
def Route.pathKey (route : Route) : String := PathTemplate.clean route.path

/-- The key of the method under which a route is documented. -/
def Route.methodKey (route : Route) : String := Method.key (Method.normalize route.method)

/-- Where the operation of a route stands in a document. -/
def Route.place (route : Route) : KeyPath := operationPath route.pathKey route.methodKey

/-- The place of a component or of an operation. -/
def IsPlace (p : KeyPath) : Prop := (∃ n, p = componentPath n) ∨ ∃ path method, p = operationPath path method

theorem IsPlace.length_eq {p : KeyPath} (h : IsPlace p) : p.length = 3 := by
  rcases h with ⟨n, rfl⟩ | ⟨path, method, rfl⟩ <;> rfl

theorem Route.isPlace (route : Route) : IsPlace route.place := .inr ⟨_, _, rfl⟩

theorem apart_of_isPlace {places : KeyPath → Prop} (h : ∀ p, places p → IsPlace p) : Value.Apart places := by
  intro q r hq hr hqr
  have hlength : q.length = r.length := (h q hq).length_eq.trans (h r hr).length_eq.symm
  exact hqr.eq_of_length hlength

/-! ### Documenting a route -/

/-- The call applies an override by hand. -/
def Call.isOverride : Call → Bool
  | .mergeInto _ | .mergeRoute _ _ => true
  | _ => false

namespace Documentation

open Value

variable {d : Documentation} {c : Call} {calls : List Call} {places : KeyPath → Prop}

theorem componentsOverride_confined {added : Registry} (hne : added ≠ []) (hnodup : added.names.Nodup) :
    (componentsOverride added).ConfinedTo fun p => ∃ n ∈ added.names, p = componentPath n := by
  have hkeys : (added.toEntries.map (·.1)).Nodup := by rwa [toEntries_names]
  obtain ⟨e, he⟩ := List.exists_mem_of_ne_nil added hne
  have hschemas : (Value.object added.toEntries).ConfinedTo (PlacesUnder added.toEntries fun _ => (· = [])) :=
    confinedTo_object (by simpa [Registry.toEntries] using hne) hkeys (fun _ _ => ⟨[], rfl⟩)
      fun m _ => confinedTo_root m.2
  have hplace : ∃ q, PlacesUnder added.toEntries (fun _ => (· = [])) q :=
    ⟨_, (e.1, e.2.toValue), List.mem_map.2 ⟨e, he, rfl⟩, [], rfl, rfl⟩
  refine (confinedTo_single (confinedTo_single hschemas hplace) ?_).mono ?_
  · obtain ⟨q, hq⟩ := hplace
    exact ⟨_, q, hq, rfl⟩
  · rintro _ ⟨_, ⟨_, ⟨m, hm, _, rfl, rfl⟩, rfl⟩, rfl⟩
    obtain ⟨e, he, rfl⟩ := List.mem_map.1 hm
    exact ⟨e.1, List.mem_map_of_mem he, rfl⟩

/-- The override of a document that documenting a route comes to, apart from components. -/
def routeOverride (route : Route) (o : Operation) : Value :=
  pathOverride (route.pathKey) (operationOverride route.method o)

theorem routeOverride_confined (route : Route) (o : Operation) :
    (routeOverride route o).ConfinedTo (· = route.place) := by
  have hoperation := confinedTo_single (k := route.methodKey)
    (confinedTo_root o.toValue) ⟨[], rfl⟩
  have hitem := confinedTo_single (k := route.pathKey) hoperation ⟨_, [], rfl, rfl⟩
  refine (confinedTo_single hitem ⟨_, _, ⟨[], rfl, rfl⟩, rfl⟩).mono ?_
  rintro _ ⟨_, ⟨_, ⟨_, rfl, rfl⟩, rfl⟩, rfl⟩
  rfl

/-- A document with new components laid over it. -/
def overlaid (document : Value) (added : Registry) : Value :=
  if added.isEmpty then document else Value.over (some document) (componentsOverride added)

theorem withComponents_eq_overlaid {v : Value} (hv : v.isMap = true) (added : Registry) :
    withComponents v added = .ok (overlaid v added) := by
  unfold withComponents overlaid
  split
  · rfl
  · exact mergeInto_eq_over hv rfl

theorem alike_overlaid {v : Value} {added : Registry} (hnodup : added.names.Nodup)
    (hplaces : ∀ n ∈ added.names, places (componentPath n)) (hapart : Apart places) (hmaps : v.MapsAbove places) :
    AlikeExceptAt places v (overlaid v added) := by
  unfold overlaid
  split
  · exact .refl hmaps
  · next h =>
    have hne : added ≠ [] := by simpa using h
    refine alike_over ((componentsOverride_confined hne hnodup).mono ?_) hapart hmaps
    rintro _ ⟨n, hn, rfl⟩
    exact hplaces n hn

theorem HasPaths.overlaid {v : Value} (hv : v.HasPaths) (added : Registry) : (overlaid v added).HasPaths := by
  obtain ⟨es, rfl, hes⟩ := hv
  unfold Documentation.overlaid
  split
  · exact ⟨es, rfl, hes⟩
  · rw [componentsOverride, Value.object, over_map_map]
    exact ⟨_, rfl, Entries.has_merge _ hes⟩

/-- **Publishing a route is laying two overrides over the document**, where only mappings stand above what they
write. -/
theorem run_publish_overlays (h : d.document.HasPaths) {added : Registry}
    (hnew : ∀ n ∈ added.names, n ∉ d.registry.names) (hnodup : added.names.Nodup)
    (hplaces : ∀ n ∈ added.names, places (componentPath n)) (hapart : Apart places)
    (hmaps : d.document.MapsAbove places) {route : Route} (hroute : places route.place) (o : Operation)
    (ws : List Warning) :
    run (publish d.registry route o) { d with registry := d.registry ++ added, warnings := ws } =
      (.ok o, { d with
        document := Value.over (some (overlaid d.document added)) (routeOverride route o)
        registry := d.registry ++ added
        warnings := ws }) := by
  have hmap : d.document.isMap = true := by
    obtain ⟨es, hes, -⟩ := h
    rw [hes]
    rfl
  have habove : (overlaid d.document added).MapsAbove places :=
    (alike_overlaid hnodup hplaces hapart hmaps).mapsAbove
  have hos : Entries.Unrepeated [(.str route.methodKey, o.toValue)] := List.pairwise_singleton _ _
  have hoverlaid : (overlaid d.document added).isMap = true := by
    obtain ⟨es, hes, -⟩ := HasPaths.overlaid h added
    rw [hes]
    rfl
  have hmerge : (overlaid d.document added).mergeRoute (PathTemplate.clean route.path)
      (operationOverride route.method o)
        = .ok (Value.over (some (overlaid d.document added)) (routeOverride route o)) :=
    mergeRoute_eq_over hoverlaid hos
      (habove [.str "paths"] _ hroute ⟨_, rfl⟩ (by simp [Route.place, operationPath]))
      (habove [.str "paths", .str route.pathKey] _ hroute ⟨_, rfl⟩ (by simp [Route.place, operationPath]))
  rw [run_publish, filter_not_has_append hnew, withComponents_eq_overlaid hmap]
  dsimp only
  rw [hmerge]

/-- **What documenting a route leaves alone**, whether it fails or not: all but the components that are new and
the operation of the route. -/
theorem alike_register (h : d.document.HasPaths) (hapart : Apart places) (hmaps : d.document.MapsAbove places)
    {scope : Scope} {route : Route} (hroute : places route.place)
    (hnames : ∀ n, n ∉ d.registry.names → n ∈ (run (register scope route) d).2.registry.names →
      places (componentPath n)) :
    AlikeExceptAt places d.document (run (register scope route) d).2.document := by
  rcases Bool.eq_false_or_eq_true d.finalized with hd | hd
  · rw [run_register_of_finalized hd]
    exact .refl hmaps
  · obtain ⟨us, ws, r, htrav, hout⟩ :=
      (Scope.follows_operation route (d.routeTags route)).total ⟨d.registry, d.warnings⟩
    cases r with
    | some f =>
      obtain ⟨b, hb, -⟩ := hout
      rw [run_register hd, hb]
      exact .refl hmaps
    | none =>
      have hnodup := Scope.finished_nodup htrav
      have hnew := Scope.finished_fresh htrav
      rw [run_register_of_traverses hd htrav] at hnames ⊢
      have hplaces : ∀ n ∈ Registry.names (us.map scope.finished), places (componentPath n) := by
        intro n hn
        obtain ⟨v, hv⟩ := publish_frame d.registry route (scope.operationOf route (d.routeTags route))
          { d with registry := d.registry ++ us.map scope.finished, warnings := d.warnings ++ ws }
        refine hnames n (hnew n hn) ?_
        rw [hv, Registry.names_append]
        exact List.mem_append_right _ hn
      rw [run_publish_overlays h hnew hnodup hplaces hapart hmaps hroute]
      have hcomponents := alike_overlaid hnodup hplaces hapart hmaps
      refine hcomponents.trans (alike_over ((routeOverride_confined route _).mono ?_) hapart hcomponents.mapsAbove)
      rintro _ rfl
      exact hroute

/-! ### Runs without overrides -/

/-- The places that a run of calls writes: those of the components that it registers, and of the operations of
its routes. -/
def footprint (d : Documentation) (calls : List Call) (p : KeyPath) : Prop :=
  (∃ n, n ∉ d.registry.names ∧ n ∈ (d.afterCalls calls).registry.names ∧ p = componentPath n) ∨
    ∃ c ∈ calls, ∃ scope route, c.route? = some (scope, route) ∧ p = route.place

theorem isPlace_of_footprint {p : KeyPath} (h : d.footprint calls p) : IsPlace p := by
  rcases h with ⟨n, -, -, rfl⟩ | ⟨c, -, scope, route, -, rfl⟩
  · exact .inl ⟨n, rfl⟩
  · exact route.isPlace

theorem names_subset_afterCalls (d : Documentation) (calls : List Call) :
    d.registry.names ⊆ (d.afterCalls calls).registry.names := by
  obtain ⟨log, hlog⟩ := RunEnters.total d calls
  rw [hlog.registry_after.2]
  exact List.subset_append_left _ _

/-- What the first call writes, and what the others write afterwards, the run writes. -/
theorem footprint_cons {p : KeyPath} (h : d.footprint [c] p ∨ (c.after d).footprint calls p) :
    d.footprint (c :: calls) p := by
  rcases h with (⟨n, hold, hnew, rfl⟩ | ⟨c', hc, hroute⟩) | (⟨n, hold, hnew, rfl⟩ | ⟨c', hc, hroute⟩)
  · exact .inl ⟨n, hold, names_subset_afterCalls (c.after d) calls hnew, rfl⟩
  · cases List.mem_singleton.1 hc
    exact .inr ⟨c, List.mem_cons_self, hroute⟩
  · exact .inl ⟨n, fun hn => hold (names_subset_afterCalls d [c] hn), hnew, rfl⟩
  · exact .inr ⟨c', List.mem_cons_of_mem _ hc, hroute⟩

/-- A call that neither describes a route nor overrides by hand leaves the document as it is. -/
theorem document_after_of_route?_eq_none (hr : c.route? = none) (hc : c.isOverride = false) :
    (c.after d).document = d.document := by
  cases c with
  | tag path methods tags =>
    obtain ⟨table, ht⟩ := Call.after_tag path methods tags d
    rw [ht]
  | tagsFor path method => rfl
  | register scope route => cases hr
  | registerHandler scope method path handler tags =>
    obtain ⟨f, hf⟩ := Call.run_registerHandler_of_route?_eq_none (d := d) hr
    rw [Call.after, hf]
  | mergeInto override => cases hc
  | mergeRoute path override => cases hc
  | finalize => rw [Call.after_finalize]

theorem alike_after (h : d.document.HasPaths) (hapart : Apart places) (hmaps : d.document.MapsAbove places)
    (hc : c.isOverride = false) (hplaces : ∀ p, d.footprint [c] p → places p) :
    AlikeExceptAt places d.document (c.after d).document := by
  cases hr : c.route? with
  | none =>
    rw [document_after_of_route?_eq_none hr hc]
    exact .refl hmaps
  | some sr =>
    obtain ⟨scope, route⟩ := sr
    have hroute : places route.place := hplaces _ (.inr ⟨c, List.mem_cons_self, scope, route, hr, rfl⟩)
    rw [Call.after_of_route? hr]
    refine alike_register h hapart hmaps hroute fun n hold hnew => hplaces _ (.inl ⟨n, hold, ?_, rfl⟩)
    rwa [afterCalls_cons, Call.after_of_route? hr]

/-- **A run without overrides by hand leaves everything alone** but its footprint. -/
theorem alike_afterCalls (h : d.document.HasPaths) (hapart : Apart places) (hmaps : d.document.MapsAbove places)
    (hcalls : ∀ c ∈ calls, c.isOverride = false) (hplaces : ∀ p, d.footprint calls p → places p) :
    AlikeExceptAt places d.document (d.afterCalls calls).document := by
  induction calls generalizing d with
  | nil => exact .refl hmaps
  | cons c calls ih =>
    have hfirst : AlikeExceptAt places d.document (c.after d).document :=
      alike_after h hapart hmaps (hcalls c List.mem_cons_self) fun p hp => hplaces p (footprint_cons (.inl hp))
    have hrest : AlikeExceptAt places (c.after d).document ((c.after d).afterCalls calls).document :=
      ih (hasPaths_after h c) hfirst.mapsAbove (fun b hb => hcalls b (List.mem_cons_of_mem _ hb))
        fun p hp => hplaces p (footprint_cons (.inr hp))
    exact hfirst.trans hrest

/-- Where the document has anything on the way to the components and to the paths of some calls, it has mappings
there. -/
structure Accommodates (v : Value) (calls : List Call) : Prop where
  components : v.MapAt [.str "components"]
  schemas : v.MapAt [.str "components", .str "schemas"]
  paths : v.MapAt [.str "paths"]
  items : ∀ c ∈ calls, ∀ scope route, c.route? = some (scope, route) →
    v.MapAt [.str "paths", .str (route.pathKey)]

theorem prefix_triple {p : KeyPath} {a b c : Key} (h : p <+: [a, b, c]) (hne : p ≠ [a, b, c]) :
    p = [] ∨ p = [a] ∨ p = [a, b] := by
  simp only [List.prefix_cons_iff, List.prefix_nil] at h
  grind

theorem Accommodates.mapsAbove {v : Value} (h : Accommodates v calls) (hv : v.HasPaths) :
    v.MapsAbove (d.footprint calls) := by
  have hroot : v.MapAt [] := by
    obtain ⟨es, rfl, -⟩ := hv
    intro w hw
    cases (at?_nil _).symm.trans hw
    rfl
  intro p q hq hpq hne
  rcases hq with ⟨n, -, -, rfl⟩ | ⟨c, hc, scope, route, hr, rfl⟩
  · rcases prefix_triple hpq hne with rfl | rfl | rfl
    · exact hroot
    · exact h.components
    · exact h.schemas
  · rcases prefix_triple hpq hne with rfl | rfl | rfl
    · exact hroot
    · exact h.paths
    · exact h.items c hc scope route hr

/-- A place that was not written holds what it held. -/
theorem at?_of_alike {v w : Value} (h : AlikeExceptAt places v w) (hplaces : ∀ q, places q → IsPlace q)
    {p : KeyPath} (hp : IsPlace p) (hout : ¬ places p) (r : KeyPath) : w.at? (p ++ r) = v.at? (p ++ r) := by
  refine h.elsewhere _ fun q hq => ?_
  have hlength : q.length = p.length := (hplaces q hq).length_eq.trans hp.length_eq.symm
  constructor
  · intro hqp
    have heq : q = p := by
      rw [List.prefix_iff_eq_take.1 hqp, hlength, List.take_left]
    exact hout (heq ▸ hq)
  · intro hpq
    have heq : p = q := ((List.prefix_append p r).trans hpq).eq_of_length hlength.symm
    exact hout (heq.symm ▸ hq)

/-- **Overrides survive.**  In every documentation that calls lead to, and where only mappings stand above what
they write, any further calls that override nothing by hand change nothing but the components that are
registered by them and the operations of their routes.  Registered components, the description of the service
and other operations are as they were. -/
theorem overrides_survive (s : Settings) (calls later : List Call) {d e : Documentation}
    (hd : d = (new s).afterCalls calls) (he : e = d.afterCalls later)
    (hlater : ∀ c ∈ later, c.isOverride = false) (hmaps : Accommodates d.document later) :
    AlikeExceptAt (d.footprint later) d.document e.document ∧
      (∀ n ∈ d.registry.names, ∀ r,
        e.document.at? (componentPath n ++ r) = d.document.at? (componentPath n ++ r)) ∧
      (∀ r, e.document.at? (.str "info" :: r) = d.document.at? (.str "info" :: r)) ∧
      (∀ path method, (∀ c ∈ later, ∀ scope route, c.route? = some (scope, route) →
          route.place ≠ operationPath path method) → ∀ r,
        e.document.at? (operationPath path method ++ r) = d.document.at? (operationPath path method ++ r)) := by
  subst he
  have hpaths : d.document.HasPaths := hd ▸ hasPaths_afterCalls (hasPaths_new s) calls
  have hplaces : ∀ q, d.footprint later q → IsPlace q := fun q hq => isPlace_of_footprint hq
  have halike : AlikeExceptAt (d.footprint later) d.document (d.afterCalls later).document :=
    alike_afterCalls hpaths (apart_of_isPlace hplaces) (hmaps.mapsAbove hpaths) hlater fun _ hp => hp
  refine ⟨halike, fun n hn r => ?_, fun r => ?_, fun path method hother r => ?_⟩
  · refine at?_of_alike halike hplaces (.inl ⟨n, rfl⟩) ?_ r
    rintro (⟨m, hm, -, heq⟩ | ⟨c, -, scope, route, -, heq⟩)
    · cases heq
      exact hm hn
    · simp [componentPath, Route.place, operationPath] at heq
  · refine halike.elsewhere _ fun q hq => ?_
    rcases hplaces q hq with ⟨n, rfl⟩ | ⟨path, method, rfl⟩ <;>
      simp [componentPath, operationPath, List.cons_prefix_cons]
  · refine at?_of_alike halike hplaces (.inr ⟨path, method, rfl⟩) ?_ r
    rintro (⟨m, -, -, heq⟩ | ⟨c, hc, scope, route, hr, heq⟩)
    · simp [componentPath, operationPath] at heq
    · exact hother c hc scope route hr heq.symm

/-- A route that gives labels. -/
def gettingLabels : Route := ⟨"/labels", "GET", [], [], [], [], [.declared "Label"], []⟩

/-- The route is documented, and then it and the component of labels are described further by hand. -/
def describedLabels : List Call :=
  [.register Scope.trees gettingLabels,
    .mergeInto (.object
      [("components", .object [("schemas", .object [("Label", .object [("description", .str "A short text.")])])]),
        ("paths", .object [("/labels", .object [("get", .object [("deprecated", .bool true)])])])])]

/-- A route that gives trees, which have labels. -/
def gettingTrees : Route := ⟨"/trees", "GET", [], [], [], [], [.declared "Node"], []⟩

/-- The route is documented under a tag. -/
def documentedTrees : List Call :=
  [.tag "/trees" (.list [.str "GET"]) (.list [.str "trees"]), .register Scope.trees gettingTrees, .finalize]

/-- What was merged by hand into a component and an operation is there after a later route. -/
theorem overrides_survive_trees :
    let e := ((new default).afterCalls describedLabels).afterCalls documentedTrees
    e.registry.names = ["Label", "Node"] ∧
      (e.document.at? (componentPath "Label" ++ [.str "description"])).any (·.same false (.str "A short text.")) = true ∧
      (e.document.at? (operationPath "/labels" "get" ++ [.str "deprecated"])).any (·.same false (.bool true))
        = true := by
  intro e
  have hmaps : Accommodates ((new default).afterCalls describedLabels).document documentedTrees := by
    refine ⟨by decide +kernel, by decide +kernel, by decide +kernel, fun c hc scope route hr => ?_⟩
    simp only [documentedTrees, List.mem_cons, List.not_mem_nil, or_false] at hc
    rcases hc with rfl | rfl | rfl <;> cases hr
    decide +kernel
  obtain ⟨-, hcomponents, -, hoperations⟩ :=
    overrides_survive default describedLabels documentedTrees rfl (e := e) rfl (by decide) hmaps
  refine ⟨by decide +kernel, ?_, ?_⟩
  · rw [hcomponents "Label" (by decide +kernel)]
    decide +kernel
  · rw [hoperations "/labels" "get" fun c hc scope route hr => ?_]
    · decide +kernel
    · simp only [documentedTrees, List.mem_cons, List.not_mem_nil, or_false] at hc
      rcases hc with rfl | rfl | rfl <;> cases hr
      decide +kernel

end Documentation

end RouteDoc
