import RouteDoc.Proofs.Calls
import RouteDoc.Proofs.Overlay
import RouteDoc.Proofs.References

/-!
# Documents mirror registries

As long as nothing is merged by hand and every route is documented without failure, the component schemas of a
document are the registry, entry by entry, and every reference in the document resolves.

* `Documentation.Mirrors` — the invariant: the layout of the document, and what its parts refer to;
* `Documentation.Mirrors.register`, `Documentation.Mirrors.after` — what one call preserves;
* `Documentation.OrderlyRun` — the runs that are meant;
* `Documentation.document_mirrors_registry` — the registry and the references in every state of such a run.
-/

namespace RouteDoc

namespace Documentation

variable {d : Documentation}

/-! ### The layout of a document -/

/-- A document with paths and components. -/
def layout (version info : Value) (paths : Entries) (registry : Registry) : Value :=
  .object
    [("openapi", version), ("info", info), ("paths", .map paths),
      ("components", .object [("schemas", .object registry.toEntries)])]

theorem toEntries_names (r : Registry) : r.toEntries.map (·.1) = r.names := by
  simp [Registry.toEntries, Registry.names]

/-- New components are appended. -/
theorem mergeInto_layout (version info : Value) (paths : Entries) {registry added : Registry}
    (hadded : added.names.Nodup) (hnew : ∀ n ∈ added.names, n ∉ registry.names) :
    (layout version info paths registry).mergeInto (componentsOverride added)
      = .ok (layout version info paths (registry ++ added)) := by
  have hschemas := Entries.merge_fresh registry.toEntries added.toEntries
    (by rwa [toEntries_names]) (by simpa only [toEntries_names] using hnew)
  simpa [layout, componentsOverride, Value.mergeInto, Value.entriesFor, Value.object, bind, Except.bind,
    Entries.merge, Entries.get?, Entries.set, Value.over, Registry.toEntries] using hschemas

theorem withComponents_layout (version info : Value) (paths : Entries) {registry added : Registry}
    (hadded : added.names.Nodup) (hnew : ∀ n ∈ added.names, n ∉ registry.names) :
    withComponents (layout version info paths registry) added
      = .ok (layout version info paths (registry ++ added)) := by
  unfold withComponents
  split
  · next h =>
    rw [List.isEmpty_iff.1 h, List.append_nil]
  · exact mergeInto_layout version info paths hadded hnew

/-- The entries under a path. -/
def pathItem (paths : Entries) (path : String) : Entries :=
  ((paths.get? (.str path)).bind Value.entries?).getD []

/-- An override of a path changes the paths alone. -/
theorem mergeRoute_layout (version info : Value) {paths : Entries} (registry : Registry) (path : String)
    (os : Entries) (hmaps : ∀ v, paths.get? (.str path) = some v → v.isMap = true) :
    (layout version info paths registry).mergeRoute path (.map os)
      = .ok (layout version info (paths.set (.str path) (.map ((pathItem paths path).merge os))) registry) := by
  have hitem : ((paths.get? (.str path)).getD (.map [])).merge (.map os)
      = .ok (.map ((pathItem paths path).merge os)) := by
    cases hp : paths.get? (.str path) with
    | none => simp [pathItem, hp, Value.merge, Value.toEntries, Value.entriesFor, bind, Except.bind]
    | some v =>
      cases v with
      | map item =>
        simp [pathItem, hp, Value.merge, Value.toEntries, Value.entriesFor, Value.entries?, bind, Except.bind]
      | _ => exact absurd (hmaps _ hp) (by simp [Value.isMap])
  simp [layout, Value.mergeRoute, Value.openPaths, Value.mergePath, Value.entriesFor, Value.object, bind,
    Except.bind, Entries.has, Entries.get?, Entries.set, hitem]

/-! ### The invariant -/

/-- The document is laid out by its paths and the registry, no name is registered twice, and every reference
below a path or in a component names a registered one. -/
structure Mirrors (d : Documentation) : Prop where
  nodup : d.registry.names.Nodup
  components : ∀ e ∈ d.registry, Resolves d.registry.names .schema e.2.toValue
  laidOut : ∃ version info paths, d.document = layout version info paths d.registry ∧
    (∀ e ∈ paths, e.2.isMap = true) ∧ Resolves d.registry.names .paths (.map paths)

theorem mirrors_new (s : Settings) : (new s).Mirrors := by
  refine ⟨by simp [new], by simp [new], _, _, [], rfl, by simp, ?_⟩
  exact .map (by decide) (by simp)

/-- Every reference of such a document names a component. -/
theorem Mirrors.resolves (h : d.Mirrors) : Resolves d.registry.names .document d.document := by
  obtain ⟨version, info, paths, hd, -, hpaths⟩ := h.laidOut
  have hschemas : Resolves d.registry.names .schemaMap (.object d.registry.toEntries) :=
    resolves_schemaMap d.registry Entry.toValue h.components
  have hcomponents : Resolves d.registry.names .components (.object [("schemas", .object d.registry.toEntries)]) :=
    .object (by decide) (by simpa using hschemas)
  rw [hd]
  refine .object (by decide) ?_
  simp [hpaths, hcomponents]

theorem Mirrors.componentSchemas_eq (h : d.Mirrors) :
    d.componentSchemas = some (.object d.registry.toEntries) := by
  obtain ⟨version, info, paths, hd, -, -⟩ := h.laidOut
  simp [componentSchemas, hd, layout, Value.get?, Value.object, Value.entries?, Entries.get?]

/-! ### Documenting a route -/

/-- Publishing adds the new components, and the operation under its path. -/
theorem run_publish_layout {version info : Value} {paths : Entries} {added : Registry}
    (hdoc : d.document = layout version info paths d.registry) (hadded : added.names.Nodup)
    (hnew : ∀ n ∈ added.names, n ∉ d.registry.names) (hmaps : ∀ e ∈ paths, e.2.isMap = true) (route : Route)
    (o : Operation) (ws : List Warning) :
    run (publish d.registry route o) { d with registry := d.registry ++ added, warnings := ws } =
      (.ok o, { d with
        document := layout version info
          (paths.set (.str (PathTemplate.clean route.path))
            (.map ((pathItem paths (PathTemplate.clean route.path)).merge
              [(.str (Method.key (Method.normalize route.method)), o.toValue)])))
          (d.registry ++ added)
        registry := d.registry ++ added
        warnings := ws }) := by
  have hitem : ∀ v, paths.get? (.str (PathTemplate.clean route.path)) = some v → v.isMap = true := by
    intro v hv
    obtain ⟨k, hin, -⟩ := Entries.exists_mem_of_get? hv
    exact hmaps _ hin
  rw [run_publish, filter_not_has_append hnew, hdoc, withComponents_layout version info paths hadded hnew]
  dsimp only
  rw [show operationOverride route.method o = .map _ from rfl, mergeRoute_layout version info _ _ _ hitem]
  rfl

/-- The paths after an operation was added to one of them. -/
theorem resolves_paths_set {names : List String} {paths os : Entries} {path : String}
    (hpaths : Resolves names .paths (.map paths)) (hos : Resolves names .pathItem (.map os)) :
    Resolves names .paths (.map (paths.set (.str path) (.map ((pathItem paths path).merge os)))) := by
  have hitem : Resolves names .pathItem (.map (pathItem paths path)) := by
    unfold pathItem
    cases hp : paths.get? (.str path) with
    | none => exact .map (by decide) (by simp)
    | some v =>
      obtain ⟨k, hin, ht⟩ := Entries.exists_mem_of_get? hp
      have hv : Resolves names .pathItem v := hpaths.of_map hin ht rfl
      cases v with
      | map item => exact hv
      | _ => exact .map (by decide) (by simp [Value.entries?])
  refine .map (by decide) fun k v hin key ht q hq => ?_
  rcases Entries.mem_set hin with hin | ⟨-, rfl⟩
  · exact hpaths.of_map hin ht hq
  · cases hq
    exact .merge _ _ _ hitem hos

theorem isMap_of_mem_set {es item : Entries} {key : Key} (h : ∀ e ∈ es, e.2.isMap = true) :
    ∀ e ∈ es.set key (.map item), e.2.isMap = true := by
  intro e he
  rcases Entries.mem_set (k := e.1) (v := e.2) he with he | ⟨-, hv⟩
  · exact h _ he
  · rw [hv]
    rfl

/-- **Documenting a route keeps the document a mirror of the registry**, when nothing fails. -/
theorem Mirrors.register (h : d.Mirrors) {scope : Scope} {route : Route} {o : Operation}
    (hok : (run (register scope route) d).1 = .ok o) : (run (register scope route) d).2.Mirrors := by
  obtain ⟨hd, us, ws, htrav, hrun⟩ := register_ok hok
  obtain ⟨version, info, paths, hdoc, hmaps, hpaths⟩ := h.laidOut
  have hnames : Registry.names (d.registry ++ us.map scope.finished) = d.registry.names ++ scope.namesOf us := by
    simp
  have hsub : d.registry.names ⊆ Registry.names (d.registry ++ us.map scope.finished) := by
    rw [hnames]
    exact List.subset_append_left _ _
  have hadded : (Registry.names (us.map scope.finished)).Nodup := Scope.finished_nodup htrav
  -- after the traversal every type that the route or a component asks for is registered
  have hroute : scope.Covers (Registry.names (d.registry ++ us.map scope.finished)) (scope.routeErrands route) :=
    fun t ht => hnames ▸ htrav.closed (.inl ht)
  have hfields : ∀ u ∈ us,
      scope.Covers (Registry.names (d.registry ++ us.map scope.finished)) (scope.structErrands u) :=
    fun u hu t ht => hnames ▸ htrav.closed (.inr ⟨u, hu, ht⟩)
  rw [run_register hd, hrun]
  dsimp only
  rw [run_publish_layout hdoc hadded (Scope.finished_fresh htrav) hmaps]
  refine ⟨?_, ?_, version, info, _, rfl, isMap_of_mem_set hmaps, resolves_paths_set (hpaths.mono hsub) ?_⟩
  · show (Registry.names (d.registry ++ us.map scope.finished)).Nodup
    rw [Registry.names_append]
    exact List.nodup_append.2
      ⟨h.nodup, hadded, fun a ha b hb hab => Scope.finished_fresh htrav b hb (hab ▸ ha)⟩
  · intro e he
    rcases List.mem_append.1 he with he | he
    · exact (h.components e he).mono hsub
    · obtain ⟨u, hu, rfl⟩ := List.mem_map.1 he
      exact (hfields u hu).componentOf
  · refine .map (by decide) fun k v hin key ht q hq => ?_
    cases List.mem_singleton.1 hin
    cases hq
    exact hroute.operationOf _

/-! ### Runs -/

/-- The call is no override, and when it documents a route it returns. -/
def Orderly (d : Documentation) : Call → Prop
  | .mergeInto _ | .mergeRoute _ _ => False
  | .register scope route => (Call.register scope route).failure? d = none
  | .registerHandler scope method path handler tags =>
    (Call.registerHandler scope method path handler tags).failure? d = none
  | .tag _ _ _ | .tagsFor _ _ | .finalize => True

/-- A run of orderly calls. -/
def OrderlyRun : Documentation → List Call → Prop
  | _, [] => True
  | d, c :: calls => Orderly d c ∧ OrderlyRun (c.after d) calls

theorem Orderly.register_ok {c : Call} (h : Orderly d c) {scope : Scope} {route : Route}
    (hr : c.route? = some (scope, route)) : ∃ o, (run (register scope route) d).1 = .ok o := by
  have hnone : c.failure? d = none := by
    cases c with
    | register scope route => exact h
    | registerHandler scope method path handler tags => exact h
    | _ => cases hr
  cases hrun : (run (register scope route) d).1 with
  | ok o => exact ⟨o, rfl⟩
  | error f =>
    rw [(Call.failure?_of_route? hr).2 hrun] at hnone
    cases hnone

/-- **One orderly call keeps the document a mirror of the registry.** -/
theorem Mirrors.after (h : d.Mirrors) {c : Call} (hc : Orderly d c) : (c.after d).Mirrors := by
  cases hr : c.route? with
  | some sr =>
    obtain ⟨o, hok⟩ := hc.register_ok hr
    rw [Call.after_of_route? hr]
    exact h.register hok
  | none =>
    cases c with
    | tag path methods tags =>
      obtain ⟨table, ht⟩ := Call.after_tag path methods tags d
      rw [ht]
      exact ⟨h.nodup, h.components, h.laidOut⟩
    | tagsFor path method => exact h
    | register scope route => cases hr
    | registerHandler scope method path handler tags =>
      obtain ⟨f, hf⟩ := Call.run_registerHandler_of_route?_eq_none (d := d) hr
      rwa [Call.after, hf]
    | mergeInto override => exact hc.elim
    | mergeRoute path override => exact hc.elim
    | finalize =>
      rw [Call.after_finalize]
      exact ⟨h.nodup, h.components, h.laidOut⟩

theorem Mirrors.afterCalls (h : d.Mirrors) {calls more : List Call} (hrun : OrderlyRun d (calls ++ more)) :
    (d.afterCalls calls).Mirrors := by
  induction calls generalizing d with
  | nil => exact h
  | cons c calls ih => exact ih (h.after hrun.1) hrun.2

/-- **The document mirrors the registry, and every reference resolves**, in every state of every orderly run: the
component schemas are the registry, entry by entry and in order, and every reference at the place of a schema
names one of them. -/
theorem document_mirrors_registry (s : Settings) (calls more : List Call)
    (hrun : OrderlyRun (new s) (calls ++ more)) :
    ((new s).afterCalls calls).componentSchemas = some (.object ((new s).afterCalls calls).registry.toEntries) ∧
      ((new s).afterCalls calls).registry.names.Nodup ∧
      ∀ r, RefersAt .document ((new s).afterCalls calls).document r →
        ∃ name ∈ ((new s).afterCalls calls).registry.names, r = .str (componentPlace name) := by
  have h : ((new s).afterCalls calls).Mirrors := (mirrors_new s).afterCalls hrun
  exact ⟨h.componentSchemas_eq, h.nodup, h.resolves⟩

/-- Calls that document two routes over trees under one path. -/
def treeCalls : List Call :=
  [.tag "/trees" (.list [.str "POST"]) (.list [.str "trees"]),
    .register Scope.trees
      ⟨"/trees", "POST", [], [], [],
        [⟨"tree", .extractor .json (some (.declared "Node")), true, false, .null⟩], [], []⟩,
    .tagsFor "/trees" "POST",
    .register Scope.trees
      ⟨"/trees", "GET", [], [], [], [], [.container .list false (some [.declared "Node"])], []⟩,
    .finalize]

/-- The run documents both routes, and registers nodes and labels. -/
theorem document_mirrors_registry_trees :
    ((new default).afterCalls treeCalls).registry.names = ["Node", "Label"] ∧
      ((new default).afterCalls treeCalls).componentSchemas
        = some (.object ((new default).afterCalls treeCalls).registry.toEntries) ∧
      ∀ r, RefersAt .document ((new default).afterCalls treeCalls).document r →
        ∃ name ∈ ["Node", "Label"], r = .str (componentPlace name) := by
  have hnames : ((new default).afterCalls treeCalls).registry.names = ["Node", "Label"] := by decide +kernel
  have hrun : OrderlyRun (new default) (treeCalls ++ []) := by
    refine ⟨trivial, ?_, trivial, ?_, trivial, trivial⟩ <;> show Call.failure? _ _ = none <;> decide +kernel
  obtain ⟨hschemas, -, hrefs⟩ := document_mirrors_registry default treeCalls [] hrun
  exact ⟨hnames, hschemas, hnames ▸ hrefs⟩

end Documentation

end RouteDoc
