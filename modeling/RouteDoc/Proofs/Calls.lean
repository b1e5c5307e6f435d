import RouteDoc.Documentation
import RouteDoc.Proofs.Merging
import RouteDoc.Proofs.Operations

/-!
# Calls on a documentation

What each call does to a documentation, and what a run of calls does to its registry.  Only a call that
describes a route enters types; the names of all types that a run enters stand in the registry in the order in
which they were entered.

* `Call`, `Call.after`, `Documentation.afterCalls` — the calls, and the documentations they lead to;
* `Documentation.run_register` — documenting a route: describing it, then publishing what was described;
* `Call.Enters`, `Documentation.RunEnters` — the names of the types that a call or a run enters;
* `Documentation.registration_terminates` — every description ends, and over a run no name is entered twice.
-/

namespace RouteDoc

namespace Documentation

variable {α β : Type} {d : Documentation}

/-! ### Running steps -/

@[simp] theorem run_pure (a : α) (d : Documentation) : run (pure a : Edit α) d = (.ok a, d) := rfl

theorem run_bind (m : Edit α) (k : α → Edit β) (d : Documentation) :
    run (m >>= k) d = match run m d with
      | (.ok a, e) => run (k a) e
      | (.error f, e) => (.error f, e) := by
  rw [run, run_step_bind, run]
  rcases StateT.run m d with ⟨_ | _, _⟩ <;> rfl

@[simp] theorem run_lift (x : Except Failure α) (d : Documentation) : run (liftM x : Edit α) d = (x, d) := by
  cases x <;> rfl

@[simp] theorem run_get (d : Documentation) : run (get : Edit Documentation) d = (.ok d, d) := rfl

@[simp] theorem run_throw (f : Failure) (d : Documentation) : run (throw f : Edit α) d = (.error f, d) := rfl

@[simp] theorem run_modify (f : Documentation → Documentation) (d : Documentation) :
    run (modify f : Edit Unit) d = (.ok (), f d) := rfl

/-- A step that returns gives a result and leaves a documentation. -/
theorem exists_run_eq_ok {step : Edit α} (h : (run step d).1.toBool = true) : ∃ a e, run step d = (.ok a, e) := by
  cases hrun : run step d with
  | mk r e =>
    rw [hrun] at h
    cases r with
    | error f => cases h
    | ok a => exact ⟨a, e, rfl⟩

theorem run_checkOpen_of_open (h : d.finalized = false) : run checkOpen d = (.ok (), d) := by
  simp [checkOpen, run_bind, h]

theorem run_checkOpen_of_finalized (h : d.finalized = true) : run checkOpen d = (.error .finalized, d) := by
  simp [checkOpen, run_bind, h]

theorem run_describe (scope : Scope) (route : Route) (d : Documentation) :
    run (describe scope route) d =
      let out := (scope.operation route (d.routeTags route)).run' ⟨d.registry, d.warnings⟩
      (out.1, { d with registry := out.2.registry, warnings := out.2.warnings }) := by
  simp only [describe, run_bind, run_get]
  rcases (scope.operation route (d.routeTags route)).run' ⟨d.registry, d.warnings⟩ with ⟨_ | _, _⟩ <;> rfl

theorem run_mergeDocument (override : Value) (d : Documentation) :
    run (mergeDocument override) d = match d.document.mergeInto override with
      | .ok v => (.ok (), { d with document := v })
      | .error f => (.error f, d) := by
  simp only [mergeDocument, run_bind, run_get, run_lift]
  cases d.document.mergeInto override <;> rfl

theorem run_mergeDocumentRoute (path : String) (override : Value) (d : Documentation) :
    run (mergeDocumentRoute path override) d = match d.document.mergeRoute path override with
      | .ok v => (.ok (), { d with document := v })
      | .error f => (.error f, { d with document := d.document.afterFailedRoute }) := by
  simp only [mergeDocumentRoute, run_bind, run_get]
  cases d.document.mergeRoute path override <;> rfl

/-- The schemas of the components, as they stand in the document. -/
def componentSchemas (d : Documentation) : Option Value :=
  (d.document.get? "components").bind fun components => components.get? "schemas"

/-! ### Documenting a route -/

/-- The second half of documenting a route, after its description: components that were not known before and
the operation are put into the document. -/
def publish (known : Registry) (route : Route) (operation : Operation) : Edit Operation := do
  let added := (← get).registry.filter fun (name, _) => !known.has name
  if !added.isEmpty then mergeDocument (componentsOverride added)
  mergeDocumentRoute (PathTemplate.clean route.path) (operationOverride route.method operation)
  return operation

theorem register_eq (scope : Scope) (route : Route) :
    register scope route = (do
      checkOpen
      let known := (← get).registry
      publish known route (← describe scope route)) := rfl

theorem run_register_of_finalized (h : d.finalized = true) (scope : Scope) (route : Route) :
    run (register scope route) d = (.error .finalized, d) := by
  rw [register_eq, run_bind, run_checkOpen_of_finalized h]

/-- **Documenting a route** is describing it and then publishing what was described. -/
theorem run_register (h : d.finalized = false) (scope : Scope) (route : Route) :
    run (register scope route) d =
      match (scope.operation route (d.routeTags route)).run' ⟨d.registry, d.warnings⟩ with
      | (.ok o, b) => run (publish d.registry route o) { d with registry := b.registry, warnings := b.warnings }
      | (.error f, b) => (.error f, { d with registry := b.registry, warnings := b.warnings }) := by
  simp only [register_eq, run_bind, run_checkOpen_of_open h, run_get, run_describe]
  rcases (scope.operation route (d.routeTags route)).run' ⟨d.registry, d.warnings⟩ with ⟨_ | _, _⟩ <;> rfl

/-- A route that was documented was described without failure. -/
theorem register_ok {scope : Scope} {route : Route} {o : Operation}
    (h : (run (register scope route) d).1 = .ok o) :
    d.finalized = false ∧ ∃ us ws,
      scope.Traverses d.registry.names (scope.routeErrands route) us ws none ∧
        (scope.operation route (d.routeTags route)).run' ⟨d.registry, d.warnings⟩
          = (.ok (scope.operationOf route (d.routeTags route)),
            ⟨d.registry ++ us.map scope.finished, d.warnings ++ ws⟩) := by
  have hd : d.finalized = false := by
    rw [Bool.eq_false_iff]
    intro hd
    rw [run_register_of_finalized hd] at h
    cases h
  obtain ⟨us, ws, r, htrav, hout⟩ :=
    (Scope.follows_operation route (d.routeTags route)).total ⟨d.registry, d.warnings⟩
  cases r with
  | none => exact ⟨hd, us, ws, htrav, hout⟩
  | some f =>
    obtain ⟨b, hb, -⟩ := hout
    rw [run_register hd, hb] at h
    cases h

/-- A route whose traversal does not fail is published. -/
theorem run_register_of_traverses (h : d.finalized = false) {scope : Scope} {route : Route} {us : List TypeExpr}
    {ws : List Warning} (htrav : scope.Traverses d.registry.names (scope.routeErrands route) us ws none) :
    run (register scope route) d =
      run (publish d.registry route (scope.operationOf route (d.routeTags route)))
        { d with registry := d.registry ++ us.map scope.finished, warnings := d.warnings ++ ws } := by
  obtain ⟨us', ws', r, htrav', hout⟩ :=
    (Scope.follows_operation route (d.routeTags route)).total ⟨d.registry, d.warnings⟩
  obtain ⟨rfl, rfl, rfl⟩ := htrav'.unique htrav
  rw [run_register h, show (scope.operation route (d.routeTags route)).run' _ = _ from hout]

/-- What was registered since is what was added. -/
theorem filter_not_has_append {known added : Registry} (hnew : ∀ n ∈ added.names, n ∉ known.names) :
    ((known ++ added).filter fun (name, _) => !known.has name) = added := by
  have hknown : (known.filter fun (name, _) => !known.has name) = [] := by
    rw [List.filter_eq_nil_iff]
    intro e he
    simpa using (Registry.has_iff_mem_names known e.1).2 (List.mem_map_of_mem he)
  have hadded : (added.filter fun (name, _) => !known.has name) = added := by
    rw [List.filter_eq_self]
    intro e he
    simpa using (Registry.has_eq_false_iff known e.1).2 (hnew e.1 (List.mem_map_of_mem he))
  rw [List.filter_append, hknown, hadded, List.nil_append]

/-- The document after new components were added to it. -/
def withComponents (document : Value) (added : Registry) : Except Failure Value :=
  if added.isEmpty then .ok document else document.mergeInto (componentsOverride added)

theorem run_publish (known : Registry) (route : Route) (o : Operation) (d : Documentation) :
    run (publish known route o) d =
      match withComponents d.document (d.registry.filter fun (name, _) => !known.has name) with
      | .error f => (.error f, d)
      | .ok v =>
        match v.mergeRoute (PathTemplate.clean route.path) (operationOverride route.method o) with
        | .ok w => (.ok o, { d with document := w })
        | .error f => (.error f, { d with document := v.afterFailedRoute }) := by
  simp only [publish, run_bind, run_get, withComponents]
  cases hadded : (d.registry.filter fun (name, _) => !known.has name).isEmpty with
  | true =>
    simp only [Bool.not_true, Bool.false_eq_true, if_false, if_true, run_bind, run_mergeDocumentRoute]
    cases d.document.mergeRoute _ _ <;> rfl
  | false =>
    simp only [Bool.not_false, if_true, Bool.false_eq_true, if_false, run_bind, run_mergeDocument]
    cases d.document.mergeInto _ with
    | error f => rfl
    | ok v =>
      simp only [run_mergeDocumentRoute]
      cases v.mergeRoute _ _ <;> rfl

/-- Publishing changes the document alone. -/
theorem publish_frame (known : Registry) (route : Route) (o : Operation) (d : Documentation) :
    ∃ v, (run (publish known route o) d).2 = { d with document := v } := by
  rw [run_publish]
  split
  · exact ⟨d.document, rfl⟩
  · split
    · exact ⟨_, rfl⟩
    · exact ⟨_, rfl⟩

theorem run_registerHandler (scope : Scope) (method path : String) (handler : Signature) (tags : Option Value)
    (d : Documentation) :
    run (registerHandler scope method path handler tags) d =
      match Route.ofHandler scope.types method path handler tags with
      | .ok route => run (register scope route) d
      | .error f => (.error f, d) := by
  rw [registerHandler, run_bind, run_lift]
  cases Route.ofHandler scope.types method path handler tags <;> rfl

/-! ### Tags, overrides, and the end -/

theorem run_tag_of_finalized (h : d.finalized = true) (path : String) (methods tags : Value) :
    run (tag path methods tags) d = (.error .finalized, d) := by
  rw [tag, run_bind, run_checkOpen_of_finalized h]

theorem run_tag (h : d.finalized = false) (path : String) (methods tags : Value) :
    run (tag path methods tags) d =
      let opened := { d with tagTable := d.tagTable.openRow path }
      match tagEntry methods tags with
      | .ok entry => (.ok (), { opened with tagTable := opened.tagTable.add path entry })
      | .error f => (.error f, opened) := by
  simp only [tag, run_bind, run_checkOpen_of_open h, updateTags, run_modify, run_lift]
  cases tagEntry methods tags <;> rfl

theorem run_mergeInto (override : Value) (d : Documentation) :
    run (mergeInto override) d =
      if d.finalized then (.error .finalized, d) else run (mergeDocument override) d := by
  cases h : d.finalized with
  | true => simp [mergeInto, run_bind, run_checkOpen_of_finalized h]
  | false => simp [mergeInto, run_bind, run_checkOpen_of_open h]

theorem run_mergeRoute (path : String) (override : Value) (d : Documentation) :
    run (mergeRoute path override) d =
      if d.finalized then (.error .finalized, d) else run (mergeDocumentRoute path override) d := by
  cases h : d.finalized with
  | true => simp [mergeRoute, run_bind, run_checkOpen_of_finalized h]
  | false => simp [mergeRoute, run_bind, run_checkOpen_of_open h]

theorem run_finalize_state (d : Documentation) : (run finalize d).2 = { d with finalized := true } := by
  simp only [finalize, run_bind, run_get]
  cases h : d.finalized with
  | true => simp [← h]
  | false =>
    simp only [Bool.not_false, if_true, run_bind]
    cases hasLength ((d.document.get? "paths").getD (.map [])) <;> rfl

end Documentation

/-! ### Calls -/

/-- A call on a documentation; every call that describes a route brings its own declarations. -/
inductive Call where
  | tag (path : String) (methods tags : Value)
  | tagsFor (path method : String)
  | register (scope : Scope) (route : Route)
  | registerHandler (scope : Scope) (method path : String) (handler : Signature) (tags : Option Value)
  | mergeInto (override : Value)
  | mergeRoute (path : String) (override : Value)
  | finalize
  deriving Inhabited

namespace Call

open Documentation

/-- The step that a call is. -/
def edit : Call → Edit Unit
  | tag path methods tags => Documentation.tag path methods tags
  | tagsFor _ _ => return ()
  | register scope route => do let _ ← Documentation.register scope route
  | registerHandler scope method path handler tags => do
    let _ ← Documentation.registerHandler scope method path handler tags
  | mergeInto override => Documentation.mergeInto override
  | mergeRoute path override => Documentation.mergeRoute path override
  | finalize => do let _ ← Documentation.finalize

/-- What a call leaves. -/
def after (c : Call) (d : Documentation) : Documentation := (run c.edit d).2

/-- The failure of a call, if it fails. -/
def failure? (c : Call) (d : Documentation) : Option Failure :=
  match (run c.edit d).1 with
  | .ok _ => none
  | .error f => some f

/-- The route that a call describes, unless it fails before. -/
def route? : Call → Option (Scope × Route)
  | register scope route => some (scope, route)
  | registerHandler scope method path handler tags =>
    match Route.ofHandler scope.types method path handler tags with
    | .ok route => some (scope, route)
    | .error _ => none
  | _ => none

variable {c : Call} {d : Documentation}

/-! ### What calls leave -/

theorem run_discard {α : Type} (step : Edit α) (d : Documentation) :
    run (do let _ ← step) d = ((run step d).1.map fun _ => (), (run step d).2) := by
  rw [run_bind]
  rcases run step d with ⟨_ | _, _⟩ <;> rfl

theorem run_edit_of_route? {scope : Scope} {route : Route} (h : c.route? = some (scope, route)) :
    run c.edit d = ((run (Documentation.register scope route) d).1.map fun _ => (),
      (run (Documentation.register scope route) d).2) := by
  cases c with
  | register scope' route' =>
    cases h
    rw [edit, run_discard]
  | registerHandler scope' method path handler tags =>
    rw [edit, run_discard, run_registerHandler]
    simp only [route?] at h
    cases hr : Route.ofHandler scope'.types method path handler tags with
    | error f => simp [hr] at h
    | ok route' =>
      simp only [hr, Option.some.injEq, Prod.mk.injEq] at h
      obtain ⟨rfl, rfl⟩ := h
      rfl
  | _ => cases h

theorem after_of_route? {scope : Scope} {route : Route} (h : c.route? = some (scope, route)) :
    c.after d = (run (Documentation.register scope route) d).2 := by
  rw [after, run_edit_of_route? h]

theorem failure?_of_route? {scope : Scope} {route : Route} (h : c.route? = some (scope, route)) {f : Failure} :
    c.failure? d = some f ↔ (run (Documentation.register scope route) d).1 = .error f := by
  rw [failure?, run_edit_of_route? h]
  cases (run (Documentation.register scope route) d).1 <;> simp [Except.map]

theorem run_registerHandler_of_route?_eq_none {scope : Scope} {method path : String} {handler : Signature}
    {tags : Option Value} (h : (registerHandler scope method path handler tags).route? = none) :
    ∃ f, run (registerHandler scope method path handler tags).edit d = (.error f, d) := by
  rw [edit, run_discard, run_registerHandler]
  simp only [route?] at h
  cases hr : Route.ofHandler scope.types method path handler tags with
  | error f => exact ⟨f, rfl⟩
  | ok route => simp [hr] at h

theorem after_tag (path : String) (methods tags : Value) (d : Documentation) :
    ∃ table, (tag path methods tags).after d = { d with tagTable := table } := by
  rw [after, edit]
  rcases Bool.eq_false_or_eq_true d.finalized with hd | hd
  · exact ⟨d.tagTable, by rw [run_tag_of_finalized hd]⟩
  · rw [run_tag hd]
    cases tagEntry methods tags <;> exact ⟨_, rfl⟩

theorem after_mergeInto (override : Value) (d : Documentation) :
    (mergeInto override).after d =
      if d.finalized then d
      else match d.document.mergeInto override with
        | .ok v => { d with document := v }
        | .error _ => d := by
  rw [after, edit, run_mergeInto, run_mergeDocument]
  split
  · rfl
  · cases d.document.mergeInto override <;> rfl

theorem after_mergeRoute (path : String) (override : Value) (d : Documentation) :
    (mergeRoute path override).after d =
      if d.finalized then d
      else match d.document.mergeRoute path override with
        | .ok v => { d with document := v }
        | .error _ => { d with document := d.document.afterFailedRoute } := by
  rw [after, edit, run_mergeRoute, run_mergeDocumentRoute]
  split
  · rfl
  · cases d.document.mergeRoute path override <;> rfl

theorem after_finalize (d : Documentation) : finalize.after d = { d with finalized := true } := by
  rw [after, edit, run_discard, run_finalize_state]

/-- **What a call can do.**  A property holds after a call when it holds after the call documents its route, and
after each other change that calls make. -/
theorem after_cases {P : Documentation → Prop} (c : Call) (same : P d)
    (route : ∀ scope route, c.route? = some (scope, route) → P (run (Documentation.register scope route) d).2)
    (tags : ∀ path methods ts table, c = .tag path methods ts → P { d with tagTable := table })
    (document : ∀ override v, d.document.mergeInto override = .ok v → P { d with document := v })
    (path : ∀ path override v, d.document.mergeRoute path override = .ok v → P { d with document := v })
    (failedPath : P { d with document := d.document.afterFailedRoute })
    (finalized : P { d with finalized := true }) : P (c.after d) := by
  cases hr : c.route? with
  | some sr =>
    rw [after_of_route? hr]
    exact route sr.1 sr.2 hr
  | none =>
    cases c with
    | tag p methods ts =>
      obtain ⟨table, ht⟩ := after_tag p methods ts d
      rw [ht]
      exact tags p methods ts table rfl
    | tagsFor p method => exact same
    | register scope r => cases hr
    | registerHandler scope method p handler ts =>
      obtain ⟨f, hf⟩ := run_registerHandler_of_route?_eq_none (d := d) hr
      rwa [after, hf]
    | mergeInto override =>
      rw [after_mergeInto]
      split
      · exact same
      · split
        · next v hv => exact document override v hv
        · exact same
    | mergeRoute p override =>
      rw [after_mergeRoute]
      split
      · exact same
      · split
        · next v hv => exact path p override v hv
        · exact failedPath
    | finalize =>
      rw [after_finalize]
      exact finalized

/-- A call that describes no route leaves the registry as it is. -/
theorem registry_after_of_route?_eq_none (h : c.route? = none) : (c.after d).registry = d.registry := by
  refine after_cases (P := fun e => e.registry = d.registry) c rfl (fun scope route hr => ?_)
    (fun _ _ _ _ _ => rfl) (fun _ _ _ => rfl) (fun _ _ _ _ => rfl) rfl rfl
  simp [h] at hr

/-! ### Types entered -/

/-- The names of the types that a call enters, in order: those on the traversal of the route that it
describes. -/
inductive Enters (d : Documentation) (c : Call) : List String → Prop
  | route {scope : Scope} {route : Route} {us : List TypeExpr} {ws : List Warning} {r : Option Failure} :
      c.route? = some (scope, route) → d.finalized = false →
      scope.Traverses d.registry.names (scope.routeErrands route) us ws r → Enters d c (scope.namesOf us)
  | idle : c.route? = none ∨ d.finalized = true → Enters d c []

namespace Enters

variable {names names' : List String}

/-- **Every call comes to an end**: it makes one finite traversal. -/
theorem total (d : Documentation) (c : Call) : ∃ names, c.Enters d names := by
  cases hr : c.route? with
  | none => exact ⟨[], .idle (.inl hr)⟩
  | some sr =>
    obtain ⟨scope, route⟩ := sr
    cases hd : d.finalized with
    | true => exact ⟨[], .idle (.inr hd)⟩
    | false =>
      obtain ⟨us, ws, r, ht, -⟩ := (Scope.follows_operation route []).total ⟨d.registry, []⟩
      exact ⟨_, .route hr hd ht⟩

theorem unique (h : c.Enters d names) (h' : c.Enters d names') : names = names' := by
  cases h with
  | route hr hd ht =>
    cases h' with
    | route hr' _ ht' =>
      cases hr.symm.trans hr'
      rw [(ht.unique ht').1]
    | idle h => exact absurd h (by simp [hr, hd])
  | idle h =>
    cases h' with
    | route hr hd _ => exact absurd h (by simp [hr, hd])
    | idle _ => rfl

theorem nodup (h : c.Enters d names) : names.Nodup := by
  cases h with
  | route _ _ ht => exact ht.names_nodup
  | idle _ => exact List.nodup_nil

theorem fresh (h : c.Enters d names) : ∀ n ∈ names, n ∉ d.registry.names := by
  cases h with
  | route _ _ ht =>
    intro n hn
    obtain ⟨u, hu, rfl⟩ := Scope.mem_namesOf.1 hn
    exact ht.fresh u hu
  | idle _ => simp

/-- **What one call does to the registry**: everything stays in its place, and the names of the types entered
follow, whether the call fails or not. -/
theorem registry_after (h : c.Enters d names) :
    d.registry <+: (c.after d).registry ∧ (c.after d).registry.names = d.registry.names ++ names := by
  cases h with
  | @route scope route us ws r hr hd ht =>
    obtain ⟨us', ws', r', ht', hout⟩ :=
      (Scope.follows_operation route (d.routeTags route)).total ⟨d.registry, d.warnings⟩
    obtain ⟨rfl, rfl, rfl⟩ := ht'.unique ht
    rw [after_of_route? hr, run_register hd]
    cases r' with
    | none =>
      rw [show (scope.operation route (d.routeTags route)).run' _ = _ from hout]
      dsimp only
      obtain ⟨v, hv⟩ := publish_frame d.registry route (scope.operationOf route (d.routeTags route))
        { d with registry := d.registry ++ us'.map scope.finished, warnings := d.warnings ++ ws' }
      rw [hv]
      exact ⟨List.prefix_append _ _, by simp⟩
    | some f =>
      obtain ⟨b, hb, hkept, hnames, -⟩ := hout
      rw [hb]
      exact ⟨hkept, hnames⟩
  | idle h =>
    have hsame : (c.after d).registry = d.registry := by
      cases hr : c.route? with
      | none => exact registry_after_of_route?_eq_none hr
      | some sr =>
        obtain ⟨scope, route⟩ := sr
        rw [after_of_route? hr, run_register_of_finalized (h.resolve_left (by simp [hr]))]
    rw [hsame]
    exact ⟨List.prefix_refl _, by simp⟩

end Enters

end Call

/-! ### Runs -/

namespace Documentation

/-- What several calls leave, one after another. -/
def afterCalls (d : Documentation) (calls : List Call) : Documentation := calls.foldl (fun d c => c.after d) d

@[simp] theorem afterCalls_nil (d : Documentation) : d.afterCalls [] = d := rfl

@[simp] theorem afterCalls_cons (d : Documentation) (c : Call) (calls : List Call) :
    d.afterCalls (c :: calls) = (c.after d).afterCalls calls := rfl

/-- The names of all types that a run of calls enters, in order. -/
inductive RunEnters : Documentation → List Call → List String → Prop
  | nil {d : Documentation} : RunEnters d [] []
  | cons {d : Documentation} {c : Call} {calls : List Call} {names log : List String} :
      c.Enters d names → RunEnters (c.after d) calls log → RunEnters d (c :: calls) (names ++ log)

namespace RunEnters

variable {d : Documentation} {calls : List Call} {log : List String}

theorem total (d : Documentation) (calls : List Call) : ∃ log, RunEnters d calls log := by
  induction calls generalizing d with
  | nil => exact ⟨[], .nil⟩
  | cons c calls ih =>
    obtain ⟨names, hc⟩ := Call.Enters.total d c
    obtain ⟨log, hrun⟩ := ih (c.after d)
    exact ⟨names ++ log, .cons hc hrun⟩

/-- The registry after a run. -/
theorem registry_after (h : RunEnters d calls log) :
    d.registry <+: (d.afterCalls calls).registry ∧
      (d.afterCalls calls).registry.names = d.registry.names ++ log := by
  induction h with
  | nil => exact ⟨List.prefix_refl _, by simp⟩
  | cons hc _ ih =>
    obtain ⟨hkept, hnames⟩ := hc.registry_after
    refine ⟨hkept.trans ih.1, ?_⟩
    rw [afterCalls_cons, ih.2, hnames, List.append_assoc]

/-- **Over a run no name is entered twice**, and none that was registered at its start. -/
theorem nodup_and_fresh (h : RunEnters d calls log) : log.Nodup ∧ ∀ n ∈ log, n ∉ d.registry.names := by
  induction h with
  | nil => exact ⟨List.nodup_nil, by simp⟩
  | cons hc _ ih =>
    rw [hc.registry_after.2] at ih
    refine ⟨List.nodup_append.2 ⟨hc.nodup, ih.1, fun a ha b hb hab => ?_⟩, fun n hn => ?_⟩
    · exact ih.2 b hb (List.mem_append_right _ (hab ▸ ha))
    · rcases List.mem_append.1 hn with hn | hn
      · exact hc.fresh n hn
      · exact fun hin => ih.2 n hn (List.mem_append_left _ hin)

end RunEnters

/-- **Descriptions end, and no type is entered twice.**  Registering a type enters it unless its name is taken,
and the first thing it does then is to take the name.  From every registry, registering and describing a type
make one finite traversal, and nested types need no more levels than there are names of types with fields
missing from the registry.  Over a run of calls, failing ones and overrides among them, the names of the types
entered are distinct and new, and they are what the registry has gained. -/
theorem registration_terminates :
    (∀ (scope : Scope) (t : TypeExpr), scope.convert t = (do
      if ← Build.isRegistered (scope.types.typeName t) then return ()
      Build.update fun r => r ++ [(scope.types.typeName t, .built .empty)]
      let fields ← (scope.fieldsOf t : Except Failure (List Param))
      let required ← scope.addFields scope.convert (scope.types.typeName t) fields
      Build.update <| Registry.change (scope.types.typeName t) fun c => { c with required := required })) ∧
    (∀ (scope : Scope) (t : TypeExpr) (b : Builder) (n : Nat), scope.missing b.registry.names < n →
      (scope.convertWithin n t).run' b = (scope.convert t).run' b) ∧
    (∀ (scope : Scope) (t : TypeExpr) (b : Builder), ∃ us ws r,
      scope.Traverses b.registry.names [.visit t] us ws r ∧
        Scope.Outcome scope b us ws () r ((scope.convert t).run' b)) ∧
    (∀ (scope : Scope) (t : TypeExpr) (b : Builder), ∃ us ws r,
      scope.Traverses b.registry.names (scope.typeErrands t) us ws r ∧
        Scope.Outcome scope b us ws (scope.fragment t) r ((scope.build t).run' b)) ∧
    (∀ (d : Documentation) (calls : List Call), ∃ log, RunEnters d calls log ∧ log.Nodup ∧
      (∀ n ∈ log, n ∉ d.registry.names) ∧
        (d.afterCalls calls).registry.names = d.registry.names ++ log) := by
  refine ⟨fun scope t => Scope.convert_eq t, fun scope t b n h => Scope.run'_convertWithin h t,
    fun scope t b => (Scope.follows_convert t).total b, fun scope t b => (Scope.follows_build t).total b,
    fun d calls => ?_⟩
  obtain ⟨log, hrun⟩ := RunEnters.total d calls
  exact ⟨log, hrun, hrun.nodup_and_fresh.1, hrun.nodup_and_fresh.2, hrun.registry_after.2⟩

end Documentation

end RouteDoc
