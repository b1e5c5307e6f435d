import RouteDoc.Proofs.Traversal

/-!
# Registering types

What a step on the registry does is said by a traversal: the step runs through its errands, and when nothing
fails it gives a result that depends on the declarations alone, appends the finished component of every type
that was entered, and leaves what was registered untouched.  When something fails, the registry still begins
with what was there and holds the names of the types that were entered.

A type counts as registered from the moment it is entered, so a type that is under way is never entered again
and the recursion over fields ends: every nested type takes one more name out of the finitely many that have
fields.

* `Scope.componentOf` — the component of a structured type, from the declarations alone;
* `Scope.Follows` — a step that does what its errands say, when few enough names with fields are missing;
* `Scope.follows_convertWithin` — registering a type within a bound on the missing names;
* `Scope.follows_convert`, `Scope.follows_build` — the same without any bound;
* `Scope.run'_convertWithin`, `Scope.convert_eq` — the bound on nested types is never what ends the recursion,
  and registering satisfies the equation without a bound.
-/

namespace RouteDoc

/-! ### Running steps -/

/-- A step that may fail, followed by another one. -/
theorem run_step_bind {ε σ α β : Type} (m : ExceptT ε (StateM σ) α) (k : α → ExceptT ε (StateM σ) β)
    (s : σ) : StateT.run (m >>= k : ExceptT ε (StateM σ) β) s = match StateT.run m s with
      | (.ok a, t) => StateT.run (k a) t
      | (.error e, t) => (.error e, t) := by
  show StateT.run (ExceptT.bind m k) s = _
  simp only [ExceptT.bind, ExceptT.mk, StateT.run, bind, StateT.bind]
  rcases m s with ⟨_ | _, _⟩ <;> rfl

namespace Build

variable {α β : Type}

@[simp] theorem run'_pure (a : α) (b : Builder) : (pure a : Build α).run' b = (.ok a, b) := rfl

theorem run'_bind (m : Build α) (k : α → Build β) (b : Builder) :
    (m >>= k).run' b = match m.run' b with
      | (.ok a, c) => (k a).run' c
      | (.error f, c) => (.error f, c) := by
  rw [run', run_step_bind, run']
  rcases StateT.run m b with ⟨_ | _, _⟩ <;> rfl

@[simp] theorem run'_lift (x : Except Failure α) (b : Builder) : (liftM x : Build α).run' b = (x, b) := by
  cases x <;> rfl

@[simp] theorem run'_warn (ws : List Warning) (b : Builder) :
    (warn ws).run' b = (.ok (), { b with warnings := b.warnings ++ ws }) := rfl

@[simp] theorem run'_update (f : Registry → Registry) (b : Builder) :
    (update f).run' b = (.ok (), { b with registry := f b.registry }) := rfl

@[simp] theorem run'_isRegistered (name : String) (b : Builder) :
    (isRegistered name).run' b = (.ok (b.registry.has name), b) := rfl

/-- Two steps that agree from a builder, and go on alike from where they lead. -/
theorem run'_bind_congr {m m' : Build α} {k k' : α → Build β} {b : Builder} (h : m.run' b = m'.run' b)
    (hk : ∀ a c, m.run' b = (.ok a, c) → (k a).run' c = (k' a).run' c) :
    (m >>= k).run' b = (m' >>= k').run' b := by
  rw [run'_bind, run'_bind, ← h]
  rcases hm : m.run' b with ⟨_ | a, c⟩
  · rfl
  · exact hk a c hm

end Build

/-! ### Names of a registry -/

namespace Registry

@[simp] theorem names_nil : names [] = [] := rfl

@[simp] theorem names_cons (name : String) (e : Entry) (r : Registry) :
    names ((name, e) :: r) = name :: names r := rfl

@[simp] theorem names_append (r s : Registry) : names (r ++ s) = names r ++ names s := List.map_append

theorem has_iff_mem_names (r : Registry) (name : String) : r.has name = true ↔ name ∈ r.names := by
  induction r with
  | nil => simp [has, get?, names]
  | cons e r ih =>
    obtain ⟨n, v⟩ := e
    by_cases h : name = n
    · simp [has, get?, names, h]
    · simp only [has, get?, names] at ih
      simp [has, get?, names, List.lookup_cons, h, beq_false_of_ne h, ih]

theorem has_eq_false_iff (r : Registry) (name : String) : r.has name = false ↔ name ∉ r.names := by
  rw [← has_iff_mem_names, Bool.not_eq_true]

@[simp] theorem names_change (name : String) (f : Component → Component) (r : Registry) :
    names (change name f r) = names r := by
  simp only [names, change, List.map_map]
  refine List.map_congr_left fun e _ => ?_
  obtain ⟨n, v⟩ := e
  cases v with
  | built c => by_cases h : n = name <;> simp [h]
  | given v => rfl

/-- A change of another component leaves a registry as it is. -/
theorem change_of_not_mem {name : String} {f : Component → Component} {r : Registry} (h : name ∉ r.names) :
    change name f r = r := by
  refine (List.map_congr_left fun e he => ?_).trans (List.map_id r)
  obtain ⟨n, v⟩ := e
  have hn : n ≠ name := fun heq => h (heq ▸ List.mem_map_of_mem he)
  cases v with
  | built c => simp [hn]
  | given v => rfl

/-- A change of the component that stands alone under its name. -/
theorem change_middle {name : String} {f : Component → Component} {pre post : Registry} {c : Component}
    (hpre : name ∉ pre.names) (hpost : name ∉ post.names) :
    change name f (pre ++ (name, .built c) :: post) = pre ++ (name, .built (f c)) :: post := by
  have happ : change name f (pre ++ (name, .built c) :: post)
      = change name f pre ++ (name, .built (f c)) :: change name f post := by simp [change]
  rw [happ, change_of_not_mem hpre, change_of_not_mem hpost]

end Registry

/-! ### Components -/

namespace Scope

variable {scope : Scope}

/-- The default of a field by itself. -/
def defaultOf (p : Param) : Option Value :=
  match documentedDefault p with
  | .ok v => v
  | .error _ => none

/-- The fields of a type, as far as they can be read. -/
def fieldList (scope : Scope) (t : TypeExpr) : List Param :=
  match scope.fieldsOf t with
  | .ok fields => fields
  | .error _ => []

/-- The property of a field, if its type has a description. -/
def propertyOf (scope : Scope) (p : Param) : Option (String × Property) :=
  (scope.fragment p.type).map fun s => (p.name, ⟨s, defaultOf p⟩)

/-- The name of a field that is required: its type has a description and is not nullable. -/
def requiredName (scope : Scope) (p : Param) : Option String :=
  (scope.fragment p.type).bind fun s => if p.required && !s.nullable then some p.name else none

/-- The component that fields make up. -/
def componentFrom (scope : Scope) (fields : List Param) : Component :=
  ⟨fields.filterMap scope.propertyOf, fields.filterMap scope.requiredName⟩

/-- The component of a structured type. -/
def componentOf (scope : Scope) (t : TypeExpr) : Component := scope.componentFrom (scope.fieldList t)

/-- The entry of a structured type with its name. -/
def finished (scope : Scope) (t : TypeExpr) : String × Entry :=
  (scope.types.typeName t, .built (scope.componentOf t))

@[simp] theorem names_map_finished (ts : List TypeExpr) :
    Registry.names (ts.map scope.finished) = scope.namesOf ts := by
  simp [Registry.names, namesOf, finished]

/-! ### Steps that follow errands -/

/-- The outcome of a step from a builder, given the types entered, the notices, the result and the failure. -/
def Outcome {α : Type} (scope : Scope) (b : Builder) (us : List TypeExpr) (ws : List Warning) (a : α) :
    Option Failure → Except Failure α × Builder → Prop
  | none, out => out = (.ok a, ⟨b.registry ++ us.map scope.finished, b.warnings ++ ws⟩)
  | some f, out => ∃ c : Builder, out = (.error f, c) ∧ b.registry <+: c.registry
      ∧ c.registry.names = b.registry.names ++ scope.namesOf us ∧ c.warnings = b.warnings ++ ws

/-- The names of the types that have fields: declared types and extractors. -/
def structNames (scope : Scope) : List String :=
  scope.types.map (·.name)
    ++ ["Path", "Query", "Header", "Json", "JsonFragment", "Body", "Form", "RequestParam", "BodyExtractor"]

/-- How many names of types with fields were not seen. -/
def missing (scope : Scope) (seen : List String) : Nat := scope.structNames.countP fun n => n ∉ seen

/-- A step does what its errands say, and gives its result when nothing fails, from every builder with fewer
missing names than the bound. -/
def Follows {α : Type} (scope : Scope) (bound : Nat) (step : Build α) (es : List Errand) (a : α) : Prop :=
  ∀ b : Builder, scope.missing b.registry.names < bound →
    ∃ us ws r, scope.Traverses b.registry.names es us ws r ∧ Outcome scope b us ws a r (step.run' b)

theorem countP_unseen_append_le (names seen more : List String) :
    names.countP (fun n => n ∉ seen ++ more) ≤ names.countP fun n => n ∉ seen := by
  refine List.countP_mono_left fun n _ hn => ?_
  simp only [List.mem_append, not_or, decide_eq_true_eq] at hn ⊢
  exact hn.1

theorem missing_append_le (seen more : List String) : scope.missing (seen ++ more) ≤ scope.missing seen :=
  countP_unseen_append_le _ _ _

/-- Entering a type with fields takes a name from the missing ones. -/
theorem missing_snoc_lt {seen : List String} {name : String} (hname : name ∈ scope.structNames)
    (hseen : name ∉ seen) : scope.missing (seen ++ [name]) < scope.missing seen := by
  obtain ⟨pre, post, hsplit⟩ := List.append_of_mem hname
  have hpre := countP_unseen_append_le pre seen [name]
  have hpost := countP_unseen_append_le post seen [name]
  simp only [missing, hsplit, List.countP_append]
  rw [List.countP_cons_of_neg (by simp), List.countP_cons_of_pos (by simpa using hseen)]
  omega

theorem missing_lt_depth (seen : List String) : scope.missing seen < scope.depth := by
  have h : scope.missing seen ≤ scope.structNames.length := List.countP_le_length
  simp only [structNames, List.length_append, List.length_map, List.length_cons, List.length_nil] at h
  simp only [depth, builtinStructs]
  omega

/-- **No bound is needed at the depth of a scope**: a step that follows its errands there makes one finite
traversal from every builder. -/
theorem Follows.total {α : Type} {step : Build α} {es : List Errand} {a : α}
    (h : scope.Follows scope.depth step es a) (b : Builder) :
    ∃ us ws r, scope.Traverses b.registry.names es us ws r ∧ Outcome scope b us ws a r (step.run' b) :=
  h b (missing_lt_depth _)

/-- **A step that returns** gives its result; the types entered and the notices of its traversal are what it adds. -/
theorem Follows.of_ok {α : Type} {step : Build α} {es : List Errand} {a x : α} {b after : Builder}
    (h : scope.Follows scope.depth step es a) (hrun : step.run' b = (.ok x, after)) :
    x = a ∧ ∃ us ws, scope.Traverses b.registry.names es us ws none ∧
      after = ⟨b.registry ++ us.map scope.finished, b.warnings ++ ws⟩ := by
  obtain ⟨us, ws, r, htrav, hout⟩ := h.total b
  rw [hrun] at hout
  cases r with
  | none =>
    cases hout
    exact ⟨rfl, us, ws, htrav, rfl⟩
  | some f =>
    obtain ⟨c, hfail, -⟩ := hout
    cases hfail

/-- A type with fields is one of those that are counted. -/
theorem typeName_mem_structNames {t : TypeExpr} {p : Param} {fields : List Param}
    (h : scope.fieldsOf t = .ok (p :: fields)) : scope.types.typeName t ∈ scope.structNames := by
  unfold fieldsOf Declarations.fieldsOf at h
  split at h
  · next id =>
    cases hd : scope.types.find? id with
    | none => simp [hd] at h
    | some d =>
      refine List.mem_append_left _ (List.mem_map.2 ⟨d, List.mem_of_find?_eq_some hd, ?_⟩)
      simp [Declarations.typeName, TypeExpr.unwrap, hd]
  · next e =>
    refine List.mem_append_right _ ?_
    cases e with
    | extractor => simp [Declarations.bareExtractorParams, Extractor.isRequest, Extractor.isBody] at h
    | _ => simp [Declarations.typeName, TypeExpr.unwrap, Extractor.className]
  · cases h

/-- A step from where another one ended, seen from where that one began. -/
theorem Outcome.after {α : Type} {b : Builder} {us vs : List TypeExpr} {ws xs : List Warning} {a : α}
    {r : Option Failure} {out : Except Failure α × Builder}
    (h : Outcome scope ⟨b.registry ++ us.map scope.finished, b.warnings ++ ws⟩ vs xs a r out) :
    Outcome scope b (us ++ vs) (ws ++ xs) a r out := by
  cases r with
  | none => simpa [Outcome] using h
  | some f =>
    obtain ⟨c, hout, hkept, hnames, hws⟩ := h
    exact ⟨c, hout, (List.prefix_append _ _).trans hkept, by simpa using hnames, by simpa using hws⟩

namespace Follows

variable {α β : Type} {bound : Nat} {step : Build α} {k : α → Build β} {es es' : List Errand} {a : α} {c : β}

theorem pure (a : α) : scope.Follows bound (pure a) [] a :=
  fun b _ => ⟨[], [], none, .done, by simp [Outcome]⟩

/-- **Steps compose**: the errands of one step after those of the other. -/
theorem bind (h : scope.Follows bound step es a) (hk : scope.Follows bound (k a) es' c) :
    scope.Follows bound (step >>= k) (es ++ es') c := by
  intro b hb
  obtain ⟨us, ws, r, ht, ho⟩ := h b hb
  cases r with
  | none =>
    have hb' : scope.missing (b.registry ++ us.map scope.finished).names < bound := by
      rw [Registry.names_append]
      exact Nat.lt_of_le_of_lt (missing_append_le _ _) hb
    obtain ⟨vs, xs, r, ht', ho'⟩ := hk ⟨b.registry ++ us.map scope.finished, b.warnings ++ ws⟩ hb'
    refine ⟨us ++ vs, ws ++ xs, r, ht.append (by simpa using ht'), ?_⟩
    rw [Build.run'_bind, show step.run' b = _ from ho]
    exact ho'.after
  | some f =>
    obtain ⟨d, hd, hrest⟩ := ho
    refine ⟨us, ws, some f, ht.append_stop es', d, ?_, hrest⟩
    rw [Build.run'_bind, hd]

/-- A result that is only looked at. -/
theorem map (h : scope.Follows bound step es a) (g : α → β) :
    scope.Follows bound (step >>= fun x => Pure.pure (g x)) es (g a) := by
  simpa using h.bind (k := fun x => Pure.pure (g x)) (.pure (g a))

/-- A result that is there asks for nothing. -/
theorem lift_ok (hk : scope.Follows bound (k a) es c) :
    scope.Follows bound (liftM (.ok a : Except Failure α) >>= k) es c := by
  intro b hb
  obtain ⟨us, ws, r, ht, ho⟩ := hk b hb
  exact ⟨us, ws, r, ht, by rwa [Build.run'_bind, Build.run'_lift]⟩

/-- A failure stops. -/
theorem lift_error (f : Failure) (es : List Errand) (c : β) :
    scope.Follows bound (liftM (.error f : Except Failure α) >>= k) (.stop f :: es) c := by
  intro b _
  refine ⟨[], [], some f, .stop, b, ?_, List.prefix_refl _, by simp, by simp⟩
  rw [Build.run'_bind, Build.run'_lift]

theorem warn (ws : List Warning) : scope.Follows bound (Build.warn ws) (ws.map Errand.notice) () :=
  fun b _ => ⟨[], ws, none, .notices _ _, by simp [Outcome]⟩

/-- A type is visited unless its name is registered. -/
theorem visit {conv : TypeExpr → Build Unit} {t : TypeExpr} {rest : Build β}
    (h : scope.Follows bound (conv t) [.visit t] ()) (hk : scope.Follows bound rest es c) :
    scope.Follows bound
      (Build.isRegistered (scope.types.typeName t) >>= fun known =>
        if (!known) = true then conv t >>= fun _ => rest else rest)
      (.visit t :: es) c := by
  intro b hb
  rw [Build.run'_bind, Build.run'_isRegistered]
  cases hn : b.registry.has (scope.types.typeName t) with
  | true =>
    obtain ⟨us, ws, r, ht, ho⟩ := hk b hb
    exact ⟨us, ws, r, .known ((Registry.has_iff_mem_names _ _).1 hn) ht, ho⟩
  | false => exact h.bind (k := fun _ => rest) hk b hb

end Follows

/-- **Describing a type** runs through its errands and gives its fragment. -/
theorem follows_buildWith {bound : Nat} {conv : TypeExpr → Build Unit}
    (hconv : ∀ t, scope.Follows bound (conv t) [.visit t] ()) (t : TypeExpr) :
    scope.Follows bound (scope.buildWith conv t) (scope.typeErrands t) (scope.fragment t) := by
  unfold buildWith typeErrands fragment
  cases scope.describe t with
  | error f => exact .lift_error f [] _
  | ok d =>
    have hrest : scope.Follows bound (Build.warn d.warnings >>= fun _ => Pure.pure d.schema)
        (d.warnings.map Errand.notice) d.schema := (Follows.warn d.warnings).map fun _ => d.schema
    refine .lift_ok ?_
    dsimp only
    cases d.target with
    | none => exact hrest
    | some target => exact .visit (hconv target) hrest

/-! ### Fields -/

/-- The outcome of adding properties to the component that stands under a name between two parts of a registry. -/
def Filling {α : Type} (scope : Scope) (pre post : Registry) (name : String) (c : Component)
    (old : List Warning) (added : List (String × Property)) (us : List TypeExpr) (ws : List Warning) (a : α) :
    Option Failure → Except Failure α × Builder → Prop
  | none, out => out = (.ok a,
      ⟨pre ++ (name, .built { c with properties := c.properties ++ added }) :: post ++ us.map scope.finished,
        old ++ ws⟩)
  | some f, out => ∃ b : Builder, out = (.error f, b) ∧ pre <+: b.registry
      ∧ b.registry.names = pre.names ++ name :: post.names ++ scope.namesOf us ∧ b.warnings = old ++ ws

/-- A step does what its errands say, and adds properties to the component that stands under a name. -/
def Fills {α : Type} (scope : Scope) (bound : Nat) (pre : Registry) (name : String) (step : Build α)
    (es : List Errand) (added : List (String × Property)) (a : α) : Prop :=
  ∀ (post : Registry) (c : Component) (old : List Warning), name ∉ post.names →
    scope.missing (pre.names ++ name :: post.names) < bound →
    ∃ us ws r, scope.Traverses (pre.names ++ name :: post.names) es us ws r ∧
      Filling scope pre post name c old added us ws a r (step.run' ⟨pre ++ (name, .built c) :: post, old⟩)

/-- What a traversal enters has other names than those that were seen. -/
theorem notMem_names_finished {seen : List String} {es : List Errand} {us : List TypeExpr} {ws : List Warning}
    {r : Option Failure} (h : scope.Traverses seen es us ws r) {name : String} (hname : name ∈ seen) :
    name ∉ Registry.names (us.map scope.finished) := by
  rw [names_map_finished]
  intro hin
  obtain ⟨u, hu, rfl⟩ := mem_namesOf.1 hin
  exact h.fresh u hu hname

theorem finished_fresh {seen : List String} {es : List Errand} {us : List TypeExpr} {ws : List Warning}
    {r : Option Failure} (h : scope.Traverses seen es us ws r) :
    ∀ n ∈ Registry.names (us.map scope.finished), n ∉ seen :=
  fun _ hn hseen => notMem_names_finished h hseen hn

theorem finished_nodup {seen : List String} {es : List Errand} {us : List TypeExpr} {ws : List Warning}
    {r : Option Failure} (h : scope.Traverses seen es us ws r) :
    (Registry.names (us.map scope.finished)).Nodup := by
  rw [names_map_finished]
  exact h.names_nodup

namespace Fills

variable {α β : Type} {bound : Nat} {pre : Registry} {name : String} {step : Build α} {k : α → Build β}
  {es es' : List Errand} {added added' : List (String × Property)} {a : α} {x : β}

/-- A step that adds nothing to the component. -/
theorem of_follows (h : scope.Follows bound step es a) : scope.Fills bound pre name step es [] a := by
  intro post c old _ hb
  have hstart : Registry.names (pre ++ (name, .built c) :: post) = pre.names ++ name :: post.names := by simp
  obtain ⟨us, ws, r, ht, ho⟩ := h ⟨pre ++ (name, .built c) :: post, old⟩ (by rwa [hstart])
  rw [hstart] at ht
  refine ⟨us, ws, r, ht, ?_⟩
  cases r with
  | none => simpa [Filling, Outcome] using ho
  | some f =>
    obtain ⟨d, hd, hkept, hnames, hws⟩ := ho
    exact ⟨d, hd, (List.prefix_append _ _).trans hkept, by rw [hnames, hstart], hws⟩

/-- **Steps that fill a component compose.** -/
theorem bind (h : scope.Fills bound pre name step es added a)
    (hk : scope.Fills bound pre name (k a) es' added' x) :
    scope.Fills bound pre name (step >>= k) (es ++ es') (added ++ added') x := by
  intro post c old hpost hb
  obtain ⟨us, ws, r, ht, ho⟩ := h post c old hpost hb
  cases r with
  | none =>
    -- the types that the first step brought in stand behind the component that is being filled
    have hpost' : name ∉ Registry.names (post ++ us.map scope.finished) := by
      rw [Registry.names_append, List.mem_append, not_or]
      exact ⟨hpost, notMem_names_finished ht (by simp)⟩
    have hseen : pre.names ++ name :: Registry.names (post ++ us.map scope.finished)
        = (pre.names ++ name :: post.names) ++ scope.namesOf us := by simp
    obtain ⟨vs, xs, r, ht', ho'⟩ := hk (post ++ us.map scope.finished)
      { c with properties := c.properties ++ added } (old ++ ws) hpost'
      (hseen ▸ Nat.lt_of_le_of_lt (missing_append_le _ _) hb)
    refine ⟨us ++ vs, ws ++ xs, r, ht.append (hseen ▸ ht'), ?_⟩
    rw [Build.run'_bind, show step.run' _ = _ from ho]
    cases r with
    | none => simpa [Filling] using ho'
    | some f =>
      obtain ⟨d, hd, hkept, hnames, hws⟩ := ho'
      exact ⟨d, by simpa using hd, hkept, by simpa using hnames, by simpa using hws⟩
  | some f =>
    obtain ⟨d, hd, hrest⟩ := ho
    refine ⟨us, ws, some f, ht.append_stop es', d, ?_, hrest⟩
    rw [Build.run'_bind, hd]

theorem map (h : scope.Fills bound pre name step es added a) (g : α → β) :
    scope.Fills bound pre name (step >>= fun x => Pure.pure (g x)) es added (g a) := by
  simpa using h.bind (k := fun x => Pure.pure (g x)) (.of_follows (.pure (g a)))

theorem lift_ok (hk : scope.Fills bound pre name (k a) es added x) :
    scope.Fills bound pre name (liftM (.ok a : Except Failure α) >>= k) es added x := by
  intro post c old hpost hb
  obtain ⟨us, ws, r, ht, ho⟩ := hk post c old hpost hb
  exact ⟨us, ws, r, ht, by rwa [Build.run'_bind, Build.run'_lift]⟩

theorem lift_error (f : Failure) (es : List Errand) (added : List (String × Property)) (x : β) :
    scope.Fills bound pre name (liftM (.error f : Except Failure α) >>= k) (.stop f :: es) added x := by
  intro post c old _ _
  refine ⟨[], [], some f, .stop, ⟨pre ++ (name, .built c) :: post, old⟩, ?_, List.prefix_append _ _, by simp,
    by simp⟩
  rw [Build.run'_bind, Build.run'_lift]

/-- Adding one property. -/
theorem update (hpre : name ∉ pre.names) (p : String × Property) :
    scope.Fills bound pre name
      (Build.update <| Registry.change name fun c => { c with properties := c.properties ++ [p] }) [] [p] () := by
  intro post c old hpost _
  refine ⟨[], [], none, .done, ?_⟩
  simp [Filling, Registry.change_middle hpre hpost]

end Fills

/-- **Adding fields** runs through their errands and fills the component under the name, field by field. -/
theorem fills_addFields {bound : Nat} {conv : TypeExpr → Build Unit}
    (hconv : ∀ t, scope.Follows bound (conv t) [.visit t] ()) {pre : Registry} {name : String}
    (hpre : name ∉ pre.names) (fields : List Param) :
    scope.Fills bound pre name (scope.addFields conv name fields) (fields.flatMap (scope.fieldErrands name))
      (fields.filterMap scope.propertyOf) (fields.filterMap scope.requiredName) := by
  induction fields with
  | nil => exact .of_follows (.pure [])
  | cons p fields ih =>
    have htype : scope.Fills bound pre name (scope.buildWith conv p.type) (scope.typeErrands p.type) []
        (scope.fragment p.type) := .of_follows (follows_buildWith hconv p.type)
    rw [addFields, List.flatMap_cons, fieldErrands, typedErrands, List.append_assoc]
    cases hs : scope.fragment p.type with
    | none =>
      rw [List.filterMap_cons_none (by simp [propertyOf, hs]), List.filterMap_cons_none (by simp [requiredName, hs])]
      rw [hs] at htype
      exact htype.bind (Fills.bind (.of_follows (.warn _)) ih)
    | some schema =>
      have hproperty : scope.propertyOf p = some (p.name, ⟨schema, defaultOf p⟩) := by simp [propertyOf, hs]
      have hrequired : (p :: fields).filterMap scope.requiredName
          = if p.required && !schema.nullable then p.name :: fields.filterMap scope.requiredName
            else fields.filterMap scope.requiredName := by
        have hname : scope.requiredName p = if p.required && !schema.nullable then some p.name else none := by
          simp only [requiredName, hs, Option.bind_some]
        rw [List.filterMap_cons, hname]
        cases p.required && !schema.nullable <;> rfl
      rw [hs] at htype
      rw [List.filterMap_cons_some hproperty, hrequired]
      refine htype.bind ?_
      dsimp only [defaultErrands, defaultOf]
      cases documentedDefault p with
      | error f => exact .lift_error f _ _ _
      | ok v =>
        exact .lift_ok (Fills.bind (.update hpre _) (ih.map fun more =>
          if p.required && !schema.nullable then p.name :: more else more))

/-! ### Types -/

/-- Enters a type: takes its name, and adds its fields. -/
def enter (scope : Scope) (conv : TypeExpr → Build Unit) (t : TypeExpr) : Build Unit := do
  Build.update fun r => r ++ [(scope.types.typeName t, .built .empty)]
  let fields ← (scope.fieldsOf t : Except Failure (List Param))
  let required ← scope.addFields conv (scope.types.typeName t) fields
  Build.update <| Registry.change (scope.types.typeName t) fun c => { c with required := required }

theorem convertWithin_succ (bound : Nat) (t : TypeExpr) :
    scope.convertWithin (bound + 1) t = (do
      if ← Build.isRegistered (scope.types.typeName t) then return ()
      scope.enter (scope.convertWithin bound) t) := rfl

/-- Adding the fields of a type to a component that was just registered.  A type that has fields takes its own
name from the missing ones before its fields are visited. -/
theorem filling_addFields {bound : Nat} {conv : TypeExpr → Build Unit}
    (hconv : ∀ t, scope.Follows bound (conv t) [.visit t] ()) {t : TypeExpr} {fields : List Param}
    (hf : scope.fieldsOf t = .ok fields) {b : Builder} (hname : scope.types.typeName t ∉ b.registry.names)
    (hb : scope.missing b.registry.names < bound + 1) :
    ∃ us ws r, scope.Traverses (b.registry.names ++ [scope.types.typeName t]) (scope.structErrands t) us ws r ∧
      Filling scope b.registry [] (scope.types.typeName t) .empty b.warnings (fields.filterMap scope.propertyOf)
        us ws (fields.filterMap scope.requiredName) r
        ((scope.addFields conv (scope.types.typeName t) fields).run'
          ⟨b.registry ++ [(scope.types.typeName t, .built .empty)], b.warnings⟩) := by
  rw [structErrands, hf]
  cases fields with
  | nil => exact ⟨[], [], none, .done, by simp [Filling, addFields]⟩
  | cons p fields =>
    have hlt := missing_snoc_lt (typeName_mem_structNames hf) hname
    exact fills_addFields hconv hname (p :: fields) [] .empty b.warnings (by simp) (by
      rw [Registry.names_nil]
      omega)

/-- **Entering a type** registers it, with everything that its fields refer to. -/
theorem outcome_enter {bound : Nat} {conv : TypeExpr → Build Unit}
    (hconv : ∀ t, scope.Follows bound (conv t) [.visit t] ()) {t : TypeExpr} {b : Builder}
    (hname : scope.types.typeName t ∉ b.registry.names) (hb : scope.missing b.registry.names < bound + 1) :
    ∃ us ws r, scope.Traverses (b.registry.names ++ [scope.types.typeName t]) (scope.structErrands t) us ws r ∧
      Outcome scope b (t :: us) ws () r ((scope.enter conv t).run' b) := by
  simp only [enter, Build.run'_bind, Build.run'_update, Build.run'_lift]
  cases hf : scope.fieldsOf t with
  | error f =>
    have hstop : scope.structErrands t = [.stop f] := by simp [structErrands, hf]
    rw [hstop]
    exact ⟨[], [], some f, .stop, _, rfl, List.prefix_append _ _, by simp, by simp⟩
  | ok fields =>
    obtain ⟨us, ws, r, ht, hfill⟩ := filling_addFields hconv hf hname hb
    refine ⟨us, ws, r, ht, ?_⟩
    dsimp only
    cases r with
    | none =>
      have hus : scope.types.typeName t ∉ Registry.names (us.map scope.finished) :=
        notMem_names_finished ht (by simp)
      rw [show (scope.addFields conv (scope.types.typeName t) fields).run' _ = _ from hfill]
      simp [Outcome, Registry.change_middle hname hus, finished, componentOf, componentFrom, fieldList, hf,
        Component.empty]
    | some f =>
      obtain ⟨c, hc, hkept, hnames, hws⟩ := hfill
      exact ⟨c, by rw [hc], hkept, by simpa using hnames, hws⟩

/-- **Registering a type** within a bound visits it: from every registry with fewer missing names than the bound,
the type is entered unless its name is registered. -/
theorem follows_convertWithin (bound : Nat) :
    ∀ t : TypeExpr, scope.Follows bound (scope.convertWithin bound t) [.visit t] () := by
  induction bound with
  | zero => exact fun t b hb => absurd hb (Nat.not_lt_zero _)
  | succ bound ih =>
    intro t b hb
    rw [convertWithin_succ, Build.run'_bind, Build.run'_isRegistered]
    cases hn : b.registry.has (scope.types.typeName t) with
    | true =>
      exact ⟨[], [], none, .known ((Registry.has_iff_mem_names _ _).1 hn) .done, by simp [Outcome]⟩
    | false =>
      have hname : scope.types.typeName t ∉ b.registry.names := (Registry.has_eq_false_iff _ _).1 hn
      obtain ⟨us, ws, r, ht, hout⟩ := outcome_enter ih hname hb
      cases r with
      | none =>
        refine ⟨t :: us ++ [], ws ++ [], none, .enter hname ht .done, ?_⟩
        rw [List.append_nil, List.append_nil]
        exact hout
      | some f => exact ⟨t :: us, ws, some f, .abort hname ht, hout⟩

/-! ### The bound on nested types -/

theorem buildWith_congr {conv conv' : TypeExpr → Build Unit} {b : Builder}
    (h : ∀ t, (conv t).run' b = (conv' t).run' b) (t : TypeExpr) :
    (scope.buildWith conv t).run' b = (scope.buildWith conv' t).run' b := by
  unfold buildWith
  refine Build.run'_bind_congr rfl fun d c hd => ?_
  rw [Build.run'_lift, Prod.mk.injEq] at hd
  obtain ⟨-, rfl⟩ := hd
  cases d.target with
  | none => rfl
  | some target =>
    refine Build.run'_bind_congr rfl fun known c hk => ?_
    rw [Build.run'_isRegistered, Prod.mk.injEq] at hk
    obtain ⟨-, rfl⟩ := hk
    cases known with
    | true => rfl
    | false => exact Build.run'_bind_congr (h target) fun _ _ _ => rfl

/-- After a step that succeeds no more names are missing. -/
theorem Follows.missing_le {α : Type} {bound : Nat} {step : Build α} {es : List Errand} {a x : α} {b c : Builder}
    (h : scope.Follows bound step es a) (hb : scope.missing b.registry.names < bound)
    (hrun : step.run' b = (.ok x, c)) : scope.missing c.registry.names ≤ scope.missing b.registry.names := by
  obtain ⟨us, ws, r, -, ho⟩ := h b hb
  rw [hrun] at ho
  cases r with
  | none =>
    obtain ⟨-, rfl⟩ := Prod.mk.inj ho
    rw [Registry.names_append]
    exact missing_append_le _ _
  | some f =>
    obtain ⟨d, hd, -⟩ := ho
    cases hd

/-- Adding fields asks for nested types only where fewer names are missing than the bound. -/
theorem addFields_congr {bound : Nat} {conv conv' : TypeExpr → Build Unit}
    (hconv : ∀ t, scope.Follows bound (conv t) [.visit t] ())
    (hagree : ∀ t b, scope.missing b.registry.names < bound → (conv t).run' b = (conv' t).run' b)
    (name : String) (fields : List Param) :
    ∀ b : Builder, scope.missing b.registry.names < bound →
      (scope.addFields conv name fields).run' b = (scope.addFields conv' name fields).run' b := by
  induction fields with
  | nil => exact fun b _ => rfl
  | cons p fields ih =>
    intro b hb
    rw [addFields, addFields]
    refine Build.run'_bind_congr (buildWith_congr (fun t => hagree t b hb) p.type) fun s c hs => ?_
    have hc : scope.missing c.registry.names < bound :=
      Nat.lt_of_le_of_lt ((follows_buildWith hconv p.type).missing_le hb hs) hb
    cases s with
    | none =>
      refine Build.run'_bind_congr rfl fun _ d hd => ?_
      rw [Build.run'_warn, Prod.mk.injEq] at hd
      obtain ⟨-, rfl⟩ := hd
      exact ih _ hc
    | some s =>
      refine Build.run'_bind_congr rfl fun v d hd => ?_
      rw [Build.run'_lift, Prod.mk.injEq] at hd
      obtain ⟨-, rfl⟩ := hd
      refine Build.run'_bind_congr rfl fun _ d hd => ?_
      rw [Build.run'_update, Prod.mk.injEq] at hd
      obtain ⟨-, rfl⟩ := hd
      exact Build.run'_bind_congr (ih _ (by rwa [Registry.names_change])) fun _ _ _ => rfl

/-- A larger bound changes nothing where fewer names are missing than the smaller one. -/
theorem convertWithin_congr (m : Nat) : ∀ (n : Nat) (t : TypeExpr) (b : Builder), m ≤ n →
    scope.missing b.registry.names < m → (scope.convertWithin m t).run' b = (scope.convertWithin n t).run' b := by
  induction m with
  | zero => exact fun n t b _ hb => absurd hb (Nat.not_lt_zero _)
  | succ m ih =>
    intro n t b hle hb
    obtain ⟨n, rfl⟩ := Nat.exists_eq_succ_of_ne_zero (Nat.ne_of_gt (Nat.lt_of_lt_of_le (Nat.succ_pos m) hle))
    rw [convertWithin, convertWithin]
    refine Build.run'_bind_congr rfl fun known c hk => ?_
    rw [Build.run'_isRegistered, Prod.mk.injEq] at hk
    obtain ⟨hk, rfl⟩ := hk
    cases known with
    | true => rw [if_pos rfl, if_pos rfl]
    | false =>
      have hname : scope.types.typeName t ∉ b.registry.names :=
        (Registry.has_eq_false_iff _ _).1 (Except.ok.inj hk)
      refine Build.run'_bind_congr rfl fun _ c hc => ?_
      rw [Build.run'_update, Prod.mk.injEq] at hc
      obtain ⟨-, rfl⟩ := hc
      refine Build.run'_bind_congr rfl fun fields c hf => ?_
      rw [Build.run'_lift, Prod.mk.injEq] at hf
      obtain ⟨hf, rfl⟩ := hf
      refine Build.run'_bind_congr ?_ fun _ _ _ => rfl
      cases fields with
      | nil => rw [addFields, addFields]
      | cons p fields =>
        have hlt := missing_snoc_lt (typeName_mem_structNames hf) hname
        refine addFields_congr (follows_convertWithin m) (fun t b => ih n t b (Nat.le_of_succ_le_succ hle)) _ _ _ ?_
        simp only [Registry.names_append, Registry.names_cons, Registry.names_nil]
        omega

/-- **The bound is never what ends the recursion**: any one above the number of missing names gives the same. -/
theorem run'_convertWithin {n : Nat} {b : Builder} (h : scope.missing b.registry.names < n) (t : TypeExpr) :
    (scope.convertWithin n t).run' b = (scope.convert t).run' b := by
  rcases Nat.le_total n scope.depth with hle | hle
  · exact convertWithin_congr n scope.depth t b hle h
  · exact (convertWithin_congr scope.depth n t b hle (missing_lt_depth _)).symm

theorem convertWithin_eq_convert {n : Nat} (h : scope.depth ≤ n) (t : TypeExpr) :
    scope.convertWithin n t = scope.convert t :=
  funext fun b => run'_convertWithin (b := b) (Nat.lt_of_lt_of_le (missing_lt_depth _) h) t

/-- **Registering a type without a bound**: the equation that the recursion over fields is given by. -/
theorem convert_eq (t : TypeExpr) :
    scope.convert t = (do
      if ← Build.isRegistered (scope.types.typeName t) then return ()
      Build.update fun r => r ++ [(scope.types.typeName t, .built .empty)]
      let fields ← (scope.fieldsOf t : Except Failure (List Param))
      let required ← scope.addFields scope.convert (scope.types.typeName t) fields
      Build.update <| Registry.change (scope.types.typeName t) fun c => { c with required := required }) := by
  rw [← convertWithin_eq_convert (Nat.le_succ scope.depth) t, convertWithin]
  simp only [show scope.convertWithin scope.depth = scope.convert from rfl]

/-- **Registering a type visits it**, from every registry. -/
theorem follows_convert (t : TypeExpr) : scope.Follows scope.depth (scope.convert t) [.visit t] () :=
  follows_convertWithin scope.depth t

/-- **Describing a type** registers what it refers to and gives its fragment, from every registry. -/
theorem follows_build (t : TypeExpr) :
    scope.Follows scope.depth (scope.build t) (scope.typeErrands t) (scope.fragment t) :=
  follows_buildWith follows_convert t

/-- **Every traversal comes to an end.** -/
theorem Traverses.total (seen : List String) (es : List Errand) : ∃ us ws r, scope.Traverses seen es us ws r := by
  induction es generalizing seen with
  | nil => exact ⟨[], [], none, .done⟩
  | cons e es ih =>
    cases e with
    | notice w =>
      obtain ⟨us, ws, r, h⟩ := ih seen
      exact ⟨us, w :: ws, r, .notice h⟩
    | stop f => exact ⟨[], [], some f, .stop⟩
    | visit t =>
      have hseen : Registry.names (seen.map fun n => (n, Entry.given .null)) = seen := by
        rw [Registry.names, List.map_map]
        exact List.map_id seen
      obtain ⟨us, ws, r, h, -⟩ := (follows_convert t).total ⟨seen.map fun n => (n, Entry.given .null), []⟩
      rw [hseen] at h
      cases r with
      | some f => exact ⟨us, ws, some f, h.append_stop es⟩
      | none =>
        obtain ⟨vs, xs, r, hrest⟩ := ih (seen ++ scope.namesOf us)
        exact ⟨us ++ vs, ws ++ xs, r, h.append hrest⟩

end Scope

end RouteDoc
