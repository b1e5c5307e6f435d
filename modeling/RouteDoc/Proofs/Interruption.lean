import RouteDoc.Proofs.Operations

/-!
# Interrupted descriptions

A description that fails leaves what it had registered by then.  A type whose fields had all been added is
finished, as in a description that succeeds.  A type that was under way keeps its name and the properties of its
first fields, and nothing is required in it.

* `Conversion`, `Scope.Begun` — what becomes of a type that is entered;
* `Scope.Breaks` — what became of the types that a failing traversal had entered;
* `Scope.Interrupts` — a step that, when it fails, leaves exactly that behind what was registered;
* `Scope.interrupts_operation` — describing a route is such a step.
-/

namespace RouteDoc

/-- What becomes of a type that is entered. -/
inductive Conversion where
  | finished (t : TypeExpr)
  /-- The type was under way when something failed, with the given component. -/
  | begun (t : TypeExpr) (c : Component)
  deriving Inhabited

namespace Scope

variable {scope : Scope}

/-- The entry that stands for a type that was entered. -/
def entryLeft (scope : Scope) : Conversion → String × Entry
  | .finished t => scope.finished t
  | .begun t c => (scope.types.typeName t, .built c)

/-- The component of a type that is under way: the properties of its first fields. -/
structure Begun (scope : Scope) (t : TypeExpr) (c : Component) : Prop where
  required_eq : c.required = []
  properties_prefix : c.properties <+: (scope.componentOf t).properties

/-- What becomes of the types that are entered until something fails. -/
inductive Breaks (scope : Scope) : List String → List Errand → List Conversion → Prop
  | stop {seen : List String} {f : Failure} {es : List Errand} : Breaks scope seen (.stop f :: es) []
  /-- The first errands are run through without failure. -/
  | later {seen : List String} {es es' : List Errand} {us : List TypeExpr} {ws : List Warning}
      {left : List Conversion} :
      scope.Traverses seen es us ws none → Breaks scope (seen ++ scope.namesOf us) es' left →
      Breaks scope seen (es ++ es') (us.map Conversion.finished ++ left)
  /-- The failure is met among the fields of a type, which stays as it is then. -/
  | inside {seen : List String} {t : TypeExpr} {c : Component} {es : List Errand} {left : List Conversion} :
      scope.types.typeName t ∉ seen → scope.Begun t c →
      Breaks scope (seen ++ [scope.types.typeName t]) (scope.structErrands t) left →
      Breaks scope seen (.visit t :: es) (.begun t c :: left)

namespace Breaks

variable {seen : List String} {es : List Errand} {left : List Conversion}

theorem append (h : scope.Breaks seen es left) (es' : List Errand) : scope.Breaks seen (es ++ es') left := by
  induction h with
  | stop => exact .stop
  | later ht _ ih =>
    rw [List.append_assoc]
    exact .later ht ih
  | inside hname hc hfields _ => exact .inside hname hc hfields

/-- What breaks is a traversal that fails. -/
theorem exists_traverses (h : scope.Breaks seen es left) :
    ∃ us ws f, scope.Traverses seen es us ws (some f) := by
  induction h with
  | stop => exact ⟨_, _, _, .stop⟩
  | later ht _ ih =>
    obtain ⟨us, ws, f, h⟩ := ih
    exact ⟨_, _, f, ht.append h⟩
  | inside hname _ _ ih =>
    obtain ⟨us, ws, f, h⟩ := ih
    exact ⟨_, _, f, .abort hname h⟩

/-- What a failing traversal finished has no field that fails. -/
theorem clean_of_finished (h : scope.Breaks seen es left) {t : TypeExpr} (ht : .finished t ∈ left) (f : Failure) :
    .stop f ∉ scope.structErrands t := by
  induction h with
  | stop => cases ht
  | later htrav _ ih =>
    rcases List.mem_append.1 ht with ht | ht
    · obtain ⟨u, hu, hut⟩ := List.mem_map.1 ht
      cases hut
      exact (htrav.stop_notMem f).2 t hu
    · exact ih ht
  | inside _ _ _ ih =>
    rcases List.mem_cons.1 ht with ht | ht
    · cases ht
    · exact ih ht

end Breaks

/-! ### Steps that may be interrupted -/

/-- When the step fails, what its errands have brought about by then stands behind what was registered, from
every builder with fewer missing names than the bound. -/
def Interrupts {α : Type} (scope : Scope) (bound : Nat) (step : Build α) (es : List Errand) : Prop :=
  ∀ (b c : Builder) (f : Failure), scope.missing b.registry.names < bound → step.run' b = (.error f, c) →
    ∃ left, scope.Breaks b.registry.names es left ∧ c.registry = b.registry ++ left.map scope.entryLeft

namespace Interrupts

variable {α β : Type} {bound : Nat} {step : Build α} {k : α → Build β} {es es' : List Errand} {a : α}

/-- A step that does not fail. -/
theorem of_ok (h : ∀ b, ∃ a c, step.run' b = (.ok a, c)) : scope.Interrupts bound step es := by
  intro b c f _ hrun
  obtain ⟨a, d, hok⟩ := h b
  rw [hok] at hrun
  cases hrun

theorem pure (a : α) : scope.Interrupts bound (pure a) es := .of_ok fun b => ⟨a, b, rfl⟩

/-- **Interrupted steps compose**: a failure of the second step comes after all that the first one did. -/
theorem bind (hm : scope.Follows bound step es a) (h : scope.Interrupts bound step es)
    (hk : scope.Interrupts bound (k a) es') : scope.Interrupts bound (step >>= k) (es ++ es') := by
  intro b c f hb hrun
  obtain ⟨us, ws, r, ht, ho⟩ := hm b hb
  cases r with
  | some g =>
    obtain ⟨d, hd, -⟩ := ho
    rw [Build.run'_bind, hd] at hrun
    cases hrun
    obtain ⟨left, hbreak, hreg⟩ := h b c f hb hd
    exact ⟨left, hbreak.append es', hreg⟩
  | none =>
    have hb' : scope.missing (b.registry ++ us.map scope.finished).names < bound := by
      rw [Registry.names_append]
      exact Nat.lt_of_le_of_lt (missing_append_le _ _) hb
    rw [Build.run'_bind, show step.run' b = _ from ho] at hrun
    obtain ⟨left, hbreak, hreg⟩ := hk _ c f hb' hrun
    refine ⟨us.map Conversion.finished ++ left, .later ht (by simpa using hbreak), ?_⟩
    rw [hreg, List.map_append, List.map_map, List.append_assoc]
    rfl

theorem map (hm : scope.Follows bound step es a) (h : scope.Interrupts bound step es) (g : α → β) :
    scope.Interrupts bound (step >>= fun x => Pure.pure (g x)) es := by
  have hlast : scope.Interrupts bound (Pure.pure (g a) : Build β) [] := .pure (g a)
  simpa using bind hm h (k := fun x => Pure.pure (g x)) hlast

theorem lift_ok (hk : scope.Interrupts bound (k a) es) :
    scope.Interrupts bound (liftM (.ok a : Except Failure α) >>= k) es := by
  intro b c f hb hrun
  rw [Build.run'_bind, Build.run'_lift] at hrun
  exact hk b c f hb hrun

theorem lift_error (f : Failure) (es : List Errand) :
    scope.Interrupts bound (liftM (.error f : Except Failure α) >>= k) (.stop f :: es) := by
  intro b c g _ hrun
  rw [Build.run'_bind, Build.run'_lift] at hrun
  cases hrun
  exact ⟨[], .stop, by simp⟩

theorem visit {conv : TypeExpr → Build Unit} {t : TypeExpr} {rest : Build β}
    (hconv : scope.Follows bound (conv t) [.visit t] ()) (h : scope.Interrupts bound (conv t) [.visit t])
    (hk : ∀ b, ∃ a c, rest.run' b = (.ok a, c)) :
    scope.Interrupts bound
      (Build.isRegistered (scope.types.typeName t) >>= fun known =>
        if (!known) = true then conv t >>= fun _ => rest else rest)
      (.visit t :: es) := by
  intro b c f hb hrun
  rw [Build.run'_bind, Build.run'_isRegistered] at hrun
  cases hn : b.registry.has (scope.types.typeName t) with
  | true =>
    rw [hn] at hrun
    exact of_ok hk b c f hb hrun
  | false =>
    rw [hn] at hrun
    exact bind hconv h (k := fun _ => rest) (of_ok hk) b c f hb hrun

end Interrupts

theorem interrupts_buildWith {bound : Nat} {conv : TypeExpr → Build Unit}
    (hfollows : ∀ t, scope.Follows bound (conv t) [.visit t] ())
    (hconv : ∀ t, scope.Interrupts bound (conv t) [.visit t]) (t : TypeExpr) :
    scope.Interrupts bound (scope.buildWith conv t) (scope.typeErrands t) := by
  unfold buildWith typeErrands
  cases scope.describe t with
  | error f => exact .lift_error f []
  | ok d =>
    have hrest : ∀ b, ∃ s c, (Build.warn d.warnings >>= fun _ => Pure.pure d.schema : Build (Option Schema)).run' b
        = (.ok s, c) := fun b => ⟨_, _, rfl⟩
    refine .lift_ok ?_
    dsimp only
    cases d.target with
    | none => exact .of_ok hrest
    | some target => exact .visit (hfollows target) (hconv target) hrest

/-! ### Fields -/

/-- When the step fails, some of the properties that it adds stand in the component under a name, and behind it
what its errands have brought about. -/
def Truncates {α : Type} (scope : Scope) (bound : Nat) (pre : Registry) (name : String) (step : Build α)
    (es : List Errand) (added : List (String × Property)) : Prop :=
  ∀ (post : Registry) (c : Component) (old : List Warning) (b : Builder) (f : Failure), name ∉ post.names →
    scope.missing (pre.names ++ name :: post.names) < bound →
    step.run' ⟨pre ++ (name, .built c) :: post, old⟩ = (.error f, b) →
    ∃ properties left, properties <+: c.properties ++ added ∧
      scope.Breaks (pre.names ++ name :: post.names) es left ∧
      b.registry = pre ++ (name, .built { c with properties := properties }) :: post
        ++ left.map scope.entryLeft

namespace Truncates

variable {α β : Type} {bound : Nat} {pre : Registry} {name : String} {step : Build α} {k : α → Build β}
  {es es' : List Errand} {added added' : List (String × Property)} {a : α}

/-- A step that adds nothing to the component. -/
theorem of_interrupts (h : scope.Interrupts bound step es) : scope.Truncates bound pre name step es added := by
  intro post c old b f _ hb hrun
  have hstart : Registry.names (pre ++ (name, .built c) :: post) = pre.names ++ name :: post.names := by simp
  obtain ⟨left, hbreak, hreg⟩ := h _ b f (by rwa [hstart]) hrun
  rw [hstart] at hbreak
  exact ⟨c.properties, left, List.prefix_append _ _, hbreak, hreg⟩

theorem bind (hm : scope.Fills bound pre name step es added a)
    (h : scope.Truncates bound pre name step es added) (hk : scope.Truncates bound pre name (k a) es' added') :
    scope.Truncates bound pre name (step >>= k) (es ++ es') (added ++ added') := by
  intro post c old b f hpost hb hrun
  obtain ⟨us, ws, r, ht, ho⟩ := hm post c old hpost hb
  cases r with
  | some g =>
    obtain ⟨d, hd, -⟩ := ho
    rw [Build.run'_bind, hd] at hrun
    cases hrun
    obtain ⟨properties, left, hprefix, hbreak, hreg⟩ := h post c old b f hpost hb hd
    refine ⟨properties, left, hprefix.trans ?_, hbreak.append es', hreg⟩
    rw [← List.append_assoc]
    exact List.prefix_append _ _
  | none =>
    -- the second step finds the component with all that the first one added, and more types behind it
    have hpost' : name ∉ Registry.names (post ++ us.map scope.finished) := by
      rw [Registry.names_append, List.mem_append, not_or]
      exact ⟨hpost, notMem_names_finished ht (by simp)⟩
    have hseen : pre.names ++ name :: Registry.names (post ++ us.map scope.finished)
        = (pre.names ++ name :: post.names) ++ scope.namesOf us := by simp
    have hstart : (pre ++ (name, .built { c with properties := c.properties ++ added }) :: post
        ++ us.map scope.finished : Registry)
          = pre ++ (name, .built { c with properties := c.properties ++ added })
            :: (post ++ us.map scope.finished) := by simp
    rw [Build.run'_bind, show step.run' _ = _ from ho] at hrun
    dsimp only at hrun
    rw [hstart] at hrun
    obtain ⟨properties, left, hprefix, hbreak, hreg⟩ := hk (post ++ us.map scope.finished)
      { c with properties := c.properties ++ added } (old ++ ws) b f hpost'
      (hseen ▸ Nat.lt_of_le_of_lt (missing_append_le _ _) hb) hrun
    refine ⟨properties, us.map Conversion.finished ++ left, ?_, .later ht (hseen ▸ hbreak), ?_⟩
    · rwa [← List.append_assoc]
    · simp [hreg, List.map_map, Function.comp_def, entryLeft]

theorem map (hm : scope.Fills bound pre name step es added a)
    (h : scope.Truncates bound pre name step es added) (g : α → β) :
    scope.Truncates bound pre name (step >>= fun x => Pure.pure (g x)) es added := by
  have hlast : scope.Truncates bound pre name (Pure.pure (g a) : Build β) [] [] := .of_interrupts (.pure (g a))
  simpa using bind hm h (k := fun x => Pure.pure (g x)) hlast

theorem lift_ok (hk : scope.Truncates bound pre name (k a) es added) :
    scope.Truncates bound pre name (liftM (.ok a : Except Failure α) >>= k) es added := by
  intro post c old b f hpost hb hrun
  rw [Build.run'_bind, Build.run'_lift] at hrun
  exact hk post c old b f hpost hb hrun

end Truncates

/-- Adding fields leaves, when one of them fails, the properties of those before it. -/
theorem truncates_addFields {bound : Nat} {conv : TypeExpr → Build Unit}
    (hfollows : ∀ t, scope.Follows bound (conv t) [.visit t] ())
    (hconv : ∀ t, scope.Interrupts bound (conv t) [.visit t]) {pre : Registry} {name : String}
    (hpre : name ∉ pre.names) (fields : List Param) :
    scope.Truncates bound pre name (scope.addFields conv name fields) (fields.flatMap (scope.fieldErrands name))
      (fields.filterMap scope.propertyOf) := by
  induction fields with
  | nil => exact .of_interrupts (.pure [])
  | cons p fields ih =>
    have htype : scope.Fills bound pre name (scope.buildWith conv p.type) (scope.typeErrands p.type) []
        (scope.fragment p.type) := .of_follows (follows_buildWith hfollows p.type)
    have hbroken : scope.Truncates bound pre name (scope.buildWith conv p.type) (scope.typeErrands p.type) [] :=
      .of_interrupts (interrupts_buildWith hfollows hconv p.type)
    have hfields := fills_addFields hfollows hpre fields
    rw [addFields, List.flatMap_cons, fieldErrands, typedErrands, List.append_assoc]
    cases hs : scope.fragment p.type with
    | none =>
      have hwarn : scope.Fills bound pre name (Build.warn [.undescribedField name p.name])
          [.notice (.undescribedField name p.name)] [] () := .of_follows (.warn _)
      have hsilent : scope.Truncates bound pre name (Build.warn [.undescribedField name p.name])
          [.notice (.undescribedField name p.name)] [] := .of_interrupts (.of_ok fun b => ⟨_, _, rfl⟩)
      rw [List.filterMap_cons_none (by simp [propertyOf, hs])]
      rw [hs] at htype
      exact .bind htype hbroken (.bind hwarn hsilent ih)
    | some schema =>
      have hproperty : scope.propertyOf p = some (p.name, ⟨schema, defaultOf p⟩) := by simp [propertyOf, hs]
      rw [List.filterMap_cons_some hproperty]
      rw [hs] at htype
      refine .bind htype hbroken ?_
      dsimp only [defaultErrands, defaultOf]
      cases documentedDefault p with
      | error f => exact .of_interrupts (.lift_error f _)
      | ok v =>
        have hadded : scope.Fills bound pre name (Build.update <| Registry.change name fun c =>
            { c with properties := c.properties ++ [(p.name, ⟨schema, v⟩)] }) [] [(p.name, ⟨schema, v⟩)] () :=
          .update hpre _
        have hkept : scope.Truncates bound pre name (Build.update <| Registry.change name fun c =>
            { c with properties := c.properties ++ [(p.name, ⟨schema, v⟩)] }) [] [(p.name, ⟨schema, v⟩)] :=
          .of_interrupts (.of_ok fun b => ⟨_, _, rfl⟩)
        refine .lift_ok (.bind hadded hkept ?_)
        -- after the other fields only a name is put in front
        exact .map (fills_addFields hfollows hpre fields) ih _

/-! ### Types -/

/-- **Entering a type** leaves it under way when one of its fields fails. -/
theorem breaks_enter {bound : Nat} {conv : TypeExpr → Build Unit}
    (hfollows : ∀ t, scope.Follows bound (conv t) [.visit t] ())
    (hconv : ∀ t, scope.Interrupts bound (conv t) [.visit t]) {t : TypeExpr} {b c : Builder} {f : Failure}
    (hname : scope.types.typeName t ∉ b.registry.names) (hb : scope.missing b.registry.names < bound + 1)
    (hrun : (scope.enter conv t).run' b = (.error f, c)) :
    ∃ component left, scope.Begun t component ∧
      scope.Breaks (b.registry.names ++ [scope.types.typeName t]) (scope.structErrands t) left ∧
      c.registry = b.registry ++ (.begun t component :: left).map scope.entryLeft := by
  simp only [enter, Build.run'_bind, Build.run'_update, Build.run'_lift] at hrun
  cases hf : scope.fieldsOf t with
  | error g =>
    rw [hf] at hrun
    cases hrun
    refine ⟨.empty, [], ⟨rfl, List.nil_prefix⟩, ?_, by simp [entryLeft]⟩
    rw [structErrands, hf]
    exact .stop
  | ok fields =>
    rw [hf] at hrun
    dsimp only at hrun
    cases fields with
    | nil => simp [addFields] at hrun
    | cons p fields =>
      have hlt := missing_snoc_lt (typeName_mem_structNames hf) hname
      have hadd := truncates_addFields hfollows hconv hname (p :: fields)
      cases hrest : (scope.addFields conv (scope.types.typeName t) (p :: fields)).run'
          ⟨b.registry ++ [(scope.types.typeName t, .built .empty)], b.warnings⟩ with
      | mk r d =>
        rw [hrest] at hrun
        cases r with
        | ok names => cases hrun
        | error g =>
          cases hrun
          obtain ⟨properties, left, hprefix, hbreak, hreg⟩ := hadd [] .empty b.warnings c f (by simp)
            (by rw [Registry.names_nil]; omega) hrest
          refine ⟨⟨properties, []⟩, left, ⟨rfl, ?_⟩, ?_, ?_⟩
          · simpa [componentOf, componentFrom, fieldList, hf, Component.empty] using hprefix
          · rw [structErrands, hf]
            exact hbreak
          · simpa [entryLeft, Component.empty] using hreg

theorem interrupts_convertWithin (bound : Nat) :
    ∀ t : TypeExpr, scope.Interrupts bound (scope.convertWithin bound t) [.visit t] := by
  induction bound with
  | zero => exact fun t b c f hb => absurd hb (Nat.not_lt_zero _)
  | succ bound ih =>
    intro t b c f hb hrun
    rw [convertWithin_succ, Build.run'_bind, Build.run'_isRegistered] at hrun
    cases hn : b.registry.has (scope.types.typeName t) with
    | true =>
      rw [hn] at hrun
      cases hrun
    | false =>
      rw [hn] at hrun
      have hname : scope.types.typeName t ∉ b.registry.names := (Registry.has_eq_false_iff _ _).1 hn
      obtain ⟨component, left, hbegun, hbreak, hreg⟩ :=
        breaks_enter (follows_convertWithin bound) ih hname hb hrun
      exact ⟨_, .inside hname hbegun hbreak, hreg⟩

theorem interrupts_convert (t : TypeExpr) : scope.Interrupts scope.depth (scope.convert t) [.visit t] :=
  interrupts_convertWithin scope.depth t

theorem interrupts_build (t : TypeExpr) :
    scope.Interrupts scope.depth (scope.build t) (scope.typeErrands t) :=
  interrupts_buildWith follows_convert interrupts_convert t

/-! ### Routes -/

theorem interrupts_convertBodies (ps : List Param) :
    scope.Interrupts scope.depth (scope.convertBodies ps) (ps.flatMap scope.bodyErrands) := by
  induction ps with
  | nil => exact .pure ()
  | cons p ps ih =>
    rw [convertBodies, List.flatMap_cons, bodyErrands]
    dsimp only
    cases scope.types.isStruct (Content.payload scope.types p) with
    | true => exact .bind (k := fun _ => scope.convertBodies ps) (follows_convert _) (interrupts_convert _) ih
    | false => exact ih

theorem interrupts_entry (location : Location) (p : Param) :
    scope.Interrupts scope.depth (scope.entry location p) (scope.entryErrands location p) := by
  refine .bind (follows_build (scope.types.extractType p.type)) (interrupts_build _) ?_
  cases scope.fragment (scope.types.extractType p.type) with
  | none => exact .of_ok fun b => ⟨_, _, rfl⟩
  | some s =>
    dsimp only [defaultErrands]
    cases documentedDefault p with
    | error f => exact .lift_error f []
    | ok v => exact .lift_ok (.pure _)

theorem interrupts_entriesFrom (location : Location) (ps : List Param) :
    scope.Interrupts scope.depth (scope.entriesFrom location ps) (ps.flatMap (scope.entryErrands location)) := by
  induction ps with
  | nil => exact .pure []
  | cons p ps ih =>
    rw [entriesFrom, List.flatMap_cons]
    exact .bind (follows_entry location p) (interrupts_entry location p)
      (.map (follows_entriesFrom location ps) ih _)

theorem interrupts_entries (location : Location) (turn : Nat) (p : Param) :
    scope.Interrupts scope.depth (scope.entries location turn p) (scope.paramErrands location turn p) := by
  unfold entries paramErrands
  cases scope.candidates turn p with
  | error f => exact .lift_error f []
  | ok candidates => exact .lift_ok (interrupts_entriesFrom location candidates)

theorem interrupts_entriesAll (location : Location) (ps : List (Param × Nat)) :
    scope.Interrupts scope.depth (scope.entriesAll location ps) (scope.turnErrands (ps.map (Prod.mk location))) := by
  induction ps with
  | nil => exact .pure []
  | cons p ps ih =>
    exact .bind (follows_entries location p.2 p.1) (interrupts_entries location p.2 p.1)
      (.map (follows_entriesAll location ps) ih _)

theorem interrupts_allEntries (path query header : List Param) :
    scope.Interrupts scope.depth (scope.allEntries path query header)
      (scope.turnErrands (inTurn path query header)) := by
  rw [inTurn, turnErrands_append, turnErrands_append]
  exact .bind (follows_entriesAll .path _) (interrupts_entriesAll .path _) <|
    .bind (follows_entriesAll .query _) (interrupts_entriesAll .query _) <|
      .map (follows_entriesAll .header _) (interrupts_entriesAll .header _) _

theorem interrupts_schemasOf (ts : List TypeExpr) :
    scope.Interrupts scope.depth (scope.schemasOf ts) (ts.flatMap scope.typeErrands) := by
  induction ts with
  | nil => exact .pure []
  | cons t ts ih =>
    rw [schemasOf, List.flatMap_cons]
    exact .bind (follows_build t) (interrupts_build t) (.map (follows_schemasOf ts) ih _)

theorem interrupts_content {α : Type} {k : List (String × Value) → Build α} {es : List Errand} (ps : List Param)
    (hk : scope.Interrupts scope.depth (k (Content.entries scope.types ps)) es) :
    scope.Interrupts scope.depth
      (liftM (Content.content scope.types ps : Except Failure (List (String × Value))) >>= k)
      (scope.contentErrands ps ++ es) := by
  unfold contentErrands Content.content
  cases ps.findSome? (Content.obstacle? scope.types) with
  | some kind => exact .lift_error _ es
  | none => exact .lift_ok hk

/-- **Describing a route** leaves, when it fails, what its errands have brought about by then. -/
theorem interrupts_operation (route : Route) (tags : List String) :
    scope.Interrupts scope.depth (scope.operation route tags) (scope.routeErrands route) := by
  rw [routeErrands, List.append_assoc]
  exact .bind (follows_convertBodies _) (interrupts_convertBodies _) <|
    .bind (follows_allEntries _ _ _) (interrupts_allEntries _ _ _) <| interrupts_content _ <|
      .map (follows_responses _) (.map (follows_schemasOf _) (interrupts_schemasOf _) _) _

end Scope

end RouteDoc
