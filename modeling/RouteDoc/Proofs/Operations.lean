import RouteDoc.Proofs.Registration

/-!
# Describing routes

The description of a route runs through the errands of its bodies, its parameters and its results, in this
order.  When nothing fails, the operation depends on the declarations, the route and its tags alone.

* `Scope.operationOf` — the operation of a route, from the declarations alone;
* `Scope.follows_operation` — describing a route follows its errands and gives this operation.
-/

namespace RouteDoc

namespace Scope

variable {scope : Scope}

/-! ### Operations from the declarations -/

/-- The entry of a parameter, if its type has a description. -/
def entryFor (scope : Scope) (location : Location) (p : Param) : Option RequestParameter :=
  (scope.fragment (scope.types.extractType p.type)).map fun s => scope.entryOf location p s (defaultOf p)

/-- The parameters that a parameter stands for at its turn, as far as they can be read. -/
def candidateList (scope : Scope) (turn : Nat) (p : Param) : List Param :=
  match scope.candidates turn p with
  | .ok candidates => candidates
  | .error _ => []

/-- The entries of a parameter at its turn. -/
def entriesFor (scope : Scope) (location : Location) (turn : Nat) (p : Param) : List RequestParameter :=
  (scope.candidateList turn p).filterMap (scope.entryFor location)

/-- The entries of parameters in turn. -/
def turnEntries (scope : Scope) (ps : List (Location × Param × Nat)) : List RequestParameter :=
  ps.flatMap fun (location, p, turn) => scope.entriesFor location turn p

/-- The entries of the parameters of a route. -/
def parametersOf (scope : Scope) (route : Route) : List RequestParameter :=
  scope.turnEntries (inTurn route.pathParams route.queryParams route.headerParams)

/-- The distinct schemas of result types. -/
def responsesOf (scope : Scope) (results : List TypeExpr) : Responses :=
  ⟨Responses.distinct ((Responses.concreteTypes results).filterMap scope.fragment)⟩

/-- The operation of a route. -/
def operationOf (scope : Scope) (route : Route) (tags : List String) : Operation :=
  ⟨tags, scope.parametersOf route, scope.responsesOf route.returnTypes,
    requestBody route (Content.entries scope.types route.bodyParams)⟩

theorem filterMap_cons_toList {α β : Type} (f : α → Option β) (a : α) (l : List α) :
    (a :: l).filterMap f = (f a).toList ++ l.filterMap f := by
  cases h : f a <;> simp [h]

/-! ### Parts of a route -/

theorem follows_convertBodies (ps : List Param) :
    scope.Follows scope.depth (scope.convertBodies ps) (ps.flatMap scope.bodyErrands) () := by
  induction ps with
  | nil => exact .pure ()
  | cons p ps ih =>
    rw [convertBodies, List.flatMap_cons, bodyErrands]
    dsimp only
    cases scope.types.isStruct (Content.payload scope.types p) with
    | true => exact (follows_convert _).bind (k := fun _ => scope.convertBodies ps) ih
    | false => exact ih

theorem follows_entry (location : Location) (p : Param) :
    scope.Follows scope.depth (scope.entry location p) (scope.entryErrands location p)
      (scope.entryFor location p) := by
  refine (follows_build (scope.types.extractType p.type)).bind ?_
  unfold entryFor
  cases scope.fragment (scope.types.extractType p.type) with
  | none => exact (Follows.warn _).map fun _ => none
  | some s =>
    dsimp only [defaultErrands, defaultOf, Option.map_some]
    cases documentedDefault p with
    | error f => exact .lift_error f [] _
    | ok v => exact .lift_ok (.pure _)

theorem follows_entriesFrom (location : Location) (ps : List Param) :
    scope.Follows scope.depth (scope.entriesFrom location ps) (ps.flatMap (scope.entryErrands location))
      (ps.filterMap (scope.entryFor location)) := by
  induction ps with
  | nil => exact .pure []
  | cons p ps ih =>
    rw [entriesFrom, List.flatMap_cons, filterMap_cons_toList]
    exact (follows_entry location p).bind (ih.map _)

theorem follows_entries (location : Location) (turn : Nat) (p : Param) :
    scope.Follows scope.depth (scope.entries location turn p) (scope.paramErrands location turn p)
      (scope.entriesFor location turn p) := by
  unfold entries paramErrands entriesFor candidateList
  cases scope.candidates turn p with
  | error f => exact .lift_error f [] _
  | ok candidates => exact .lift_ok (follows_entriesFrom location candidates)

theorem follows_entriesAll (location : Location) (ps : List (Param × Nat)) :
    scope.Follows scope.depth (scope.entriesAll location ps) (scope.turnErrands (ps.map (Prod.mk location)))
      (scope.turnEntries (ps.map (Prod.mk location))) := by
  induction ps with
  | nil => exact .pure []
  | cons p ps ih => exact (follows_entries location p.2 p.1).bind (ih.map _)

theorem turnErrands_append (ps qs : List (Location × Param × Nat)) :
    scope.turnErrands (ps ++ qs) = scope.turnErrands ps ++ scope.turnErrands qs := List.flatMap_append

theorem turnEntries_append (ps qs : List (Location × Param × Nat)) :
    scope.turnEntries (ps ++ qs) = scope.turnEntries ps ++ scope.turnEntries qs := List.flatMap_append

theorem follows_allEntries (path query header : List Param) :
    scope.Follows scope.depth (scope.allEntries path query header) (scope.turnErrands (inTurn path query header))
      (scope.turnEntries (inTurn path query header)) := by
  rw [inTurn, turnErrands_append, turnErrands_append, turnEntries_append, turnEntries_append,
    ← List.append_assoc (scope.turnEntries _)]
  exact (follows_entriesAll .path _).bind <| (follows_entriesAll .query _).bind <|
    (follows_entriesAll .header _).map _

theorem follows_schemasOf (ts : List TypeExpr) :
    scope.Follows scope.depth (scope.schemasOf ts) (ts.flatMap scope.typeErrands)
      (ts.filterMap scope.fragment) := by
  induction ts with
  | nil => exact .pure []
  | cons t ts ih =>
    rw [schemasOf, List.flatMap_cons, filterMap_cons_toList]
    exact (follows_build t).bind (ih.map _)

theorem follows_responses (results : List TypeExpr) :
    scope.Follows scope.depth (scope.responses results)
      ((Responses.concreteTypes results).flatMap scope.typeErrands) (scope.responsesOf results) :=
  (follows_schemasOf _).map _

/-- The content of a body is made before what follows it. -/
theorem follows_content {α : Type} {k : List (String × Value) → Build α} {es : List Errand} {a : α} (ps : List Param)
    (hk : scope.Follows scope.depth (k (Content.entries scope.types ps)) es a) :
    scope.Follows scope.depth
      (liftM (Content.content scope.types ps : Except Failure (List (String × Value))) >>= k)
      (scope.contentErrands ps ++ es) a := by
  unfold contentErrands Content.content
  cases ps.findSome? (Content.obstacle? scope.types) with
  | some kind => exact .lift_error _ es a
  | none => exact .lift_ok hk

/-- **Describing a route** runs through its errands and gives its operation, from every registry. -/
theorem follows_operation (route : Route) (tags : List String) :
    scope.Follows scope.depth (scope.operation route tags) (scope.routeErrands route)
      (scope.operationOf route tags) := by
  rw [routeErrands, List.append_assoc]
  exact (follows_convertBodies _).bind <| (follows_allEntries _ _ _).bind <|
    follows_content _ <| (follows_responses _).map _

end Scope

end RouteDoc
