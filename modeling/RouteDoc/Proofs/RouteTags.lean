import RouteDoc.Proofs.Publication
import RouteDoc.Proofs.TagLog

/-!
# The tags of operations

Three sources can say what the tags of an operation are: the last call to tag about the method of its route, the
last one about the method that the route is documented under, and the route itself.  The first source that says
something should decide.  What decides is the first source that gives some tag, so a call that gives none is passed
over: tags that were taken away come back from the next source.

* `Assignment.last?` — the tags that the last assignment about a method of a path gives, if there is one;
* `Documentation.decidedTags` — the tags by the first source that says something;
* `Documentation.firstGiven_eq_iff` — when that is the first source that gives some tag;
* `Documentation.operation_tags_decided` — the tags of an operation after any calls;
* `Documentation.withdrawn_tags_return` — tags that were taken away.
-/

namespace RouteDoc

/-- The tags of the last assignment about a method of a path, when there is one. -/
def Assignment.last? (given : List Assignment) (path method : String) : Option (List String) :=
  (given.filter (concerns path method)).getLast?.map (·.tags)

namespace Documentation

open Value (at?_append at?_over_of_at? over_of_not_isMap)

variable {d : Documentation} {scope : Scope} {route : Route} {o : Operation}

/-- The tags of a route by the first source that says something, be it that there are none: the last call about its
method, the last call about the method that it is documented under, and the route itself. -/
def decidedTags (given : List Assignment) (route : Route) : List String :=
  ((Assignment.last? given route.path route.method).or
    (Assignment.last? given route.path (Method.normalize route.method))).getD route.tags

/-- After a run of calls, the tags of a method of a path are those of the last assignment about it, and none when
there is no such assignment. -/
theorem tagsFor_eq_last? (s : Settings) (calls : List Call) (path method : String) :
    ((new s).afterCalls calls).tagsFor path method =
      (Assignment.last? ((new s).assignments calls) path method).getD [] := by
  rw [tagsFor_afterCalls, Assignment.foldl_putOn, Assignment.last?]
  rfl

/-! ### The first source that gives a tag -/

theorem firstGiven_cons_cons (tags next : List String) (rest : List (List String)) :
    firstGiven (tags :: next :: rest) = if tags = [] then firstGiven (next :: rest) else tags := by
  cases tags <;> rfl

/-- **The first source that gives a tag is the first that says something**, unless what that one says is that there
are none and a later one gives some. -/
theorem firstGiven_eq_iff (exact aliased : Option (List String)) (own : List String) :
    firstGiven [exact.getD [], aliased.getD [], own] = (exact.or aliased).getD own ↔
      (exact = some [] → aliased.getD [] = [] ∧ own = []) ∧ (exact = none → aliased = some [] → own = []) := by
  have hlater : firstGiven [aliased.getD [], own] = if aliased.getD [] = [] then own else aliased.getD [] :=
    firstGiven_cons_cons _ own []
  rw [firstGiven_cons_cons, hlater]
  cases exact with
  | none => cases aliased <;> grind
  | some tags => grind

/-! ### Tags of operations -/

theorem tags_of_register_ok (hok : (run (register scope route) d).1 = .ok o) : o.tags = d.routeTags route := by
  rw [eq_operationOf_of_register_ok hok]
  rfl

/-- What an operation says apart from its mappings stands in the document right after the operation was put there. -/
theorem at?_below_place_after_register (h : d.document.HasPaths) (hmaps : d.document.MapsAbove IsPlace)
    (hok : (run (register scope route) d).1 = .ok o) {p : KeyPath} {w : Value} (hw : o.toValue.at? p = some w)
    (hleaf : w.isMap = false) : (run (register scope route) d).2.document.at? (route.place ++ p) = some w := by
  have hproper : o.toValue.Proper := by
    rw [eq_operationOf_of_register_ok hok]
    exact scope.operationOf_proper route (d.routeTags route)
  have hbelow := at?_over_of_at? (hproper.unrepeated.unrepeatedAbove p) hw (d.document.at? route.place)
  rw [at?_append, at?_place_after_register h hmaps hok, Option.bind_some, hbelow, over_of_not_isMap hleaf]

/-- **The tags of an operation.**  Let any calls be made, and then a route be documented.  Its operation has the tags
of the first of three sources that gives some: the last call to tag that returned, had the path of the route and had
its method up to case; the last such call about the method that the route is documented under; the route itself.  So a
call about the method of the route decides when it gives a tag, and when there is none the other two sources do.  A
call that gives no tags decides only where no source after it gives any: that is exactly when the operation has the
tags of the first source that says something.  The tags stand in the operation, and when nothing was merged by hand
also in the document. -/
theorem operation_tags_decided (s : Settings) (calls : List Call)
    (hok : (run (register scope route) ((new s).afterCalls calls)).1 = .ok o) :
    let given := (new s).assignments calls
    let exact := Assignment.last? given route.path route.method
    let aliased := Assignment.last? given route.path (Method.normalize route.method)
    o.tags = firstGiven [exact.getD [], aliased.getD [], route.tags] ∧
    (∀ tags, exact = some tags → tags ≠ [] → o.tags = tags) ∧
    (exact = none → ∀ tags, aliased = some tags → tags ≠ [] → o.tags = tags) ∧
    (exact = none → aliased = none → o.tags = route.tags) ∧
    (o.tags = decidedTags given route ↔
      (exact = some [] → aliased.getD [] = [] ∧ route.tags = []) ∧
        (exact = none → aliased = some [] → route.tags = [])) ∧
    o.toValue.at? [.str "tags"] = some (.list (o.tags.map .str)) ∧
    ((∀ c ∈ calls, c.isOverride = false) →
      (run (register scope route) ((new s).afterCalls calls)).2.document.at? (route.place ++ [.str "tags"]) =
        some (.list (o.tags.map .str))) := by
  intro given exact aliased
  have htags : o.tags = firstGiven [exact.getD [], aliased.getD [], route.tags] := by
    rw [tags_of_register_ok hok, routeTags, tagsFor_eq_last?, tagsFor_eq_last?]
  have hwritten : o.toValue.at? [.str "tags"] = some (.list (o.tags.map .str)) := by
    simp [Operation.toValue, Value.object, Entries.get?]
  refine ⟨htags, fun tags h hne => ?_, fun hnone tags h hne => ?_, fun hnone hnone' => ?_, ?_, hwritten, fun hcalls => ?_⟩
  · rw [htags, h, firstGiven_cons_cons, Option.getD_some, if_neg hne]
  · rw [htags, hnone, h, firstGiven_cons_cons, firstGiven_cons_cons, Option.getD_some, if_neg hne]
    rfl
  · rw [htags, hnone, hnone']
    rfl
  · rw [htags]
    exact firstGiven_eq_iff exact aliased route.tags
  · have hpaths := hasPaths_afterCalls (hasPaths_new s) calls
    exact at?_below_place_after_register hpaths (mapsAbove_afterCalls s hcalls) hok hwritten rfl

/-- A route for pets, with a tag of its own. -/
def animalsRoute : Route := ⟨"/pets", "GET", [], [], [], [], [], ["animals"]⟩

/-- Reading pets is tagged, and then tagged once more. -/
def retaggedPets (tags : List Value) : List Call :=
  [.tag "/pets" (.list [.str "GET", .str "POST"]) (.list [.str "pets"]),
    .tag "/pets" (.list [.str "get"]) (.list tags)]

/-- The second call decides. -/
theorem operation_tags_decided_pets :
    ∃ o, (run (register ⟨[], 2024, 0⟩ animalsRoute) ((new default).afterCalls (retaggedPets [.str "reading"]))).1 = .ok o ∧
      Assignment.last? ((new default).assignments (retaggedPets [.str "reading"])) "/pets" "GET" = some ["reading"] ∧
      o.tags = ["reading"] := by
  have hok : (run (register ⟨[], 2024, 0⟩ animalsRoute)
      ((new default).afterCalls (retaggedPets [.str "reading"]))).1.toBool = true := by decide +kernel
  have hlast : Assignment.last? ((new default).assignments (retaggedPets [.str "reading"])) "/pets" "GET" =
      some ["reading"] := by decide +kernel
  obtain ⟨o, e, hrun⟩ := exists_run_eq_ok hok
  have hfirst : (run (register ⟨[], 2024, 0⟩ animalsRoute)
      ((new default).afterCalls (retaggedPets [.str "reading"]))).1 = .ok o := by rw [hrun]
  obtain ⟨-, hgiven, -⟩ := operation_tags_decided default (retaggedPets [.str "reading"]) hfirst
  exact ⟨o, hfirst, hlast, hgiven ["reading"] hlast (by simp)⟩

/-- **Tags that were taken away come back.**  The last call about reading pets gives no tags, and the documentation
tells none; the operation has the tags of its route. -/
theorem withdrawn_tags_return :
    ∃ o, (run (register ⟨[], 2024, 0⟩ animalsRoute) ((new default).afterCalls (retaggedPets []))).1 = .ok o ∧
      Assignment.last? ((new default).assignments (retaggedPets [])) "/pets" "GET" = some [] ∧
      ((new default).afterCalls (retaggedPets [])).tagsFor "/pets" "GET" = [] ∧
      o.tags = ["animals"] := by
  have hok : (run (register ⟨[], 2024, 0⟩ animalsRoute)
      ((new default).afterCalls (retaggedPets []))).1.toBool = true := by decide +kernel
  have hlast : Assignment.last? ((new default).assignments (retaggedPets [])) "/pets" "GET" = some [] := by
    decide +kernel
  have htold : ((new default).afterCalls (retaggedPets [])).routeTags animalsRoute = ["animals"] := by decide +kernel
  obtain ⟨o, e, hrun⟩ := exists_run_eq_ok hok
  have hfirst : (run (register ⟨[], 2024, 0⟩ animalsRoute) ((new default).afterCalls (retaggedPets []))).1 = .ok o := by
    rw [hrun]
  refine ⟨o, hfirst, hlast, ?_, ?_⟩
  · rw [tagsFor_eq_last?, hlast]
    rfl
  · rw [tags_of_register_ok hfirst, htold]

end Documentation

end RouteDoc
