import RouteDoc.Merge

/-!
# Shared parts of documents

A document that was read from a text may hold one list, mapping or date in several places.  That it is one
is no part of its value, but shows when the document is written with names for shared parts.  A sharing
labels the places of a document; places with one label hold one part.

* `Sharing.overlay` — what is shared after an override has been merged: a part of the override is copied,
  so it is shared only within the copy, and a mapping that was merged is a new one;
* `Sharing.twins` — the other places of a part, which change with it.
-/

namespace RouteDoc

/-- A step from a part of a document to a part of it. -/
inductive Step where
  | key (k : Key)
  | item (index : Nat)
  deriving DecidableEq, Repr

/-- Steps that lead to the same part. -/
def Step.same : Step → Step → Bool
  | key a, key b => a.same b
  | item m, item n => m == n
  | _, _ => false

/-- The steps from a document to one of its parts. -/
abbrev Place := List Step

namespace Place

/-- The steps that remain from a place to one below it. -/
def below? : Place → Place → Option Place
  | [], place => some place
  | _ :: _, [] => none
  | a :: top, b :: place => if a.same b then below? top place else none

end Place

/-- A label: a number, and the place to which the part was copied with those around it. -/
structure Label where
  number : Nat
  copiedTo : Option Place
  deriving DecidableEq, Repr

/-- The labelled places of a document. -/
abbrev Sharing := List (Place × Label)

namespace Sharing

/-- The label of a place. -/
def label? (s : Sharing) (place : Place) : Option Label :=
  (s.find? fun (p, _) => place.below? p == some []).map (·.2)

/-- The labels except that of a place. -/
def without (place : Place) (s : Sharing) : Sharing := s.filter fun (p, _) => place.below? p != some []

/-- The labels except those at a place and below it. -/
def cut (place : Place) (s : Sharing) : Sharing := s.filter fun (p, _) => (place.below? p).isNone

/-- The labels of a copy of the part of another document. -/
def copied (place source : Place) (other : Sharing) : Sharing :=
  other.filterMap fun (p, l) => (source.below? p).map fun rest => (place ++ rest, ⟨l.number, some place⟩)

/-- The labels after the part at a place has been replaced by a copy. -/
def replace (place source : Place) (other own : Sharing) : Sharing :=
  own.cut place ++ other.copied place source

mutual

/-- The labels of a document after the entries of an override have been merged into the mapping at a
place. -/
def overlay (place source : Place) (other : Sharing) (base : Entries) (own : Sharing) : Entries → Sharing
  | [] => own
  | (k, v) :: rest =>
    let own := overlayValue (place ++ [.key k]) (source ++ [.key k]) other (base.get? k) own v
    overlay place source other (base.set k (Value.over (base.get? k) v)) own rest

/-- The labels after a value of an override has been laid over what was at a place. -/
def overlayValue (place source : Place) (other : Sharing) (existing : Option Value) (own : Sharing)
    (value : Value) : Sharing :=
  match value with
  | .map entries =>
    match existing with
    | some (.map base) => overlay place source other base (own.without place) entries
    | _ => replace place source other own
  | _ => replace place source other own

end

/-- The labels of a document after an override. -/
def merge (document override : Value) (own other : Sharing) : Sharing :=
  match document, override with
  | .map base, .map entries => overlay [] [] other base own entries
  | _, _ => own

/-- The place of the paths of a document. -/
def pathsPlace : Place := [.key (.str "paths")]

/-- The labels of a document after an override of one of its paths. -/
def mergeRoute (route : String) (document override : Value) (own other : Sharing) : Sharing :=
  let place : Place := pathsPlace ++ [.key (.str route)]
  match (document.get? "paths").bind fun paths => paths.get? route, override with
  | some (.map base), .map entries => overlay place [] other base (own.without place) entries
  | _, .map entries => overlay place [] other [] (own.cut place) entries
  | _, _ => own

/-- The other places of the part that stands at a place. -/
def twins (place : Place) (s : Sharing) : List Place :=
  match s.label? place with
  | some l => (s.filter fun (p, m) => m == l && place.below? p != some []).map (·.1)
  | none => []

/-- The labels when the part at a place stands at another one as well. -/
def repeated (source target : Place) (s : Sharing) : Sharing :=
  s.cut target ++ s.filterMap fun (p, l) => (source.below? p).map fun rest => (target ++ rest, l)

end Sharing

namespace Value

/-- The value with another part at a place; where nothing stands, nothing changes. -/
def put (part : Value) : Place → Value → Value
  | [], _ => part
  | .key k :: place, map entries =>
    match Entries.get? k entries with
    | some v => map (Entries.set k (put part place v) entries)
    | none => map entries
  | .item index :: place, list items => list (items.modify index (put part place))
  | _ :: _, v => v

end Value

end RouteDoc
