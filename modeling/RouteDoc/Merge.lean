import RouteDoc.Failure
import RouteDoc.Value

/-!
# Merging documents

An override is laid over a document key by key: two mappings under one key are merged again, and any other
value of the override replaces what was there.  Keys of the document keep their places, new keys follow in
the order of the override.

* `Entries.merge` — one mapping laid over another;
* `Value.merge`, `Value.mergeInto`, `Value.mergeRoute` — the same for documents that may not be mappings.
-/

namespace RouteDoc

mutual

/-- The entries of an override laid over those of a document. -/
def Entries.merge (base : Entries) : Entries → Entries
  | [] => base
  | (k, v) :: rest => Entries.merge (base.set k (Value.over (base.get? k) v)) rest

/-- The value of an override laid over the one that was there. -/
def Value.over (existing : Option Value) (value : Value) : Value :=
  match value with
  | .map entries =>
    match existing with
    | some (.map base) => .map (Entries.merge base entries)
    | _ => .map entries
  | v => v

end

namespace Value

/-- The full name of the kind of a value, as it is given when an operation is missing. -/
def fullKind : Value → String
  | .scalar (.date _) => "datetime.date"
  | .scalar (.dateTime _) => "datetime.datetime"
  | v => v.kind

mutual

/-- The value that a key is. -/
def ofKey : Key → Value
  | .scalar s => .scalar s
  | .tuple items => .list (ofKeys items)

/-- The values that keys are. -/
def ofKeys : List Key → List Value
  | [] => []
  | k :: rest => ofKey k :: ofKeys rest

end

/-- The items that a value yields one by one: characters, items, keys or octets. -/
def items? : Value → Option (List Value)
  | .str s => some (s.toList.map fun c => .str (String.singleton c))
  | .list items => some items
  | .set items => some (items.map ofKey)
  | .map entries => some (entries.map fun (k, _) => ofKey k)
  | .scalar (.bytes octets) => some (octets.map fun b => .int b.toNat)
  | _ => none

/-- The items of a value. -/
def items (v : Value) : Except Failure (List Value) :=
  match v.items? with
  | some items => .ok items
  | none => .error (.notIterable v.fullKind)

/-- The key that a value is. -/
def toKey : Value → Except Failure Key
  | .scalar s => .ok (.scalar s)
  | v => .error (.notAKey v.kind)

/-- The pair that the item at an index is. -/
def toPair (index : Nat) (v : Value) : Except Failure (Key × Value) :=
  match v.items? with
  | none => .error (.pairNotSequence index)
  | some [k, w] => k.toKey.map fun k => (k, w)
  | some items => .error (.pairLength index items.length)

/-- The pairs that several items are, counted from an index on. -/
def toPairs (index : Nat) : List Value → Except Failure (List (Key × Value))
  | [] => .ok []
  | v :: rest => do
    let pair ← toPair index v
    .ok (pair :: (← toPairs (index + 1) rest))

/-- The entries of a mapping, or those that a sequence of pairs makes up. -/
def toEntries : Value → Except Failure Entries
  | .map entries => .ok entries
  | v => do .ok (Entries.ofPairs (← toPairs 0 (← v.items)))

/-- The entries of a mapping; other values lack the named operation. -/
def entriesFor (operation : String) : Value → Except Failure Entries
  | .map entries => .ok entries
  | v => .error (.lacks v.fullKind operation)

/-- An override laid over a document; the document may also be a sequence of pairs. -/
def merge (base override : Value) : Except Failure Value := do
  let entries ← base.toEntries
  .ok (.map (entries.merge (← override.entriesFor "items")))

/-- A document changed by an override. -/
def mergeInto (document override : Value) : Except Failure Value := do
  let entries ← document.entriesFor "update"
  .ok (.map (entries.merge (← override.entriesFor "items")))

/-- A document with a mapping for its paths, unless something is there already. -/
def openPaths (document : Value) : Except Failure Value := do
  let entries ← document.entriesFor "setdefault"
  .ok (.map (if entries.has (.str "paths") then entries else entries ++ [(.str "paths", .map [])]))

/-- A document changed by an override of one of its paths. -/
def mergePath (route : String) (document override : Value) : Except Failure Value := do
  let entries ← document.entriesFor "setdefault"
  let paths ← ((entries.get? (.str "paths")).getD .null).entriesFor "get"
  let item ← ((paths.get? (.str route)).getD (.map [])).merge override
  .ok (.map (entries.set (.str "paths") (.map (paths.set (.str route) item))))

/-- A document changed by an override of one of its paths, which is there afterwards. -/
def mergeRoute (route : String) (document override : Value) : Except Failure Value := do
  (← document.openPaths).mergePath route override

/-- What is left of a document when the override of a path fails: the mapping for paths stays. -/
def afterFailedRoute (document : Value) : Value :=
  match document.openPaths with
  | .ok opened => opened
  | .error _ => document

end Value

end RouteDoc
