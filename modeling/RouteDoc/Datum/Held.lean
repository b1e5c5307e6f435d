import RouteDoc.Datum.Same
import RouteDoc.Value

/-!
# Values as a document holds them

A value that is put into a document as it stands, without being brought into the document's shape.  What
no document can hold keeps the name of its type, by which the refusal to write it is worded.  Members of
enumerations that are numbers or texts, and sequences with named places, count as such only in a document
that is not strict about types.

* `Datum.held` — the value in a document.
-/

namespace RouteDoc.Datum

/-- The name of the type of a value that no document can hold; the name of unknown types is given. -/
def foreignType (unknown : String) : Datum → String
  | decimal _ => "Decimal"
  | time _ => "time"
  | duration _ => "timedelta"
  | uuid _ => "UUID"
  | path _ => "PurePosixPath"
  | address a => a.className
  | complex _ => "complex"
  | gathering .list _ => "list"
  | gathering .tuple _ => "tuple"
  | gathering .set _ => "set"
  | gathering .frozenset _ => "frozenset"
  | gathering .deque _ => "deque"
  | map _ => "dict"
  | range _ _ => "range"
  | member _ type _ _ _ => type
  | record _ type _ _ => type
  | typeItself _ _ kind => kind
  | _ => unknown

/-- A value as a scalar. -/
def heldScalar (strict : Bool) (unknown : String) : Datum → Scalar
  | null => .null
  | bool b => .bool b
  | int i => .int i
  | float x => .float x
  | str s => .str s
  | bytes octets => .bytes octets
  | date d => .date d
  | dateTime t => .dateTime t
  | other =>
    match strict, other.integer?, other.text? with
    | false, some i, _ => .int i
    | false, none, some s => .str s
    | _, _, _ => .foreign (other.foreignType unknown)

mutual

/-- A value as a key. -/
def heldKey (strict : Bool) (unknown : String) : Datum → Key
  | gathering .tuple items => .tuple (heldKeys strict unknown items)
  | other => .scalar (other.heldScalar strict unknown)

/-- Several values as keys. -/
def heldKeys (strict : Bool) (unknown : String) : List Datum → List Key
  | [] => []
  | d :: rest => heldKey strict unknown d :: heldKeys strict unknown rest

end

mutual

/-- A value in a document. -/
def held (strict : Bool) (unknown : String) : Datum → Value
  | gathering .list items => .list (heldAll strict unknown items)
  | gathering .tuple items => .list (heldAll strict unknown items)
  | gathering .set items => .set (heldKeys strict unknown items)
  | map entries => .map (heldEntries strict unknown entries)
  | record id type .places fields =>
    if strict then .scalar (.foreign ((record id type .places fields).foreignType unknown))
    else .list (heldFields strict unknown fields)
  | cycle => .list [.enclosing 0]
  | other => .scalar (other.heldScalar strict unknown)

/-- Several values in a document. -/
def heldAll (strict : Bool) (unknown : String) : List Datum → List Value
  | [] => []
  | d :: rest => held strict unknown d :: heldAll strict unknown rest

/-- Entries in a document. -/
def heldEntries (strict : Bool) (unknown : String) : List (Datum × Datum) → List (Key × Value)
  | [] => []
  | (k, d) :: rest => (k.heldKey strict unknown, held strict unknown d) :: heldEntries strict unknown rest

/-- The values of fields in a document. -/
def heldFields (strict : Bool) (unknown : String) : List (String × String × Datum) → List Value
  | [] => []
  | (_, _, d) :: rest => held strict unknown d :: heldFields strict unknown rest

end

end RouteDoc.Datum
