import RouteDoc.Number.Binary64
import RouteDoc.Calendar

/-!
# Values

What a document is made of: scalars, lists, sets and mappings whose entries keep their order of
insertion.  A mapping holds no two equal keys; keys are equal as numbers are, so `1`, `1.0` and `true`
are one key, and a text never equals a number.

* `Entries.get?`, `Entries.set` — look up a key; replace its value in place or append it;
* `Value.same` — equality of what stands in lists and mappings: numbers by value, mappings without regard to order,
  and one object is equal to itself;
* `Value.object` — the mapping with the given texts as keys.
-/

namespace RouteDoc

/-- A value without parts. -/
inductive Scalar where
  | null
  | bool (b : Bool)
  | int (i : Int)
  | float (x : Binary64)
  | str (s : String)
  | bytes (octets : List UInt8)
  | date (d : Date)
  | dateTime (t : DateTime)
  /-- A value of a type that no document can hold; the type's name is all that shows. -/
  | foreign (type : String)
  deriving DecidableEq, Repr, Inhabited

namespace Scalar

/-- The number of a scalar that counts as one: a truth value counts as `0` or `1`. -/
def integer? : Scalar → Option Int
  | bool b => some (if b then 1 else 0)
  | int i => some i
  | float x => x.toInt?
  | _ => none

/-- Equality by value.  Numbers are equal across their kinds, a NaN equals nothing, and date-times with
an offset are compared as points in time. -/
def same (s t : Scalar) : Bool :=
  match s.integer?, t.integer? with
  | some a, some b => a == b
  | none, none =>
    match s, t with
    | float x, float y => x.sameNumber y
    | dateTime x, dateTime y => x.same y
    | _, _ => s == t
  | _, _ => false

/-- Equality as keys: equality by value, except that the common NaN is one key. -/
def sameKey (s t : Scalar) : Bool := (s == .float (.nan true) && t == .float (.nan true)) || s.same t

/-- Equality as parts of values, which are equal as keys are, or one object.  Objects may be one only if they are
shared. -/
def samePart (shared : Bool) (s t : Scalar) : Bool := (shared && s == t) || s.sameKey t

/-- The name of the kind of a scalar. -/
def kind : Scalar → String
  | null => "NoneType"
  | bool _ => "bool"
  | int _ => "int"
  | float _ => "float"
  | str _ => "str"
  | bytes _ => "bytes"
  | date _ => "date"
  | dateTime _ => "datetime"
  | foreign type => type

end Scalar

/-- A key of a mapping: a scalar or a fixed sequence of keys. -/
inductive Key where
  | scalar (s : Scalar)
  | tuple (items : List Key)
  deriving Repr, Inhabited

namespace Key

mutual

/-- Keys are equal or not. -/
def decEq : (a b : Key) → Decidable (a = b)
  | scalar s, scalar t => decidable_of_iff (s = t) (by simp)
  | tuple xs, tuple ys =>
    match decEqAll xs ys with
    | isTrue h => isTrue (by rw [h])
    | isFalse h => isFalse (by simpa using h)
  | scalar _, tuple _ => isFalse (by simp)
  | tuple _, scalar _ => isFalse (by simp)

/-- Lists of keys are equal or not. -/
def decEqAll : (xs ys : List Key) → Decidable (xs = ys)
  | [], [] => isTrue rfl
  | [], _ :: _ => isFalse (by simp)
  | _ :: _, [] => isFalse (by simp)
  | x :: xs, y :: ys =>
    match decEq x y, decEqAll xs ys with
    | isTrue h, isTrue h' => isTrue (by rw [h, h'])
    | isFalse h, _ => isFalse (by simp [h])
    | _, isFalse h => isFalse (by simp [h])

end

instance : DecidableEq Key := decEq

/-- The key that is a text. -/
@[match_pattern] abbrev str (s : String) : Key := .scalar (.str s)

mutual

/-- Equality of keys by value. -/
def same : Key → Key → Bool
  | scalar s, scalar t => s.sameKey t
  | tuple a, tuple b => sameItems a b
  | _, _ => false

/-- Lists of keys that agree place by place. -/
def sameItems : List Key → List Key → Bool
  | [], [] => true
  | a :: as, b :: bs => same a b && sameItems as bs
  | _, _ => false

end

/-- The text of a key that is one. -/
def text? : Key → Option String
  | .str s => some s
  | _ => none

end Key

/-- A document or a part of one. -/
inductive Value where
  | scalar (s : Scalar)
  | list (items : List Value)
  | set (items : List Key)
  | map (entries : List (Key × Value))
  /-- The list or mapping that encloses this place, the given number of levels further up. -/
  | enclosing (levels : Nat)
  deriving Repr, Inhabited

/-- The entries of a mapping, in order of insertion. -/
abbrev Entries := List (Key × Value)

namespace Entries

/-- The value stored under a key. -/
def get? (key : Key) : Entries → Option Value
  | [] => none
  | (k, v) :: rest => if k.same key then some v else get? key rest

/-- Is there a value under the key? -/
def has (key : Key) (es : Entries) : Bool := (get? key es).isSome

/-- Stores a value: an equal key keeps its place and its spelling, a new key goes to the end. -/
def set (key : Key) (value : Value) : Entries → Entries
  | [] => [(key, value)]
  | (k, v) :: rest => if k.same key then (k, value) :: rest else (k, v) :: set key value rest

/-- The entries that result from storing pairs one after another. -/
def ofPairs (pairs : List (Key × Value)) : Entries :=
  pairs.foldl (fun es (k, v) => es.set k v) []

/-- The keys in order. -/
def keys (es : Entries) : List Key := es.map (·.1)

end Entries

namespace Value

/-- The absent value. -/
@[match_pattern] abbrev null : Value := .scalar .null

/-- A truth value. -/
@[match_pattern] abbrev bool (b : Bool) : Value := .scalar (.bool b)

/-- An integer. -/
@[match_pattern] abbrev int (i : Int) : Value := .scalar (.int i)

/-- A text. -/
@[match_pattern] abbrev str (s : String) : Value := .scalar (.str s)

/-- The mapping with the given texts as keys. -/
def object (members : List (String × Value)) : Value := .map (members.map fun (k, v) => (.str k, v))

/-- The entries of a mapping. -/
def entries? : Value → Option Entries
  | map es => some es
  | _ => none

/-- Is the value a mapping? -/
def isMap : Value → Bool
  | map _ => true
  | _ => false

/-- The value under a text key, of a mapping. -/
def get? (v : Value) (key : String) : Option Value := v.entries?.bind (Entries.get? (.str key))

/-- The name of the kind of a value. -/
def kind : Value → String
  | scalar s => s.kind
  | list _ => "list"
  | set _ => "set"
  | map _ => "dict"
  | enclosing _ => "list"

mutual

/-- Equality of what stands in lists and mappings: numbers by value, lists place by place, mappings without regard to
order.  A computed NaN equals itself alone, so it matters whether the parts of both values are shared. -/
def same (shared : Bool) : Value → Value → Bool
  | scalar s, scalar t => s.samePart shared t
  | list a, list b => sameItems shared a b
  | set a, set b => a.length == b.length && a.all fun x => b.any x.same
  | map a, map b => a.length == b.length && sameEntries shared a b
  | enclosing m, enclosing n => m == n
  | _, _ => false

/-- Lists that agree place by place. -/
def sameItems (shared : Bool) : List Value → List Value → Bool
  | [], [] => true
  | a :: as, b :: bs => same shared a b && sameItems shared as bs
  | _, _ => false

/-- Is every entry also an entry of the other mapping? -/
def sameEntries (shared : Bool) : List (Key × Value) → Entries → Bool
  | [], _ => true
  | (k, v) :: rest, es =>
    (match es.get? k with
      | some w => same shared v w
      | none => false) && sameEntries shared rest es

end

end Value

end RouteDoc
