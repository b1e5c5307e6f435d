import RouteDoc.Datum
import RouteDoc.Number.Real
import RouteDoc.Slots

/-!
# Equality of values

Values are equal by content.  Numbers are equal across their kinds when they are so exactly, and the members
of enumerations that are numbers or texts count as these; a NaN equals nothing.  Sets are equal without
regard to order and kind, and so are mappings without regard to order.

* `Datum.same` — equality of values;
* `Datum.isKey` — can a value be a key or an item of a set?
* `Datum.code?` — the code of a value, when that is settled by its content;
* `Datum.distinct`, `Datum.distinctEntries` — items and entries without repetitions;
* `Datum.setOf` — the set of items.
-/

namespace RouteDoc

namespace Datum

/-- The real part and the imaginary part of what counts as a number. -/
def number? : Datum → Option (RealNumber × Binary64)
  | bool b => some (.ratio (if b then 1 else 0) 1, .zero)
  | int i => some (.ratio i 1, .zero)
  | float x => some (.ofBinary x, .zero)
  | decimal d => some (.ofDecimal d, .zero)
  | complex z => some (.ofBinary z.re, z.im)
  | member _ _ _ base (int i) => if base.isNumeric then some (.ratio i 1, .zero) else none
  | _ => none

/-- The integer of what is one: an integer, a truth value or a member that is one. -/
def integer? : Datum → Option Int
  | bool b => some (if b then 1 else 0)
  | int i => some i
  | member _ _ _ base (int i) => if base.isNumeric then some i else none
  | _ => none

/-- The text of what is one: a text or a member that is one. -/
def text? : Datum → Option String
  | str s => some s
  | member _ _ _ base (str s) => if base.isTextual then some s else none
  | _ => none

/-- Equality of values without parts. -/
def sameAtom (a b : Datum) : Bool :=
  match a.number?, b.number?, a.text?, b.text? with
  | some (r, i), some (r', i'), _, _ => r.same r' && i.sameNumber i'
  | none, none, some s, some t => s == t
  | none, none, none, none =>
    match a, b with
    | null, null => true
    | bytes x, bytes y => x == y
    | date x, date y => x == y
    | dateTime x, dateTime y => x.same y
    | time x, time y => x.same y
    | duration x, duration y => x == y
    | uuid x, uuid y => x == y
    | path x, path y => x == y
    | address x, address y => x == y
    | range x y, range z w => (y ≤ x && w ≤ z) || (x == z && y == w)
    | member id _ name _ _, member id' _ name' _ _ => id == id' && name == name'
    | typeItself id _ _, typeItself id' _ _ => id == id'
    | _, _ => false
  | _, _, _, _ => false

/-- The kinds of gatherings that can be equal. -/
def sameKind (a b : Gathering) : Bool :=
  match a, b with
  | .set, .frozenset | .frozenset, .set => true
  | _, _ => a == b

/-- Do the items of a gathering of this kind have no order? -/
def isUnordered : Gathering → Bool
  | .set | .frozenset => true
  | _ => false

mutual

/-- Equality of values. -/
def same (a b : Datum) : Bool :=
  match a with
  | gathering k items =>
    match b with
    | gathering k' others =>
      sameKind k k' && items.length == others.length
        && if isUnordered k then allAmong items others else sameItems items others
    | record _ _ .places fields => k == .tuple && sameItems items (fields.map fun (_, _, d) => d)
    | _ => false
  | map entries =>
    match b with
    | map others => entries.length == others.length && entriesAmong entries others
    | _ => false
  | record _ _ .places fields =>
    match b with
    | gathering .tuple others => samePlaces fields others
    | record _ _ .places others => samePlaces fields (others.map fun (_, _, d) => d)
    | _ => false
  | record id _ _ fields =>
    match b with
    | record id' _ _ others => id == id' && samePlaces fields (others.map fun (_, _, d) => d)
    | _ => false
  | other => sameAtom other b

/-- Lists that agree place by place. -/
def sameItems (items others : List Datum) : Bool :=
  match items with
  | [] => others.isEmpty
  | d :: rest =>
    match others with
    | e :: others => same d e && sameItems rest others
    | [] => false

/-- Is every item among others? -/
def allAmong (items others : List Datum) : Bool :=
  match items with
  | [] => true
  | d :: rest => (others.any fun e => same d e) && allAmong rest others

/-- Is every entry among others? -/
def entriesAmong (entries others : List (Datum × Datum)) : Bool :=
  match entries with
  | [] => true
  | (k, d) :: rest => (others.any fun (k', e) => same k k' && same d e) && entriesAmong rest others

/-- Do the values of fields agree with values place by place? -/
def samePlaces (fields : List (String × String × Datum)) (others : List Datum) : Bool :=
  match fields with
  | [] => others.isEmpty
  | (_, _, d) :: rest =>
    match others with
    | e :: others => same d e && samePlaces rest others
    | [] => false

end

mutual

/-- The kind of the part for which a value can be no key, the first of them if there are several. -/
def obstacle? : Datum → Option String
  | gathering .tuple items => obstacleAmong? items
  | gathering .frozenset _ => none
  | gathering .list _ => some "list"
  | gathering .set _ => some "set"
  | gathering .deque _ => some "collections.deque"
  | map _ => some "dict"
  | record _ _ .places fields => obstacleOfFields? fields
  | record _ type _ _ => some type
  | cycle => some "list"
  | _ => none

/-- The kind of the first item that can be no key. -/
def obstacleAmong? : List Datum → Option String
  | [] => none
  | d :: rest => (obstacle? d).or (obstacleAmong? rest)

/-- The kind of the first value of a field that can be no key. -/
def obstacleOfFields? : List (String × String × Datum) → Option String
  | [] => none
  | (_, _, d) :: rest => (obstacle? d).or (obstacleOfFields? rest)

end

/-- Can the value be a key or an item of a set? -/
def isKey (d : Datum) : Bool := d.obstacle?.isNone

/-- The code of a length of time: that of its days, seconds and microseconds. -/
def durationCode (d : Duration) : Code :=
  let within := d.micros % 86400000000
  Code.ofItems <| [d.micros / 86400000000, within / 1000000, within % 1000000].map Code.ofInteger

/-- The code of a range of at least two numbers: that of its length, its start and its step. -/
def rangeCode? (first last : Int) : Option Code :=
  if last - first < 2 then none
  else some (Code.ofItems ([last - first, first, 1].map Code.ofInteger))

mutual

/-- The code of a value.  Numbers, sequences of them and a few others have one. -/
def code? : Datum → Option Code
  | gathering .tuple items => (codes? items).map Code.ofItems
  | record _ _ .places fields => (fieldCodes? fields).map Code.ofItems
  | uuid u => some (Code.ofInteger u.bits)
  | duration d => some (durationCode d)
  | range first last => rangeCode? first last
  | other => other.number?.bind fun (re, im) => Code.ofComplex re im

/-- The codes of several values. -/
def codes? : List Datum → Option (List Code)
  | [] => some []
  | d :: rest => do return (← code? d) :: (← codes? rest)

/-- The codes of the values of fields. -/
def fieldCodes? : List (String × String × Datum) → Option (List Code)
  | [] => some []
  | (_, _, d) :: rest => do return (← code? d) :: (← fieldCodes? rest)

end

/-- Items without repetitions, each at its first place. -/
def distinct (items : List Datum) : List Datum :=
  items.foldl (fun out d => if out.any d.same then out else out ++ [d]) []

/-- The set of items, in the order in which it is walked. -/
def setOf (kind : Gathering) (items : List Datum) : Datum :=
  gathering kind (setOrder code? (distinct items))

/-- Stores a value: an equal key keeps its place and its spelling. -/
def putEntry (key value : Datum) : List (Datum × Datum) → List (Datum × Datum)
  | [] => [(key, value)]
  | (k, v) :: rest => if key.same k then (k, value) :: rest else (k, v) :: putEntry key value rest

/-- Entries that are stored one after another. -/
def distinctEntries (entries : List (Datum × Datum)) : List (Datum × Datum) :=
  entries.foldl (fun out (k, v) => putEntry k v out) []

end Datum

end RouteDoc
