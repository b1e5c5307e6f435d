import RouteDoc.Number.Code

/-!
# The order of sets

A set keeps its items in slots, and is walked slot by slot.  An item goes to the slot that its code names, or
when that one is taken to the next free one of a short run, or further on to a slot that all bits of the
code name in turn.  When three fifths of the slots are taken, four times as many slots are laid out as
there are items, and the items go over in the order of the walk.

* `Slots.insert` — stores an item that is not there yet;
* `Slots.walk` — the items in order.
-/

namespace RouteDoc

/-- Slots for items with their codes.  There are a power of two of slots, at least eight. -/
structure Slots (α : Type) where
  table : Array (Option (Code × α))
  used : Nat

namespace Slots

variable {α : Type}

/-- The least number of slots. -/
def leastSize : Nat := 8

/-- The slots after the first that are tried in a run. -/
def runLength : Nat := 9

/-- The least number of slots that exceeds a bound, found by doubling; the count bounds the doublings. -/
def sizeAbove (bound : Nat) : Nat → Nat → Nat
  | 0, size => size
  | count + 1, size => if size ≤ bound then sizeAbove bound count (2 * size) else size

/-- So many free slots. -/
def vacant (size : Nat) : Slots α := ⟨Array.replicate size none, 0⟩

/-- Free slots, more than a bound. -/
def vacantAbove (bound : Nat) : Slots α := vacant (sizeAbove bound bound leastSize)

/-- The first free slot of some that follow one another. -/
def freeAmong (s : Slots α) (first count : Nat) : Option Nat :=
  (List.range' first count).find? fun i => (s.table.getD i none).isNone

/-- The free slot for a code: a run is tried, and when it is full, the one after the next jump.  The count
bounds the jumps. -/
def freeSlot (s : Slots α) : Nat → Nat → Nat → Nat
  | 0, i, _ => i
  | count + 1, i, rest =>
    match s.freeAmong i (if i + runLength < s.table.size then runLength + 1 else 1) with
    | some slot => slot
    | none => freeSlot s count ((i * 5 + 1 + rest / 32) % s.table.size) (rest / 32)

/-- Puts an item into the free slot for its code. -/
def put (code : Code) (item : α) (s : Slots α) : Slots α :=
  let slot := s.freeSlot (s.table.size + 16) (code.toNat % s.table.size) code.toNat
  ⟨s.table.setIfInBounds slot (some (code, item)), s.used + 1⟩

/-- The items with their codes, slot by slot. -/
def entries (s : Slots α) : List (Code × α) := s.table.toList.filterMap id

/-- The items go over to more slots than a bound. -/
def moveAbove (bound : Nat) (s : Slots α) : Slots α :=
  s.entries.foldl (fun t (code, item) => t.put code item) (vacantAbove bound)

/-- Are so many items too many? -/
def isCrowded (s : Slots α) (count : Nat) : Bool := (s.table.size - 1) * 3 ≤ count * 5

/-- Stores an item that is not there yet. -/
def insert (code : Code) (item : α) (s : Slots α) : Slots α :=
  let s := s.put code item
  if s.isCrowded s.used then s.moveAbove (s.used * (if 50000 < s.used then 2 else 4)) else s

/-- The items in order. -/
def walk (s : Slots α) : List α := s.entries.map (·.2)

/-- The slots of items that are stored one after another. -/
def ofItems (items : List (Code × α)) : Slots α :=
  items.foldl (fun s (code, item) => s.insert code item) (vacant leastSize)

/-- The slots of items that are stored together, for which room is made first. -/
def ofBulk (items : List (Code × α)) : Slots α :=
  let s : Slots α := vacant leastSize
  let room := if s.isCrowded items.length then vacantAbove (items.length * 2) else s
  items.foldl (fun s (code, item) => s.insert code item) room

end Slots

/-- Items in the order of a set by their codes.  The order of items that have no codes is open: they keep
theirs. -/
def setOrder {α : Type} (code : α → Option Code) (items : List α) : List α :=
  match items.mapM fun a => (code a).map fun c => (c, a) with
  | some coded => (Slots.ofItems coded).walk
  | none => items

/-- Items in the order of a set that takes them over from a mapping. -/
def bulkOrder {α : Type} (code : α → Option Code) (items : List α) : List α :=
  match items.mapM fun a => (code a).map fun c => (c, a) with
  | some coded => (Slots.ofBulk coded).walk
  | none => items

end RouteDoc
