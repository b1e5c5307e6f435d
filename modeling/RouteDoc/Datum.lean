import RouteDoc.Address
import RouteDoc.Calendar
import RouteDoc.FileName
import RouteDoc.Number.Complex
import RouteDoc.Number.Decimal
import RouteDoc.Uuid

/-!
# Default values

A `Datum` is a value that a field or a parameter has by default, or that a member of an enumeration
stands for: what a program holds, before it is brought into the shape of a document.
-/

namespace RouteDoc

/-- The kinds of sequences and sets. -/
inductive Gathering where
  | list
  | tuple
  | set
  | frozenset
  | deque
  deriving DecidableEq, Repr

/-- How the instances of a structured type are shown. -/
inductive RecordShape where
  /-- Fields by name. -/
  | fields
  /-- Fields by their public names. -/
  | aliased
  /-- A fixed sequence with named places. -/
  | places
  deriving DecidableEq, Repr

/-- The kinds of enumerations, by what their members also are.  Members of the mixed kinds are texts or
numbers too, but are shown as members. -/
inductive EnumBase where
  | plain | integer | text | flag | integerFlag | mixedText | mixedInteger
  deriving DecidableEq, Repr, Inhabited

namespace EnumBase

/-- Are the members integers? -/
def isNumeric : EnumBase → Bool
  | integer | integerFlag | mixedInteger => true
  | _ => false

/-- Are the members texts? -/
def isTextual : EnumBase → Bool
  | text | mixedText => true
  | _ => false

/-- Do the members combine as bits? -/
def isFlag : EnumBase → Bool
  | flag | integerFlag => true
  | _ => false

/-- Are the members shown by the values they stand for? -/
def isShownByValue : EnumBase → Bool
  | integer | integerFlag | text => true
  | _ => false

end EnumBase

/-- A value that a program holds. -/
inductive Datum where
  | null
  | bool (b : Bool)
  | int (i : Int)
  | float (x : Binary64)
  | str (s : String)
  | decimal (d : Decimal)
  | bytes (octets : List UInt8)
  | date (d : Date)
  | dateTime (t : DateTime)
  | time (t : Time)
  | duration (d : Duration)
  | uuid (u : Uuid)
  | path (n : FileName)
  | address (a : Address)
  | complex (z : Complex)
  | gathering (kind : Gathering) (items : List Datum)
  | range (first last : Int)
  | map (entries : List (Datum × Datum))
  /-- A member of an enumeration, by its identifier and its name, with the value it stands for. -/
  | member (id type name : String) (base : EnumBase) (value : Datum)
  /-- An instance of a structured type: each field with its name, its public name and its value. -/
  | record (id type : String) (shape : RecordShape) (fields : List (String × String × Datum))
  /-- The place of a field that an instance lacks. -/
  | absent (type field : String)
  /-- A type itself, by the way it is shown and the name of the type of types that it is of. -/
  | typeItself (id shown kind : String)
  /-- An object of an unknown type, by the way it is shown. -/
  | foreign (shown : String)
  /-- A list whose only item is itself. -/
  | cycle
  deriving Repr, Inhabited

end RouteDoc
