import RouteDoc.Datum.Display
import RouteDoc.Failure
import RouteDoc.Value

/-!
# Values in the shape of a document

Default values and enumeration members are brought into lists, mappings with text keys, numbers, truth
values, texts and null.  A value that holds a part of an unknown type becomes, as a whole, the text
that it is shown as; octets that are no text, values that are nested too deeply, instances that lack a field
and lists that contain themselves are failures.

* `Datum.keyText` — the text of a key;
* `Datum.toValue` — the document value, or that text.
-/

namespace RouteDoc.Datum

/-- Why a value has no document shape of its own. -/
inductive Obstacle where
  /-- A part is of an unknown type. -/
  | unknown
  /-- Nothing stands for the value. -/
  | failure (f : Failure)
  deriving DecidableEq, Repr

/-- The text of octets. -/
def octetsText (octets : List UInt8) : Except Obstacle String :=
  match Utf8.decode octets with
  | .ok cs => .ok (String.ofList cs)
  | .error fault => .error (.failure (.undecodableDefault fault))

/-- The text of an integer as a key. -/
def integerKeyText (i : Int) : Except Obstacle String :=
  match Numeral.integerText i with
  | .ok cs => .ok (String.ofList cs)
  | .error f => .error (.failure f)

mutual

/-- The text of a key of a mapping. -/
def keyText : Datum → Except Obstacle String
  | null => .ok "None"
  | bool b => .ok (if b then "true" else "false")
  | int i => integerKeyText i
  | float x => .ok x.text
  | str s => .ok s
  | decimal d => .ok d.text
  | bytes octets => octetsText octets
  | date d => .ok d.text
  | dateTime t => .ok t.zuluText
  | time t => .ok t.zuluText
  | duration d => .ok d.text
  | uuid u => .ok u.text
  | path _ => .error .unknown
  | address a => .ok a.text
  | complex z => .ok z.text
  | gathering .tuple items => do .ok (",".intercalate (← keyTexts items))
  | gathering .list _ => .error (.failure (.badDefaultKey "list"))
  | gathering .set _ => .error (.failure (.badDefaultKey "set"))
  | gathering .frozenset _ => .error (.failure (.badDefaultKey "frozenset"))
  | gathering .deque _ => .error .unknown
  | range _ _ => .error .unknown
  | map _ => .error (.failure (.badDefaultKey "dict"))
  | member _ _ _ _ value => keyText value
  | record _ _ .places fields => do .ok (",".intercalate (← keyFieldTexts fields))
  | record id type _ fields => .ok (plainText (record id type .fields fields))
  | absent type field => .error (.failure (.missingField type field))
  | typeItself _ _ _ => .error .unknown
  | foreign _ => .error .unknown
  | cycle => .error (.failure (.badDefaultKey "list"))

/-- The texts of the items of a key. -/
def keyTexts : List Datum → Except Obstacle (List String)
  | [] => .ok []
  | d :: rest => do
    let text ← keyText d
    .ok (text :: (← keyTexts rest))

/-- The texts of the places of a key. -/
def keyFieldTexts : List (String × String × Datum) → Except Obstacle (List String)
  | [] => .ok []
  | (_, _, d) :: rest => do
    let text ← keyText d
    .ok (text :: (← keyFieldTexts rest))

end

/-- The most levels of a value that is brought into the shape of a document. -/
def depthLimit : Nat := 255

mutual

/-- The document value of a value all of whose parts have one, within a number of levels. -/
def plain (levels : Nat) (d : Datum) : Except Obstacle Value :=
  if levels = 0 then .error (.failure .deepDefault)
  else match d with
    | null => .ok .null
    | bool b => .ok (.bool b)
    | int i => .ok (.int i)
    | float x => .ok (.scalar (.float x))
    | str s => .ok (.str s)
    | decimal d => .ok (.str d.text)
    | bytes octets => do .ok (.str (← octetsText octets))
    | date d => .ok (.str d.text)
    | dateTime t => .ok (.str t.zuluText)
    | time t => .ok (.str t.zuluText)
    | duration d => .ok (.str d.text)
    | uuid u => .ok (.str u.text)
    | path _ => .error .unknown
    | address a => .ok (.str a.text)
    | complex z => .ok (.str z.text)
    | gathering _ items => do .ok (.list (← plainAll (levels - 1) items))
    | range _ _ => .error .unknown
    | map entries => do .ok (.map (Entries.ofPairs (← plainEntries (levels - 1) entries)))
    | member _ _ _ _ value => plain (levels - 1) value
    | record _ _ .fields fields => do
      .ok (.map (Entries.ofPairs (← plainFields (levels - 1) false fields)))
    | record _ _ .aliased fields => do
      .ok (.map (Entries.ofPairs (← plainFields (levels - 1) true fields)))
    | record _ _ .places fields => do .ok (.list ((← plainFields (levels - 1) false fields).map (·.2)))
    | absent type field => .error (.failure (.missingField type field))
    | typeItself _ _ _ => .error .unknown
    | foreign _ => .error .unknown
    | cycle => .error (.failure (if levels = 1 then .deepDefault else .circularDefault))

/-- The document values of several values. -/
def plainAll (levels : Nat) : List Datum → Except Obstacle (List Value)
  | [] => .ok []
  | d :: rest => do
    let v ← plain levels d
    .ok (v :: (← plainAll levels rest))

/-- The members of a mapping. -/
def plainEntries (levels : Nat) : List (Datum × Datum) → Except Obstacle (List (Key × Value))
  | [] => .ok []
  | (k, d) :: rest => do
    let key ← keyText k
    let v ← plain levels d
    .ok ((.str key, v) :: (← plainEntries levels rest))

/-- The members of a record, by public name or by name. -/
def plainFields (levels : Nat) (publicly : Bool) :
    List (String × String × Datum) → Except Obstacle (List (Key × Value))
  | [] => .ok []
  | (name, publicName, d) :: rest => do
    let v ← plain levels d
    .ok ((.str (if publicly then publicName else name), v) :: (← plainFields levels publicly rest))

end

mutual

/-- The failure of showing a value: the first field that an instance in it lacks. -/
def showFailure? : Datum → Option Failure
  | gathering _ items => showFailureOf? items
  | map entries => showFailureOfEntries? entries
  | member _ _ _ _ value => showFailure? value
  | record _ _ _ fields => showFailureOfFields? fields
  | absent type field => some (.missingField type field)
  | _ => none

/-- The failure of showing several values. -/
def showFailureOf? : List Datum → Option Failure
  | [] => none
  | d :: rest => (showFailure? d).or (showFailureOf? rest)

/-- The failure of showing entries. -/
def showFailureOfEntries? : List (Datum × Datum) → Option Failure
  | [] => none
  | (k, d) :: rest => ((showFailure? k).or (showFailure? d)).or (showFailureOfEntries? rest)

/-- The failure of showing fields. -/
def showFailureOfFields? : List (String × String × Datum) → Option Failure
  | [] => none
  | (_, _, d) :: rest => (showFailure? d).or (showFailureOfFields? rest)

end

/-- The document value of a value, or its plain text when a part of it is of an unknown type. -/
def toValue (d : Datum) : Except Failure Value :=
  match plain depthLimit d with
  | .ok v => .ok v
  | .error .unknown =>
    match d.showFailure? with
    | some f => .error f
    | none => .ok (.str d.plainText)
  | .error (.failure f) => .error f

end RouteDoc.Datum
