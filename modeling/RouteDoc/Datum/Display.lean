import RouteDoc.Datum
import RouteDoc.Text.Quoted

/-!
# Displays of values

The text that stands for a value as a whole.  `Datum.display` is the unambiguous display, in which
texts are quoted and every value names its type; `Datum.plainText` is the plain one.
-/

namespace RouteDoc

/-- Octets in quotes, marked as such. -/
def displayOctets (octets : List UInt8) : String :=
  let cs := octets.map fun b => Char.ofNat b.toNat
  let quote := displayQuote cs
  let show' (c : Char) : List Char :=
    if c.toNat < 128 then displayChar quote c else '\\' :: 'x' :: hexPadded 2 c.toNat
  String.ofList ('b' :: quote :: cs.flatMap show' ++ [quote])

/-- The arguments of a call, the zeros at the end left out beyond a least number. -/
def displayArguments (args : List String) : String := ", ".intercalate args

/-- The display of a date. -/
def Date.display (d : Date) : String :=
  "datetime.date(" ++ displayArguments [toString d.year, toString d.month, toString d.day] ++ ")"

/-- The fields of a time of day that are shown: hour and minute always, the rest when not zero. -/
def Clock.displayFields (c : Clock) : List String :=
  [toString c.hour, toString c.minute]
    ++ (if c.second = 0 ∧ c.micro = 0 then [] else [toString c.second])
    ++ (if c.micro = 0 then [] else [toString c.micro])

/-- The display of a length of time by days, seconds and microseconds. -/
def Duration.display (d : Duration) : String :=
  let days := d.micros.fdiv 86400000000
  let within := d.micros - days * 86400000000
  let seconds := within / 1000000
  let micro := within % 1000000
  let part (name : String) (n : Int) : List String := if n = 0 then [] else [name ++ "=" ++ toString n]
  let parts := part "days" days ++ part "seconds" seconds ++ part "microseconds" micro
  "datetime.timedelta(" ++ (if parts.isEmpty then "0" else displayArguments parts) ++ ")"

/-- The zone of an offset, as the last argument of a display. -/
def displayZone : Option Int → List String
  | none => []
  | some 0 => ["tzinfo=datetime.timezone.utc"]
  | some o => ["tzinfo=datetime.timezone(" ++ (Duration.mk o).display ++ ")"]

/-- The display of a date-time. -/
def DateTime.display (t : DateTime) : String :=
  "datetime.datetime("
    ++ displayArguments
      ([toString t.date.year, toString t.date.month, toString t.date.day] ++ t.clock.displayFields
        ++ displayZone t.offset)
    ++ ")"

/-- The display of a time of day. -/
def Time.display (t : Time) : String :=
  "datetime.time(" ++ displayArguments (t.clock.displayFields ++ displayZone t.offset) ++ ")"

/-- A length of time in words: days when there are any, then hours, minutes and seconds. -/
def Duration.plainText (d : Duration) : String :=
  let days := d.micros.fdiv 86400000000
  let within := (d.micros - days * 86400000000).toNat
  let seconds := within / 1000000
  let micro := within % 1000000
  let front :=
    if days = 0 then "" else toString days ++ (if days.natAbs = 1 then " day, " else " days, ")
  front ++ toString (seconds / 3600) ++ ":" ++ padded 2 (seconds / 60 % 60) ++ ":" ++ padded 2 (seconds % 60)
    ++ (if micro = 0 then "" else "." ++ padded 6 micro)

namespace Datum

mutual

/-- The unambiguous display of a value. -/
def display : Datum → String
  | null => "None"
  | bool b => if b then "True" else "False"
  | int i => toString i
  | float x => x.text
  | str s => displayText s
  | decimal d => "Decimal('" ++ d.text ++ "')"
  | bytes octets => displayOctets octets
  | date d => d.display
  | dateTime t => t.display
  | time t => t.display
  | duration d => d.display
  | uuid u => "UUID('" ++ u.text ++ "')"
  | path n => "PurePosixPath(" ++ displayText n.text ++ ")"
  | address a => a.className ++ "('" ++ a.text ++ "')"
  | complex z => z.display
  | gathering .list items => "[" ++ ", ".intercalate (displayAll items) ++ "]"
  | gathering .tuple [item] => "(" ++ display item ++ ",)"
  | gathering .tuple items => "(" ++ ", ".intercalate (displayAll items) ++ ")"
  | gathering .set [] => "set()"
  | gathering .set items => "\x7b" ++ ", ".intercalate (displayAll items) ++ "\x7d"
  | gathering .frozenset [] => "frozenset()"
  | gathering .frozenset items => "frozenset(\x7b" ++ ", ".intercalate (displayAll items) ++ "\x7d)"
  | gathering .deque items => "deque([" ++ ", ".intercalate (displayAll items) ++ "])"
  | range first last => "range(" ++ toString first ++ ", " ++ toString last ++ ")"
  | map entries => "\x7b" ++ ", ".intercalate (displayEntries entries) ++ "\x7d"
  | member _ type name _ value => "<" ++ type ++ "." ++ name ++ ": " ++ display value ++ ">"
  | record _ type _ fields => type ++ "(" ++ ", ".intercalate (displayFields fields) ++ ")"
  | absent _ _ => ""
  | typeItself _ shown _ => shown
  | foreign shown => shown
  | cycle => "[[...]]"

/-- The displays of several values. -/
def displayAll : List Datum → List String
  | [] => []
  | d :: rest => display d :: displayAll rest

/-- The displays of the entries of a mapping. -/
def displayEntries : List (Datum × Datum) → List String
  | [] => []
  | (k, v) :: rest => (display k ++ ": " ++ display v) :: displayEntries rest

/-- The displays of the fields of a record. -/
def displayFields : List (String × String × Datum) → List String
  | [] => []
  | (name, _, v) :: rest => (name ++ "=" ++ display v) :: displayFields rest

end

/-- The plain text of a value. -/
def plainText : Datum → String
  | str s => s
  | decimal d => d.text
  | date d => d.text
  | dateTime t => t.text " "
  | time t => t.text
  | duration d => d.plainText
  | uuid u => u.text
  | path n => n.text
  | address a => a.text
  | member _ type name base value =>
    if base.isShownByValue then
      match value with
      | str s => s
      | other => other.display
    else type ++ "." ++ name
  | record _ _ .aliased fields => " ".intercalate (displayFields fields)
  | other => other.display

end Datum

end RouteDoc
