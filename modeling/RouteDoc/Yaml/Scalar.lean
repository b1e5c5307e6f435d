import RouteDoc.Datum.Display
import RouteDoc.Number.Numeral
import RouteDoc.Text.Base64
import RouteDoc.Text.LetterCase
import RouteDoc.Value
import RouteDoc.Yaml.Cursor
import RouteDoc.Yaml.Tag

/-!
# Meanings of scalars

The value that the text of a scalar has under its tag.  A text that was tagged by hand need not fit its
tag; then there is no value.

* `Tag.scalarValue` — the value of a text under a tag.
-/

namespace RouteDoc.Yaml

/-- A text without low lines. -/
def withoutLines (s : String) : List Char := s.toList.filter (· != '_')

/-- The parts of a text between colons. -/
def sixtyParts (cs : List Char) : List (List Char) := (String.ofList cs).splitOn ":" |>.map String.toList

/-! ### Integers -/

/-- Integers, from the first on. -/
def readIntegers : List (List Char) → Read (List Int)
  | [] => .ok []
  | cs :: rest => do
    let i ← Numeral.readInteger 10 cs
    .ok (i :: (← readIntegers rest))

/-- The integer that the text of a scalar denotes. -/
def integerOf (s : String) : Read Int :=
  match withoutLines s with
  | [] => .error .emptyNumber
  | cs =>
    let (negative, cs) := Numeral.splitSign cs
    Numeral.signed negative <$>
      match cs with
      | [] => .error .emptyNumber
      | ['0'] => .ok 0
      | '0' :: 'b' :: digits => Numeral.readInteger 2 digits
      | '0' :: 'x' :: digits => Numeral.readInteger 16 digits
      | '0' :: _ => Numeral.readInteger 8 cs
      | _ =>
        if cs.contains ':' then do .ok ((← readIntegers (sixtyParts cs)).foldl (fun n d => 60 * n + d) 0)
        else Numeral.readInteger 10 cs

/-! ### Numbers with a point -/

/-- Numbers, from the first on. -/
def readFloats : List (List Char) → Read (List Binary64)
  | [] => .ok []
  | cs :: rest => do
    let x ← Numeral.readFloat cs
    .ok (x :: (← readFloats rest))

/-- The number nearest to an integer that is not too large for one. -/
def nearest (n : Nat) : Read Binary64 :=
  match Binary64.ofInt n with
  | .infinite _ => .error .largeInteger
  | x => .ok x

/-- The sum of numbers by ascending powers of sixty, each product and each sum rounded. -/
def sixtySum (sum : Binary64) (base : Nat) : List Binary64 → Read Binary64
  | [] => .ok sum
  | x :: rest => do sixtySum (sum.add (x.mul (← nearest base))) (60 * base) rest

/-- The number that the text of a scalar denotes. -/
def floatOf (s : String) : Read Binary64 :=
  match (Text.lower (String.ofList (withoutLines s))).toList with
  | [] => .error .emptyNumber
  | cs =>
    let (negative, cs) := Numeral.splitSign cs
    let withSign (x : Binary64) : Binary64 := if negative then x.neg else x
    match String.ofList cs with
    | ".inf" => .ok (withSign (.infinite false))
    | ".nan" => .ok (.nan true)
    | _ =>
      if cs.contains ':' then do
        .ok (withSign (← sixtySum Binary64.zero 1 (← readFloats (sixtyParts cs)).reverse))
      else withSign <$> Numeral.readFloat cs

/-! ### Timestamps -/

/-- The number of decimal digits. -/
def digitsNumber (cs : List Char) : Nat := (Calendar.number? cs).getD 0

/-- A date, when its fields are in range. -/
def dateOf (t : Tag.TimestampText) : Read Date :=
  let year := digitsNumber t.year
  let month := digitsNumber t.month
  let day := digitsNumber t.day
  if year = 0 then .error (.timeRange "year 0 is out of range")
  else if month < 1 ∨ 12 < month then .error (.timeRange "month must be in 1..12")
  else if day < 1 ∨ Date.daysIn year month < day then .error (.timeRange "day is out of range for month")
  else .ok ⟨year, month, day⟩

/-- A time of day, when its fields are in range. -/
def clockOf (t : Tag.ClockText) : Read Clock :=
  let hour := digitsNumber t.hour
  let minute := digitsNumber t.minute
  let second := digitsNumber t.second
  if 23 < hour then .error (.timeRange "hour must be in 0..23")
  else if 59 < minute then .error (.timeRange "minute must be in 0..59")
  else if 59 < second then .error (.timeRange "second must be in 0..59")
  else .ok ⟨hour, minute, second, (Calendar.microDigits t.fraction).getD 0⟩

/-- The microseconds of a day. -/
def dayMicros : Int := 86400000000

/-- The offset of a zone, when it is less than a day. -/
def offsetOf : Option Tag.ZoneText → Read (Option Int)
  | none => .ok none
  | some .zero => .ok (some 0)
  | some (.offset sign hour minute) =>
    let size : Int := (digitsNumber hour * 60 + digitsNumber minute) * 60000000
    let offset := if sign == '-' then -size else size
    if dayMicros ≤ size then
      .error <| .timeRange <|
        "offset must be a timedelta strictly between -timedelta(hours=24) and timedelta(hours=24), not "
          ++ (Duration.mk offset).display ++ "."
    else .ok (some offset)

/-- The date or the date-time that the text of a scalar denotes. -/
def timestampOf (s : String) : Read Scalar :=
  match Tag.readTimestamp s.toList with
  | none => .error .badTimestamp
  | some t =>
    match t.clock with
    | none => do .ok (.date (← dateOf t))
    | some clock => do
      let offset ← offsetOf clock.zone
      let date ← dateOf t
      .ok (.dateTime ⟨date, ← clockOf clock, offset⟩)

/-! ### All scalars -/

/-- The truth value that a word denotes. -/
def truthOf (s : String) : Read Bool :=
  match Text.lower s with
  | "yes" | "true" | "on" => .ok true
  | "no" | "false" | "off" => .ok false
  | other => .error (.badTruth (displayText other))

/-- The octets that a text denotes. -/
def octetsOf (s : String) : Read (List UInt8) :=
  if s.toList.all fun c => c.toNat < 128 then
    match Base64.decode? s.toList with
    | some octets => .ok octets
    | none => malformed
  else malformed

/-- The value of a text under a tag. -/
def Tag.scalarValue (s : String) : Tag → Read Scalar
  | null => .ok .null
  | bool => Scalar.bool <$> truthOf s
  | int => Scalar.int <$> integerOf s
  | float => Scalar.float <$> floatOf s
  | timestamp => timestampOf s
  | binary => Scalar.bytes <$> octetsOf s
  | str => .ok (.str s)
  | _ => malformed

end RouteDoc.Yaml
