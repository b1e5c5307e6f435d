import RouteDoc.Number.Binary64

/-!
# Dates, times of day and durations

Civil dates and times as they stand in documents and default values, with the texts that are written
for them and the readers of those texts.

* `Date.text`, `Clock.text`, `DateTime.text` write the extended form; microseconds are written with
  six digits or not at all;
* `DateTime.instant?` is the point in time of a date-time with an offset;
* `Duration.text` writes a duration by years of 365 days, days, hours, minutes and seconds;
* `Calendar.readDate`, `Calendar.readTime`, `Calendar.readDateTime` read the extended and the basic form,
  dates by weeks included.
-/

namespace RouteDoc

/-- A day of the civil calendar. -/
structure Date where
  year : Nat
  month : Nat
  day : Nat
  deriving DecidableEq, Repr, Inhabited

/-- A time of day. -/
structure Clock where
  hour : Nat
  minute : Nat
  second : Nat
  micro : Nat
  deriving DecidableEq, Repr, Inhabited

/-- A date and a time of day; the offset from universal time counts microseconds. -/
structure DateTime where
  date : Date
  clock : Clock
  offset : Option Int
  deriving DecidableEq, Repr, Inhabited

/-- A time of day with an optional offset from universal time. -/
structure Time where
  clock : Clock
  offset : Option Int
  deriving DecidableEq, Repr, Inhabited

/-- A length of time in microseconds. -/
structure Duration where
  micros : Int
  deriving DecidableEq, Repr, Inhabited

/-- The decimal digits of a number, filled up with zeros to a width. -/
def padded (width n : Nat) : String :=
  let digits := Nat.toDigits 10 n
  String.ofList (List.replicate (width - digits.length) '0' ++ digits)

namespace Date

/-- Leap years of the Gregorian calendar. -/
def isLeap (year : Nat) : Bool := (year % 4 = 0 ∧ year % 100 ≠ 0) ∨ year % 400 = 0

/-- The number of days of a month. -/
def daysIn (year month : Nat) : Nat :=
  match month with
  | 2 => if isLeap year then 29 else 28
  | 4 | 6 | 9 | 11 => 30
  | _ => 31

/-- `2024-01-02` -/
def text (d : Date) : String := padded 4 d.year ++ "-" ++ padded 2 d.month ++ "-" ++ padded 2 d.day

/-- The number of days from the first day of year zero of the proleptic calendar. -/
def dayNumber (d : Date) : Int :=
  let shifted : Int := if d.month ≤ 2 then (d.year : Int) - 1 else d.year
  let era := shifted.fdiv 400
  let yearOfEra := shifted - era * 400
  let monthFromMarch : Int := if d.month > 2 then d.month - 3 else (d.month : Int) + 9
  let dayOfYear := (153 * monthFromMarch + 2) / 5 + d.day - 1
  let dayOfEra := yearOfEra * 365 + yearOfEra / 4 - yearOfEra / 100 + dayOfYear
  era * 146097 + dayOfEra

end Date

namespace Clock

/-- Midnight. -/
def midnight : Clock := ⟨0, 0, 0, 0⟩

/-- `03:04:05`, with six more digits when there are microseconds. -/
def text (c : Clock) : String :=
  padded 2 c.hour ++ ":" ++ padded 2 c.minute ++ ":" ++ padded 2 c.second
    ++ (if c.micro = 0 then "" else "." ++ padded 6 c.micro)

/-- Microseconds since midnight. -/
def micros (c : Clock) : Int := ((c.hour * 60 + c.minute) * 60 + c.second) * 1000000 + c.micro

end Clock

/-- An offset as `+05:30`, with seconds and microseconds when it has them. -/
def offsetText (offset : Int) : String :=
  let size := offset.natAbs
  let seconds := size / 1000000
  let micro := size % 1000000
  (if offset < 0 then "-" else "+") ++ padded 2 (seconds / 3600) ++ ":" ++ padded 2 (seconds / 60 % 60)
    ++ (if seconds % 60 = 0 ∧ micro = 0 then "" else ":" ++ padded 2 (seconds % 60))
    ++ (if micro = 0 then "" else "." ++ padded 6 micro)

/-- The offset in whole seconds, a half away from zero. -/
def offsetSeconds (offset : Int) : Int :=
  let size : Int := (offset.natAbs + 500000) / 1000000
  if offset < 0 then -size else size

/-- An offset as `+05:30`, or `Z` for none.  The seconds show in the sign alone. -/
def shortOffsetText (offset : Int) : String :=
  let seconds := offsetSeconds offset
  let minutes := seconds.natAbs / 60
  if seconds = 0 then "Z"
  else (if seconds < 0 then "-" else "+") ++ padded 2 (minutes / 60) ++ ":" ++ padded 2 (minutes % 60)

namespace DateTime

/-- The extended form with the given mark between date and time. -/
def text (separator : String) (t : DateTime) : String :=
  t.date.text ++ separator ++ t.clock.text ++ (t.offset.map offsetText).getD ""

/-- The point in time, in microseconds, of a date-time that has an offset. -/
def instant? (t : DateTime) : Option Int :=
  t.offset.map fun o => t.date.dayNumber * 86400000000 + t.clock.micros - o

/-- Two date-times are the same value when both have an offset and name one point in time, or neither
has one and they agree. -/
def same (s t : DateTime) : Bool :=
  match s.instant?, t.instant? with
  | some a, some b => a == b
  | none, none => s == t
  | _, _ => false

/-- The extended form in which universal time is written `Z` and offsets end at the minutes. -/
def zuluText (t : DateTime) : String :=
  t.date.text ++ "T" ++ t.clock.text ++ (t.offset.map shortOffsetText).getD ""

end DateTime

namespace Time

/-- The extended form. -/
def text (t : Time) : String := t.clock.text ++ (t.offset.map offsetText).getD ""

/-- The extended form in which universal time is written `Z` and offsets end at the minutes. -/
def zuluText (t : Time) : String := t.clock.text ++ (t.offset.map shortOffsetText).getD ""

/-- The whole seconds of universal time and the microseconds of the day, for a time with an offset. -/
def instant? (t : Time) : Option (Int × Nat) :=
  t.offset.map fun o => ((t.clock.micros.fdiv 1000000) - o.fdiv 1000000, t.clock.micro)

/-- Two times are the same value when they agree, or when both have an offset and name one point in time. -/
def same (s t : Time) : Bool :=
  match s.instant?, t.instant? with
  | some a, some b => a == b
  | none, none => s == t
  | _, _ => false

end Time

namespace Duration

/-- A count followed by its unit, or nothing for none. -/
def part (n : Nat) (unit : String) : String := if n = 0 then "" else toString n ++ unit

/-- Seconds and microseconds without trailing zeros. -/
def secondsPart (seconds micro : Nat) : String :=
  if seconds = 0 ∧ micro = 0 then ""
  else
    let fraction := ((padded 6 micro).toList.reverse.dropWhile (· == '0')).reverse
    toString seconds ++ (if micro = 0 then "" else "." ++ String.ofList fraction) ++ "S"

/-- A duration as `P1Y35DT1H1M1.5S`; a year has 365 days. -/
def text (d : Duration) : String :=
  let size := d.micros.natAbs
  let days := size / 86400000000
  let seconds := size / 1000000 % 86400
  let micro := size % 1000000
  let time := part (seconds / 3600) "H" ++ part (seconds / 60 % 60) "M" ++ secondsPart (seconds % 60) micro
  (if d.micros < 0 then "-" else "") ++ "P"
    ++ (if size = 0 then "T0S"
        else part (days / 365) "Y" ++ part (days % 365) "D" ++ (if time.isEmpty then "" else "T" ++ time))

end Duration

/-! ## Reading -/

namespace Calendar

/-- The number that a list of decimal digits stands for. -/
def number? (cs : List Char) : Option Nat :=
  if cs.isEmpty || !cs.all Char.isDigit then none
  else some (cs.foldl (fun n c => 10 * n + (c.toNat - '0'.toNat)) 0)

/-- A date of the calendar, when the fields name one. -/
def date? (year month day : Nat) : Option Date :=
  if 1 ≤ year ∧ year ≤ 9999 ∧ 1 ≤ month ∧ month ≤ 12 ∧ 1 ≤ day ∧ day ≤ Date.daysIn year month then
    some ⟨year, month, day⟩
  else none

/-- The microseconds of a number of seconds: the whole seconds exactly, and those of the fraction, rounded
as a number with a point, to the nearest, a half to the even one. -/
def microsOfSeconds (seconds : Binary64) : Int :=
  match seconds.ratio? with
  | none => 0
  | some (num, den) =>
    let whole := num.tdiv den
    let fraction := num - whole * den
    let size := (Binary64.ofRatio false fraction.natAbs den).mul (Binary64.ofInt 1000000)
    let micros : Int := match size.ratio? with
      | some (a, b) => Binary64.roundHalfEven a.natAbs b
      | none => 0
    whole * 1000000 + (if num < 0 then -micros else micros)

/-! ### Dates -/

/-- The day with a number, counted from the first of March of the year zero. -/
def dateOfDayNumber (n : Int) : Date :=
  let era := n.fdiv 146097
  let dayOfEra := n - era * 146097
  let yearOfEra := (dayOfEra - dayOfEra / 1460 + dayOfEra / 36524 - dayOfEra / 146096) / 365
  let dayOfYear := dayOfEra - (365 * yearOfEra + yearOfEra / 4 - yearOfEra / 100)
  let monthFromMarch := (5 * dayOfYear + 2) / 153
  let day := dayOfYear - (153 * monthFromMarch + 2) / 5 + 1
  let month := if monthFromMarch < 10 then monthFromMarch + 3 else monthFromMarch - 9
  let year := yearOfEra + era * 400 + (if month ≤ 2 then 1 else 0)
  ⟨year.toNat, month.toNat, day.toNat⟩

/-- The day of the week, from zero for Monday. -/
def weekday (d : Date) : Int := (d.dayNumber - (Date.mk 1 1 1).dayNumber) % 7

/-- The number of the Monday of the first week of a year, the week that holds its first Thursday. -/
def firstMonday (year : Nat) : Int :=
  let first : Date := ⟨year, 1, 1⟩
  let monday := first.dayNumber - weekday first
  if weekday first > 3 then monday + 7 else monday

/-- Has a year fifty-three weeks? -/
def isLongYear (year : Nat) : Bool :=
  let day := weekday ⟨year, 1, 1⟩
  day == 3 || (day == 2 && Date.isLeap year)

/-- The day of a week. -/
def dateOfWeek? (year week day : Nat) : Option Date :=
  if 1 ≤ year ∧ year ≤ 9999 ∧ 1 ≤ week ∧ (week ≤ 52 ∨ (week = 53 ∧ isLongYear year)) ∧ 1 ≤ day ∧ day ≤ 7 then
    some (dateOfDayNumber (firstMonday year + (week - 1) * 7 + (day - 1)))
  else none

/-- Reads `2024-01-02`, `20240102`, `2024-W01-2`, `2024W012`, or a week for its first day. -/
def readDate (cs : List Char) : Option Date :=
  match cs with
  | [a, b, c, d, '-', 'W', e, f] | [a, b, c, d, 'W', e, f] => do
    dateOfWeek? (← number? [a, b, c, d]) (← number? [e, f]) 1
  | [a, b, c, d, '-', 'W', e, f, '-', g] | [a, b, c, d, 'W', e, f, g] => do
    dateOfWeek? (← number? [a, b, c, d]) (← number? [e, f]) (← number? [g])
  | [a, b, c, d, '-', e, f, '-', g, h] | [a, b, c, d, e, f, g, h] => do
    date? (← number? [a, b, c, d]) (← number? [e, f]) (← number? [g, h])
  | _ => none

/-- The length of the date at the front of a text. -/
def dateLength (cs : List Char) : Nat :=
  match cs[4]?, cs[5]?, cs[8]? with
  | some '-', some 'W', some '-' => if cs[10]?.any Char.isDigit then 8 else 10
  | some '-', some 'W', _ => 8
  | some '-', _, _ => 10
  | some 'W', _, _ =>
    let digits := ((cs.drop 7).takeWhile Char.isDigit).length
    if digits < 2 then 7 + digits else if digits % 2 = 1 then 7 else 8
  | _, _, _ => 8

/-! ### Times -/

/-- Six digits of a fraction, cut or filled with zeros. -/
def microDigits (cs : List Char) : Option Nat :=
  number? ((cs ++ List.replicate 6 '0').take 6)

/-- The digits of a fraction behind a point or a comma; nothing stands for zero. -/
def readFraction (cs : List Char) : Option Nat :=
  match cs with
  | [] => some 0
  | mark :: digits =>
    if (mark == '.' || mark == ',') && !digits.isEmpty && digits.all Char.isDigit then microDigits digits
    else none

/-- Reads `03`, `03:04`, `03:04:05` or `03:04:05.5`, with or without colons. -/
def readFields (cs : List Char) : Option Clock :=
  match cs with
  | [a, b] => do some ⟨← number? [a, b], 0, 0, 0⟩
  | [a, b, ':', c, d] | [a, b, c, d] => do some ⟨← number? [a, b], ← number? [c, d], 0, 0⟩
  | a :: b :: ':' :: c :: d :: ':' :: e :: f :: fraction => do
    some ⟨← number? [a, b], ← number? [c, d], ← number? [e, f], ← readFraction fraction⟩
  | a :: b :: c :: d :: e :: f :: fraction => do
    some ⟨← number? [a, b], ← number? [c, d], ← number? [e, f], ← readFraction fraction⟩
  | _ => none

/-- Reads a time of day. -/
def readClock (cs : List Char) : Option Clock :=
  (readFields cs).filter fun c => c.hour < 24 && c.minute < 60 && c.second < 60

/-- Reads a time of day that `Z` or a signed offset may follow. -/
def readTimeOfDay (cs : List Char) : Option Time := do
  let body := cs.takeWhile fun c => c != '+' && c != '-' && c != 'Z'
  let clock ← readClock body
  match cs.drop body.length with
  | [] => some ⟨clock, none⟩
  | ['Z'] => some ⟨clock, some 0⟩
  | '+' :: rest => do some ⟨clock, some (← readFields rest).micros⟩
  | '-' :: rest => do some ⟨clock, some (-(← readFields rest).micros)⟩
  | _ => none

/-- Reads a time of day, which may begin with its mark. -/
def readTime (cs : List Char) : Option Time := readTimeOfDay (if cs.head? == some 'T' then cs.tail else cs)

/-- Reads a date that a mark and a time may follow. -/
def readDateTime (cs : List Char) : Option DateTime := do
  let length := dateLength cs
  let date ← readDate (cs.take length)
  match cs.drop length with
  | [] => some ⟨date, .midnight, none⟩
  | _ :: rest => do
    let time ← readTimeOfDay rest
    some ⟨date, time.clock, time.offset⟩

end Calendar

end RouteDoc
