/-!
# Tags

The tags of the standard types, and the type that a plain scalar has by the look of its text.

* `Tag.ofPlain` — the tag of a plain scalar.
-/

namespace RouteDoc.Yaml

/-- The types that tags name. -/
inductive Tag where
  | null | bool | int | float | timestamp | str | binary
  | seq | map | set | omap | pairs
  /-- The key under which other mappings are merged. -/
  | merge
  /-- The key of a default value. -/
  | value
  /-- The marks that are reserved. -/
  | reserved
  /-- Any other tag. -/
  | other (name : String)
  deriving DecidableEq, Repr, Inhabited

namespace Tag

/-- What standard tags begin with. -/
def standard : String := "tag:yaml.org,2002:"

/-- The names of the standard types. -/
def names : List (String × Tag) :=
  [("null", null), ("bool", bool), ("int", int), ("float", float), ("timestamp", timestamp), ("str", str),
    ("binary", binary), ("seq", seq), ("map", map), ("set", set), ("omap", omap), ("pairs", pairs),
    ("merge", merge), ("value", value), ("yaml", reserved)]

/-- The tag with a name. -/
def ofText (text : String) : Tag :=
  match names.find? fun (name, _) => standard ++ name == text with
  | some (_, t) => t
  | none => other text

/-- The short form of a tag that is written out. -/
def shortText (t : Tag) : String :=
  match names.find? fun (_, u) => u == t with
  | some (name, _) => "!!" ++ name
  | none => match t with
    | other name => name
    | _ => ""

/-! ### The look of plain scalars -/

/-- A part of a text that begins with digits, and the rest. -/
def spanDigits (cs : List Char) : List Char × List Char := (cs.takeWhile Char.isDigit, cs.dropWhile Char.isDigit)

/-- A decimal digit or a low line. -/
def isDigitOrLine (c : Char) : Bool := c.isDigit || c == '_'

/-- The text after a sign. -/
def afterSign : List Char → List Char
  | '+' :: rest => rest
  | '-' :: rest => rest
  | cs => cs

/-- Groups of one or two digits below sixty, each behind a colon, up to the end of the text or a point;
gives what follows them.  There has to be at least one. -/
def afterSixties (cs : List Char) : Option (List Char) := go false cs
where
  /-- Groups after others. -/
  go (found : Bool) : List Char → Option (List Char)
    | ':' :: a :: b :: rest =>
      if a.isDigit && b.isDigit then if '5' < a then none else go true rest
      else if a.isDigit then go true (b :: rest)
      else none
    | ':' :: [a] => if a.isDigit then some [] else none
    | cs => if found then some cs else none

/-- Do the words of the truth values look like this? -/
def looksBool (s : String) : Bool :=
  ["yes", "Yes", "YES", "no", "No", "NO", "true", "True", "TRUE", "false", "False", "FALSE", "on", "On", "ON",
    "off", "Off", "OFF"].contains s

/-- Does null look like this? -/
def looksNull (s : String) : Bool := ["~", "null", "Null", "NULL", ""].contains s

/-- Do integers look like this: binary, octal, decimal, hexadecimal or to the base sixty? -/
def looksInt (s : String) : Bool :=
  match afterSign s.toList with
  | '0' :: 'b' :: (c :: rest) => (c :: rest).all fun c => c == '0' || c == '1' || c == '_'
  | '0' :: 'x' :: (c :: rest) =>
    (c :: rest).all fun c => isDigitOrLine c || ('a' ≤ c && c ≤ 'f') || ('A' ≤ c && c ≤ 'F')
  | '0' :: rest => rest.all fun c => ('0' ≤ c && c ≤ '7') || c == '_'
  | c :: rest =>
    c.isDigit
      && match rest.dropWhile isDigitOrLine with
        | [] => true
        | rest => afterSixties rest == some []
  | [] => false

/-- Does the text consist of an exponent, or of nothing? -/
def looksExponent : List Char → Bool
  | [] => true
  | e :: sign :: (c :: rest) =>
    (e == 'e' || e == 'E') && (sign == '+' || sign == '-') && (c :: rest).all Char.isDigit
  | _ => false

/-- Do numbers with a point look like this? -/
def looksFloat (s : String) : Bool :=
  let cs := s.toList
  match cs, afterSign cs with
  | '.' :: c :: rest, _ =>
    (c.isDigit && looksExponent (rest.dropWhile isDigitOrLine))
      || [".nan", ".NaN", ".NAN", ".inf", ".Inf", ".INF"].contains s
  | _, '.' :: rest => [['i', 'n', 'f'], ['I', 'n', 'f'], ['I', 'N', 'F']].contains rest
  | _, c :: rest =>
    c.isDigit
      && match rest.dropWhile isDigitOrLine with
        | '.' :: rest => looksExponent (rest.dropWhile isDigitOrLine)
        | rest =>
          match afterSixties rest with
          | some ('.' :: rest) => rest.all isDigitOrLine
          | _ => false
  | _, [] => false

/-- A number of digits at the front and what follows, when there are at least and at most so many. -/
def digitsBetween (least most : Nat) (cs : List Char) : Option (List Char × List Char) :=
  let digits := (cs.take most).takeWhile Char.isDigit
  if digits.length < least then none else some (digits, cs.drop digits.length)

/-- The zone of a timestamp, as digits. -/
inductive ZoneText where
  | zero
  | offset (sign : Char) (hour minute : List Char)
  deriving Repr

/-- The time of day of a timestamp, as digits. -/
structure ClockText where
  hour : List Char
  minute : List Char
  second : List Char
  fraction : List Char
  zone : Option ZoneText
  deriving Repr

/-- The fields of a timestamp, as digits. -/
structure TimestampText where
  year : List Char
  month : List Char
  day : List Char
  clock : Option ClockText
  deriving Repr

/-- The text after one given character. -/
def after (c : Char) : List Char → Option (List Char)
  | d :: rest => if c == d then some rest else none
  | [] => none

/-- Is the text at its end, a last line feed apart? -/
def isAtEnd (cs : List Char) : Bool := cs.isEmpty || cs == ['\n']

/-- The zone at the end of a timestamp, where there need not be one. -/
def readZone (cs : List Char) : Option (Option ZoneText) :=
  if isAtEnd cs then some none
  else
    match cs.dropWhile fun c => c == ' ' || c == '\t' with
    | 'Z' :: rest => if isAtEnd rest then some (some .zero) else none
    | sign :: rest =>
      if sign == '+' || sign == '-' then do
        let (hour, rest) ← digitsBetween 1 2 rest
        match rest with
        | ':' :: rest => do
          let (minute, rest) ← digitsBetween 2 2 rest
          if isAtEnd rest then some (some (.offset sign hour minute)) else none
        | rest => if isAtEnd rest then some (some (.offset sign hour [])) else none
      else none
    | [] => none

/-- The time of day of a timestamp, behind a `T` or blanks. -/
def readClockText (cs : List Char) : Option ClockText := do
  let rest ← match cs with
    | c :: rest =>
      if c == 'T' || c == 't' then some rest
      else if c == ' ' || c == '\t' then some (rest.dropWhile fun c => c == ' ' || c == '\t')
      else none
    | [] => none
  let (hour, rest) ← digitsBetween 1 2 rest
  let (minute, rest) ← digitsBetween 2 2 (← after ':' rest)
  let (second, rest) ← digitsBetween 2 2 (← after ':' rest)
  let (fraction, rest) := match rest with
    | '.' :: rest => spanDigits rest
    | rest => ([], rest)
  some ⟨hour, minute, second, fraction, ← readZone rest⟩

/-- The fields of a timestamp. -/
def readTimestamp (cs : List Char) : Option TimestampText := do
  let (year, rest) ← digitsBetween 4 4 cs
  let (month, rest) ← digitsBetween 1 2 (← after '-' rest)
  let (day, rest) ← digitsBetween 1 2 (← after '-' rest)
  if isAtEnd rest then some ⟨year, month, day, none⟩
  else some ⟨year, month, day, some (← readClockText rest)⟩

/-- Do timestamps look like this?  Without a time of day, month and day have two digits. -/
def looksTimestamp (s : String) : Bool :=
  match readTimestamp s.toList with
  | some t => t.clock.isSome || (t.month.length == 2 && t.day.length == 2)
  | none => false

/-- A text without the line feed at its end, if there is one. -/
def withoutLastBreak (s : String) : String :=
  match s.toList.reverse with
  | '\n' :: rest => String.ofList rest.reverse
  | _ => s

/-- The tag of a plain scalar, by the look of its text.  A line feed at the end does not count, unless the text
consists of it. -/
def ofPlain (s : String) : Tag :=
  let look := withoutLastBreak s
  if look.isEmpty then if s.isEmpty then null else str
  else if looksBool look then bool
  else if looksFloat look then float
  else if looksInt look then int
  else if look == "<<" then merge
  else if looksNull look then null
  else if looksTimestamp s then timestamp
  else if look == "=" then value
  else if look == "!" || look == "&" || look == "*" then reserved
  else str

end Tag

end RouteDoc.Yaml
