import RouteDoc.Datum.Display
import RouteDoc.Datum.Same
import RouteDoc.Text.Utf8

/-!
# Members of enumerations

The values that the members of an enumeration stand for, and which members stand for themselves.  Where the
members are integers or texts, their values are made of what is declared: a fixed sequence holds the
arguments, such as a text and the base of its digits.

* `EnumBase.convert` — the value of a member, of what is declared;
* `EnumBase.canonical` — the values of the members that stand for themselves;
* `EnumBase.lookUp` — the member that a name stands for.
-/

namespace RouteDoc

namespace Datum

/-- The arguments that a declared value holds. -/
def arguments : Datum → List Datum
  | gathering .tuple items => items
  | record _ _ .places fields => fields.map fun (_, _, d) => d
  | d => [d]

/-- The integer part of a finite fraction. -/
def wholePart (num : Int) (den : Nat) : Int := num.tdiv den

/-- The integer part of a decimal number. -/
def decimalPart? : Decimal → Option Int
  | .finite negative coefficient exponent =>
    let size := if exponent ≥ 0 then coefficient * Nat.pow 10 exponent.toNat
      else coefficient / Nat.pow 10 (-exponent).toNat
    some (if negative then -(size : Int) else size)
  | _ => none

/-- The integer that digits to a base denote. -/
def integerOfDigits (base : Nat) (cs : List Char) : Option Int := (Numeral.readInteger base cs).toOption

/-- The characters of what holds digits: a text, or octets that are one. -/
def digits? (d : Datum) : Option (List Char) :=
  match d.text?, d with
  | some s, _ => some s.toList
  | none, bytes octets => (Utf8.decode octets).toOption
  | none, _ => none

/-- The integer that arguments denote. -/
def integerOfArguments : List Datum → Option Int
  | [] => some 0
  | [d] =>
    match d.integer?, d.digits?, d with
    | some i, _, _ => some i
    | none, some cs, _ => integerOfDigits 10 cs
    | none, none, float x => x.ratio?.map fun (a, b) => wholePart a b
    | none, none, decimal x => decimalPart? x
    | none, none, _ => none
  | [d, base] =>
    match d.digits?, base.integer? with
    | some cs, some b => integerOfDigits b.toNat cs
    | _, _ => none
  | _ => none

/-- The name of an encoding, whatever its letter case and its marks. -/
def encodingName (s : String) : String :=
  String.ofList (((s.toList.map Char.toLower).filter fun c => c.isAlphanum))

/-- The text of octets in an encoding. -/
def decodeAs? (encoding : String) (octets : List UInt8) : Option String :=
  match encodingName encoding with
  | "utf8" | "u8" | "utf" => ((Utf8.decode octets).toOption).map String.ofList
  | "ascii" | "usascii" | "646" =>
    if octets.all fun b => b.toNat < 128 then some (String.ofList (octets.map fun b => Char.ofNat b.toNat))
    else none
  | "latin1" | "latin" | "iso88591" | "88591" | "l1" | "cp819" =>
    some (String.ofList (octets.map fun b => Char.ofNat b.toNat))
  | _ => none

/-- The text that arguments denote. -/
def textOfArguments : List Datum → Option String
  | [] => some ""
  | [d] => some d.plainText
  | bytes [] :: _ :: _ => some ""
  | bytes octets :: encoding :: _ => encoding.text?.bind fun e => decodeAs? e octets
  | _ => none

end Datum

namespace EnumBase

/-- The value that a member stands for, of what is declared. -/
def convert (base : EnumBase) (d : Datum) : Datum :=
  if base.isNumeric then ((Datum.integerOfArguments d.arguments).map Datum.int).getD d
  else if base.isTextual then ((Datum.textOfArguments d.arguments).map Datum.str).getD d
  else d

end EnumBase

/-- Is a number a power of two? -/
def isSingleBit (i : Int) : Bool := i > 0 && Nat.pow 2 (Nat.log2 i.toNat) == i.toNat

namespace EnumBase

/-- Does a value stand for the same member as an earlier one?  A value that can be a key is looked for among
such values only. -/
def isAlias (value earlier : Datum) : Bool := (earlier.isKey || !value.isKey) && value.same earlier

/-- The members of an enumeration that stand for themselves: not those with the value of an earlier
member and, among flags, only single bits. -/
def canonical (base : EnumBase) (values : List Datum) : List Datum :=
  let own := values.foldl (fun out d => if out.any (isAlias d) then out else out ++ [d]) []
  if base.isFlag then own.filter fun d => d.integer?.any isSingleBit else own

/-- The first member with the value of the member of a name, and that value. -/
def lookUp (base : EnumBase) (name : String) (members : List (String × Datum)) : Option (String × Datum) := do
  let declared ← members.lookup name
  let value := base.convert declared
  let earlier := (members.takeWhile fun (n, _) => n != name).map fun (n, d) => (n, base.convert d)
  some ((earlier.find? fun (_, d) => isAlias value d).getD (name, value))

end EnumBase

end RouteDoc
