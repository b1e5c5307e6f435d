import RouteDoc.Text.Quoted
import RouteDoc.Text.Utf8

/-!
# Failures

The reasons for which an operation of the library does not return a result, with the account that is
given of each.
-/

namespace RouteDoc

/-- What is wrong with one field of a record that was to be validated. -/
structure Problem where
  place : List String
  fault : String
  deriving DecidableEq, Repr

/-- What lacks an operation or an attribute: a value of a kind, a class itself, or one that is not named. -/
inductive Holder where
  | value (kind : String)
  | type (name : String)
  | unnamed
  deriving DecidableEq, Repr

instance : Coe String Holder := ⟨.value⟩

/-- The account of a holder that lacks something. -/
def Holder.account (operation : String) : Holder → String
  | value kind => "'" ++ kind ++ "' object has no attribute '" ++ operation ++ "'"
  | type name => "type object '" ++ name ++ "' has no attribute '" ++ operation ++ "'"
  | unnamed => operation

/-- The reasons for which an operation fails. -/
inductive Failure where
  /-- A value of this kind holds no items. -/
  | notIterable (kind : String)
  /-- An item of a list of pairs is no sequence. -/
  | pairNotSequence (index : Nat)
  /-- An item of a list of pairs does not have two parts. -/
  | pairLength (index length : Nat)
  /-- A value of this kind cannot be a key. -/
  | notAKey (kind : String)
  /-- A value of this kind lacks an operation of mappings or texts, or a class an attribute. -/
  | lacks (holder : Holder) (operation : String)
  /-- A value of this kind has no length. -/
  | noLength (kind : String)
  /-- A value of this type cannot be written as JSON. -/
  | unwritable (type : String)
  /-- A key of this type cannot be written as JSON. -/
  | unwritableKey (type : String)
  /-- The document contains itself. -/
  | circularDocument
  /-- The text is no YAML, or the document cannot be written as YAML. -/
  | yaml
  /-- The octets of a file are no text. -/
  | undecodable (fault : Utf8.Fault)
  /-- The document read from the named file is no mapping. -/
  | notAMapping (name : String)
  /-- The named file does not exist. -/
  | missingFile (name : String)
  /-- A file stands where a new directory is wanted. -/
  | fileExists (name : String)
  /-- A directory stands where a file is wanted. -/
  | isDirectory (name : String)
  /-- A file stands where a directory is wanted, above another one. -/
  | notDirectory (name : String)
  /-- A text is no integer to this base. -/
  | badInteger (base : Nat) (text : String)
  /-- A text has more digits than an integer is read from. -/
  | longInteger (digits : Nat)
  /-- An integer has more digits than are written. -/
  | longIntegerText
  /-- A text is no number. -/
  | badFloat (text : String)
  /-- An integer is too large for a number with a point. -/
  | largeInteger
  /-- A scalar that is tagged as a number has no characters. -/
  | emptyNumber
  /-- A tagged scalar is no truth value. -/
  | badTruth (text : String)
  /-- A tagged scalar is no timestamp. -/
  | badTimestamp
  /-- A field of a timestamp is out of its range. -/
  | timeRange (account : String)
  /-- An escape names no character. -/
  | badCharacter
  /-- The code of an escape is beyond all codes. -/
  | largeCode
  /-- A timestamp is a collection and no text. -/
  | timestampNoText
  /-- The text of a forward reference is no expression. -/
  | malformedReference (text : String)
  /-- The octets of a default value are no text. -/
  | undecodableDefault (fault : Utf8.Fault)
  /-- A default value contains itself. -/
  | circularDefault
  /-- A default value is nested too deeply. -/
  | deepDefault
  /-- An instance of a type lacks one of its fields. -/
  | missingField (type field : String)
  /-- A default value has a key of this kind. -/
  | badDefaultKey (kind : String)
  /-- A request extractor whose place is no source of arguments. -/
  | noPlace (location : String)
  /-- A record does not validate. -/
  | invalid (problems : List Problem)
  /-- The document can no longer change. -/
  | finalized
  /-- A text names no log level. -/
  | unknownLevel (shown : String)
  /-- A value of this kind is no log level. -/
  | notALevel (shown : String)
  deriving DecidableEq, Repr

/-- The account of a problem: its place and its fault. -/
def Problem.text (p : Problem) : String := ".".intercalate p.place ++ ":" ++ p.fault

namespace Failure

/-- The account of a failure. -/
def message : Failure → String
  | notIterable kind => "'" ++ kind ++ "' object is not iterable"
  | pairNotSequence index =>
    "cannot convert dictionary update sequence element #" ++ toString index ++ " to a sequence"
  | pairLength index length =>
    "dictionary update sequence element #" ++ toString index ++ " has length " ++ toString length
      ++ "; 2 is required"
  | notAKey kind => "unhashable type: '" ++ kind ++ "'"
  | lacks holder operation => holder.account operation
  | noLength kind => "object of type '" ++ kind ++ "' has no len()"
  | unwritable type => "Object of type " ++ type ++ " is not JSON serializable"
  | unwritableKey type => "keys must be str, int, float, bool or None, not " ++ type
  | circularDocument => "Circular reference detected"
  | yaml => ""
  | undecodable fault => fault.message
  | notAMapping name => name ++ " does not contain a mapping at the top level"
  | missingFile name => "[Errno 2] No such file or directory: " ++ displayText name
  | fileExists name => "[Errno 17] File exists: " ++ displayText name
  | isDirectory name => "[Errno 21] Is a directory: " ++ displayText name
  | notDirectory name => "[Errno 20] Not a directory: " ++ displayText name
  | badInteger base text =>
    "invalid literal for int() with base " ++ toString base ++ ": " ++ (text.take 200).toString
  | longInteger digits =>
    "Exceeds the limit (4300 digits) for integer string conversion: value has " ++ toString digits
      ++ " digits; use sys.set_int_max_str_digits() to increase the limit"
  | longIntegerText =>
    "Exceeds the limit (4300 digits) for integer string conversion; "
      ++ "use sys.set_int_max_str_digits() to increase the limit"
  | largeInteger => "int too large to convert to float"
  | badFloat text => "could not convert string to float: " ++ text
  | emptyNumber => "string index out of range"
  | badTruth text => text
  | badTimestamp => "'NoneType' object has no attribute 'groupdict'"
  | timeRange account => account
  | badCharacter => "chr() arg not in range(0x110000)"
  | largeCode => "Python int too large to convert to C int"
  | timestampNoText => "expected string or bytes-like object, got 'list'"
  | malformedReference text => "Forward reference must be an expression -- got " ++ text
  | undecodableDefault fault => fault.briefMessage
  | circularDefault => "Circular reference detected (id repeated)"
  | deepDefault => "Maximum serialization depth exceeded"
  | missingField type field => "'" ++ type ++ "' object has no attribute '" ++ field ++ "'"
  | badDefaultKey kind => "\x60" ++ kind ++ "\x60 not valid as object key"
  | noPlace location => location
  | invalid problems => "; ".intercalate (problems.map Problem.text)
  | finalized => "The OpenAPI document is finalized and can no longer change"
  | unknownLevel shown => "Unknown level: " ++ shown
  | notALevel shown => "Level not an integer or a valid string: " ++ shown

end Failure

end RouteDoc
