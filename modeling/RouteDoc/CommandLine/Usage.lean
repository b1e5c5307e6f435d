import RouteDoc.Folder
import RouteDoc.Text.Likeness

/-!
# Usage of commands

A command takes options, which are given by name and in any order, and operands, which are given by place.
The words of a call are first sorted into options and operands; then each is checked, first the options in
the order in which they were given, then the operands.

* `Usage.sort` — the options and operands of a call;
* `Usage.check` — what the values have to be;
* `UsageFault.message` — the account of what is wrong with a call.
-/

namespace RouteDoc.CommandLine

/-- What is wrong with a call of a command. -/
inductive UsageFault where
  /-- An option that there is not, and those that are like it. -/
  | unknownOption (name : String) (alike : List String)
  /-- A command that there is not, and those that are like it. -/
  | unknownCommand (name : String) (alike : List String)
  | missingCommand
  | missingValue (option : String)
  | needlessValue (option : String)
  | missingOperand (label : String)
  | extraOperands (words : List String)
  /-- A value that does not suit the parameter. -/
  | badValue (parameter account : String)
  deriving DecidableEq, Repr

namespace UsageFault

/-- A hint at what may have been meant. -/
def hint : List String → String
  | [] => ""
  | [word] => " Did you mean " ++ displayText word ++ "?"
  | words => " (Did you mean one of: " ++ ", ".intercalate (words.map displayText) ++ "?)"

/-- The account of a fault. -/
def message : UsageFault → String
  | unknownOption name alike => "No such option " ++ displayText name ++ "." ++ hint alike
  | unknownCommand name alike => "No such command " ++ displayText name ++ "." ++ hint alike
  | missingCommand => "Missing command."
  | missingValue option => "Option " ++ displayText option ++ " requires an argument."
  | needlessValue option => "Option " ++ displayText option ++ " does not take a value."
  | missingOperand label => "Missing argument '" ++ label ++ "'."
  | extraOperands [word] => "Got unexpected extra argument (" ++ word ++ ")"
  | extraOperands words => "Got unexpected extra arguments (" ++ " ".intercalate words ++ ")"
  | badValue parameter account => "Invalid value for " ++ parameter ++ ": " ++ account

end UsageFault

/-- What a value has to be. -/
inductive Want where
  | text
  /-- One of several words. -/
  | oneOf (words : List String)
  /-- The name of something that is there. -/
  | existing
  /-- A name under which no file stands. -/
  | noFile
  deriving DecidableEq, Repr

/-- What is wrong with a value. -/
def Want.objection? (folder : Folder) (value : String) : Want → Option String
  | text => none
  | oneOf words =>
    if words.contains value then none
    else some (displayText value ++ " is not one of " ++ ", ".intercalate (words.map displayText) ++ ".")
  | existing =>
    if (folder.find? value).isSome then none else some ("Path " ++ displayText value ++ " does not exist.")
  | noFile =>
    if folder.find? value = some .file then some ("Directory " ++ displayText value ++ " is a file.") else none

/-- An option, by its name and perhaps a letter. -/
structure OptionForm where
  letter : Option Char
  name : String
  /-- Do all values count, and not the last one only? -/
  isRepeated : Bool
  want : Want
  deriving DecidableEq, Repr

/-- An operand. -/
structure OperandForm where
  name : String
  /-- Does it take all words that are left, at least one? -/
  takesAll : Bool
  want : Want
  deriving DecidableEq, Repr

/-- The options and operands of a command. -/
structure Usage where
  options : List OptionForm
  operands : List OperandForm
  /-- Can options follow operands? -/
  isMixed : Bool
  deriving Repr

/-- The spelling of an option by its name. -/
def OptionForm.longSpelling (o : OptionForm) : String := "--" ++ o.name

/-- An option as it is called in accounts. -/
def OptionForm.label (o : OptionForm) : String :=
  match o.letter with
  | some c => "'-" ++ String.singleton c ++ "' / '" ++ o.longSpelling ++ "'"
  | none => "'" ++ o.longSpelling ++ "'"

/-- An operand as it is called in accounts. -/
def OperandForm.label (o : OperandForm) : String := if o.takesAll then o.name ++ "..." else o.name

/-- The words of a call, sorted. -/
structure Call where
  /-- The options in the order in which they were given, with their values. -/
  options : List (OptionForm × String)
  operands : List String
  asksForHelp : Bool
  deriving Repr

namespace Call

/-- The values given for an option. -/
def values (c : Call) (name : String) : List String :=
  (c.options.filter fun (o, _) => o.name == name).map (·.2)

/-- The value of an option: the last one given. -/
def value? (c : Call) (name : String) : Option String := (c.values name).getLast?

/-- The call with one more option. -/
def addOption (c : Call) (o : OptionForm) (value : String) : Call :=
  { c with options := c.options ++ [(o, value)] }

/-- The call with more operands. -/
def addOperands (c : Call) (words : List String) : Call := { c with operands := c.operands ++ words }

end Call

/-- What a word that begins with a hyphen says. -/
inductive Word where
  | complete (o : OptionForm) (value : String)
  /-- The value is the next word. -/
  | begun (o : OptionForm) (spelling : String)
  | help

namespace Usage

/-- The name of a word before an equality sign, and the value after it. -/
def splitValue (word : String) : String × Option String :=
  let cs := word.toList
  let name := cs.takeWhile (· != '=')
  (String.ofList name, if name.length < cs.length then some (String.ofList (cs.drop (name.length + 1))) else none)

/-- The fault of an option by its name that there is not. -/
def unknown (u : Usage) (spelling : String) : UsageFault :=
  .unknownOption spelling (Likeness.closest spelling (u.options.map OptionForm.longSpelling ++ ["--help"]))

/-- Reads a word that begins with a hyphen: an option by its name, or by its letter, behind which the value
can follow at once. -/
def readWord (u : Usage) (word : String) : Except UsageFault Word :=
  let (spelling, value) := splitValue word
  if spelling == "--help" then
    if value.isSome then .error (.needlessValue spelling) else .ok .help
  else
    match u.options.find? fun o => o.longSpelling == spelling with
    | some o =>
      match value with
      | some value => .ok (.complete o value)
      | none => .ok (.begun o spelling)
    | none =>
      match word.toList with
      | '-' :: c :: rest =>
        if c == '-' then .error (u.unknown spelling)
        else
          match u.options.find? fun o => o.letter == some c with
          | some o => .ok (if rest.isEmpty then .begun o word else .complete o (String.ofList rest))
          | none => .error (.unknownOption ("-" ++ String.singleton c) [])
      | _ => .error (u.unknown spelling)

/-- Sorts the words of a call, with the option that still wants a value. -/
def sortFrom (u : Usage) (begun : Option (OptionForm × String)) (c : Call) :
    List String → Except UsageFault Call
  | [] =>
    match begun with
    | some (_, spelling) => .error (.missingValue spelling)
    | none => .ok c
  | word :: rest =>
    match begun with
    | some (o, _) => sortFrom u none (c.addOption o word) rest
    | none =>
      if word == "--" then .ok (c.addOperands rest)
      else if word.startsWith "-" && word != "-" then
        match u.readWord word with
        | .error fault => .error fault
        | .ok (.complete o value) => sortFrom u none (c.addOption o value) rest
        | .ok (.begun o spelling) => sortFrom u (some (o, spelling)) c rest
        | .ok .help => sortFrom u none { c with asksForHelp := true } rest
      else if u.isMixed then sortFrom u none (c.addOperands [word]) rest
      else .ok (c.addOperands (word :: rest))

/-- The options and operands of a call. -/
def sort (u : Usage) (words : List String) : Except UsageFault Call := sortFrom u none ⟨[], [], false⟩ words

/-! ### Checks -/

/-- Checks values of a parameter, from the first on. -/
def checkValues (folder : Folder) (label : String) (want : Want) : List String → Except UsageFault Unit
  | [] => .ok ()
  | value :: rest =>
    match want.objection? folder value with
    | some account => .error (.badValue label account)
    | none => checkValues folder label want rest

/-- Checks options, each where it was given first. -/
def checkOptions (folder : Folder) (c : Call) : List OptionForm → Except UsageFault Unit
  | [] => .ok ()
  | o :: rest => do
    let values := c.values o.name
    checkValues folder o.label o.want (if o.isRepeated then values else values.getLast?.toList)
    checkOptions folder c rest

/-- Checks operands. -/
def checkOperands (folder : Folder) : List OperandForm → List String → Except UsageFault Unit
  | [], [] => .ok ()
  | [], extra => .error (.extraOperands extra)
  | o :: _, [] => .error (.missingOperand o.label)
  | o :: rest, word :: words => do
    let label := "'" ++ o.label ++ "'"
    if o.takesAll then checkValues folder label o.want (word :: words)
    else
      checkValues folder label o.want [word]
      checkOperands folder rest words

/-- Checks a call. -/
def check (u : Usage) (folder : Folder) (c : Call) : Except UsageFault Unit := do
  checkOptions folder c (c.options.map (·.1)).eraseDups
  checkOperands folder u.operands c.operands

end Usage

end RouteDoc.CommandLine
