import RouteDoc.CommandLine.Usage
import RouteDoc.Workspace

/-!
# The command line

Two commands write documents: `generate` takes the documentation that a module holds, `merge` a document
in a file; both lay overrides over it.  The result goes to a file or is printed.

* `CommandLine.run` — what a call answers, and the workspace that it leaves.
-/

namespace RouteDoc.CommandLine

/-- Why a command fails. -/
inductive Refusal where
  /-- The call is not as it should be. -/
  | usage (fault : UsageFault)
  /-- A document cannot be read. -/
  | unreadable (name : String) (failure : Failure)
  | module (fault : ModuleFault)
  | failure (f : Failure)
  deriving DecidableEq, Repr

namespace Refusal

/-- The account of a failure within that of a command: malformed documents have no words of their own. -/
def accountOf : Failure → String
  | .yaml => "YAMLError"
  | f => f.message

/-- The account of a refusal. -/
def message : Refusal → String
  | usage fault => fault.message
  | unreadable name f => "cannot read " ++ name ++ ": " ++ accountOf f
  | module fault => fault.message
  | failure f => f.message

/-- The exit code of a command that fails. -/
def exitCode : Refusal → Nat
  | usage _ => 2
  | _ => 1

end Refusal

/-- A call under way: the workspace, what is printed, and the files that were written. -/
structure Session where
  workspace : Workspace
  output : String
  saved : List String
  deriving Repr, Inhabited

/-- An action of a command. -/
abbrev Action := ExceptT Refusal (StateM Session)

/-- What a call answers. -/
structure Answer where
  refusal : Option Refusal
  output : String
  /-- The files that were written. -/
  saved : List String
  deriving Repr, Inhabited

namespace Answer

/-- The exit code of a call. -/
def exitCode (a : Answer) : Nat := (a.refusal.map Refusal.exitCode).getD 0

/-- The notice that a document was written. -/
def notice (name : String) : String := "OpenAPI document saved to " ++ name

/-- The notices of a call. -/
def notices (a : Answer) : List String := a.saved.map notice

end Answer

/-- An action that cannot be taken. -/
def refuse {α : Type} (r : Refusal) : Action α := throw r

/-- The result of a library function, or its failure. -/
def attempt {α : Type} : Except Failure α → Action α
  | .ok a => return a
  | .error f => refuse (.failure f)

/-- What a call says, or what is wrong with it. -/
def attend {α : Type} : Except UsageFault α → Action α
  | .ok a => return a
  | .error fault => refuse (.usage fault)

/-! ### Usages -/

/-- The option for the file to write. -/
def outputOption : OptionForm := ⟨some 'o', "output", false, .text⟩

/-- The option for the format. -/
def formatOption : OptionForm := ⟨none, "format", false, .oneOf ["auto", "json", "yaml"]⟩

/-- The options before the name of a command. -/
def mainUsage : Usage := ⟨[⟨none, "log-level", false, .oneOf Settings.logLevels⟩], [], false⟩

/-- The usage of `generate`. -/
def generateUsage : Usage :=
  ⟨[outputOption, formatOption, ⟨none, "merge", true, .existing⟩, ⟨none, "app-dir", false, .noFile⟩],
    [⟨"TARGET", false, .text⟩], true⟩

/-- The usage of `merge`. -/
def mergeUsage : Usage :=
  ⟨[outputOption, ⟨none, "route", false, .text⟩, formatOption],
    [⟨"BASE", false, .existing⟩, ⟨"OVERRIDES", true, .existing⟩], true⟩

/-! ### Documents -/

/-- Is the failure one of the text of a file, not of the file itself? -/
def isOfText : Failure → Bool
  | .yaml | .undecodable _ | .notAMapping _ | .badInteger _ _ | .longInteger _ | .badFloat _ | .timeRange _
  | .badCharacter => true
  | _ => false

/-- Reads a document. -/
def readDocument (name : String) : Action Document := do
  let n := FileName.ofText name
  match Document.load (← get).workspace.folder n with
  | .ok d => return d
  | .error f => refuse (if isOfText f then .unreadable n.text f else .failure f)

/-- The format that a document is written in: as asked for, or by the name of the file, or JSON. -/
def formatOf (asked : String) (output : Option FileName) : DocumentFormat :=
  if asked == "auto" then (output.map DocumentFormat.ofFile).getD .json else .ofName asked

/-- Prints a text. -/
def print (text : String) : Action Unit := modify fun s => { s with output := s.output ++ text }

/-- Writes a text to a file. -/
def save (n : FileName) (text : String) : Action Unit := do
  let folder ← attempt ((← get).workspace.folder.write n text)
  modify fun s =>
    { s with workspace := { s.workspace with folder := folder }, saved := s.saved ++ [n.text] }

/-- Writes a document as the options ask for. -/
def writeDocument (c : Call) (d : Document) : Action Unit := do
  let output := (c.value? "output").map FileName.ofText
  let text ← attempt (d.render (formatOf ((c.value? "format").getD "auto") output))
  match output with
  | some n => save n text
  | none => print text

/-! ### Commands -/

/-- The base with each of the named overrides laid over it, or over one of its paths. -/
def overlaid (route : String) (base : Document) : List String → Action Document
  | [] => return base
  | name :: rest => do
    let override ← readDocument name
    let d ← attempt (if route.isEmpty then base.mergeInto override else base.mergeRoute route override)
    overlaid route d rest

/-- Merges documents. -/
def merge (c : Call) : Action Unit := do
  match c.operands with
  | base :: overrides =>
    let d ← readDocument base
    writeDocument c (← overlaid ((c.value? "route").getD "") d overrides)
  | [] => return

/-- A complaint about the operand that names a documentation. -/
def badTarget {α : Type} (account : String) : Action α := refuse (.usage (.badValue "TARGET" account))

/-- The module and the attribute that an operand names: what stands before and after the first colon. -/
def splitTarget (target : String) : String × String :=
  let cs := target.toList
  let name := cs.takeWhile (· != ':')
  (String.ofList name, String.ofList (cs.drop (name.length + 1)))

/-- The module with a name. -/
def loadModule (name : String) : Action Module := do
  match (← get).workspace.findModule name with
  | .ok m => return m
  | .error (.relative name) => refuse (.module (.relative name))
  | .error fault => badTarget ("cannot import module '" ++ name ++ "': " ++ fault.message)

/-- The documentation that a module holds or makes, and whether it holds it. -/
def findTarget (target : String) : Action (Draft × Bool) := do
  let (name, item) := splitTarget target
  if name.isEmpty || item.isEmpty then badTarget "expected 'module:attribute'"
  else
    match (← loadModule name).lookup item with
    | some (.draft d) => return (d, true)
    | some (.maker d) => return (d, false)
    | some .other => badTarget ("'" ++ target ++ "' is not a Documentation instance")
    | none => badTarget ("module '" ++ name ++ "' has no attribute '" ++ item ++ "'")

/-- Leaves a draft in the module that holds it. -/
def keep (target : String) (isHeld : Bool) (d : Draft) : Action Unit :=
  if isHeld then
    let (name, item) := splitTarget target
    modify fun s => { s with workspace := s.workspace.keepDraft name item d }
  else return

/-- A draft with each of the named overrides laid over it. -/
def overlaidDraft (target : String) (isHeld : Bool) (d : Draft) : List String → Action Draft
  | [] => return d
  | name :: rest => do
    let (result, after) := d.mergeInto (← readDocument name)
    keep target isHeld after
    attempt result
    overlaidDraft target isHeld after rest

/-- Writes the document of a documentation. -/
def generate (c : Call) : Action Unit := do
  match c.operands with
  | target :: _ =>
    let (d, isHeld) ← findTarget target
    let d ← overlaidDraft target isHeld d (c.values "merge")
    let (result, after) := d.finalize
    keep target isHeld after
    writeDocument c (← attempt result)
  | [] => return

/-- The commands by name. -/
def commands : List (String × Usage × (Call → Action Unit)) :=
  [("generate", generateUsage, generate), ("merge", mergeUsage, merge)]

/-- A line that tells how to call a command. -/
def helpText (u : Usage) : String :=
  "Usage: [OPTIONS] " ++ " ".intercalate (u.operands.map OperandForm.label) ++ "\n"

/-- Calls a command with its words. -/
def perform (u : Usage) (command : Call → Action Unit) (words : List String) : Action Unit := do
  let c ← attend (u.sort words)
  if c.asksForHelp then print (helpText u)
  else
    attend (u.check (← get).workspace.folder c)
    command c

/-- The log level has to be known before a command is called: it is given, or one of the settings. -/
def checkSettings (c : Call) : Action Unit := do
  if (c.value? "log-level").isNone then
    let _ ← attempt (Settings.load (← get).workspace.environment [])

/-- Calls the command that the words name. -/
def dispatch (words : List String) : Action Unit := do
  let c ← attend (mainUsage.sort words)
  if c.asksForHelp then print (helpText mainUsage)
  else
    attend (Usage.checkOptions (← get).workspace.folder c (c.options.map (·.1)).eraseDups)
    match c.operands with
    | [] => refuse (.usage .missingCommand)
    | name :: rest =>
      match commands.lookup name with
      | none =>
        let _ ← attend (mainUsage.sort (name :: rest))
        refuse (.usage (.unknownCommand name (Likeness.closest name (commands.map (·.1)))))
      | some (u, command) =>
        checkSettings c
        perform u command rest

/-- What a call answers, and the workspace that it leaves. -/
def run (words : List String) (w : Workspace) : Answer × Workspace :=
  let (result, s) := StateT.run (dispatch words) ⟨w, "", []⟩
  let refusal : Option Refusal :=
    match result with
    | .ok _ => none
    | .error r => some r
  (⟨refusal, s.output, s.saved⟩, s.workspace)

end RouteDoc.CommandLine
