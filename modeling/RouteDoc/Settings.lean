import RouteDoc.Settings.Assignments
import RouteDoc.Text.LetterCase
import RouteDoc.Validation

/-!
# Settings

What a documentation is set up with: the title, version and description of the service and the log level.
Each is given explicitly, or by a variable of the environment, or by an assignment in a file, in this
order, or has its default.  Names of variables are compared without regard to letter case.

* `Settings.load` — the settings, or what is wrong with them;
* `Settings.document` — the document that a documentation begins with.
-/

namespace RouteDoc

/-- The settings of a documentation. -/
structure Settings where
  title : String
  version : String
  description : Option String
  logLevel : String
  deriving DecidableEq, Repr, Inhabited

/-- Where settings are looked up: the variables of the environment and a file of assignments. -/
structure Environment where
  bindings : List (String × String)
  assignments : Option String
  deriving Repr, Inhabited

namespace Environment

/-- The last value given for a name, in any letter case. -/
def lastValue? (name : String) (bindings : List (String × String)) : Option String :=
  (bindings.reverse.find? fun (n, _) => Text.lower n == name).map (·.2)

/-- The assignments of the file; a name without a value withdraws an earlier one. -/
def fileVariables (env : Environment) : List (String × Option String) :=
  Assignments.expand env.bindings (Assignments.read (env.assignments.getD ""))

/-- The last value assigned to a name in the file, in any letter case. -/
def fileValue? (env : Environment) (name : String) : Option String :=
  (env.fileVariables.reverse.find? fun (n, _) => Text.lower n == name).bind (·.2)

/-- The value of a setting: from the environment, or else from the file. -/
def lookUp (env : Environment) (setting : String) : Option String :=
  let name := "autodoc_" ++ setting
  match lastValue? name env.bindings with
  | some v => some v
  | none => env.fileValue? name

end Environment

namespace Settings

/-- The log levels that can be set. -/
def logLevels : List String := ["DEBUG", "INFO", "WARNING", "ERROR", "CRITICAL"]

/-- The version of the format that documents follow. -/
def formatVersion : String := "3.0.0"

/-- The value of a setting: as given, or else as found. -/
def valueOf (env : Environment) (given : Entries) (setting : String) : Option Value :=
  match given.get? (.str setting) with
  | some v => some v
  | none => (env.lookUp setting).map Value.str

/-- A setting that is a text. -/
def textOf (env : Environment) (given : Entries) (setting default : String) : Field.Reading String :=
  Field.text setting ((valueOf env given setting).getD (.str default))

/-- A setting that is a text or null. -/
def optionalOf (env : Environment) (given : Entries) (setting : String) : Field.Reading (Option String) :=
  match (valueOf env given setting).getD .null with
  | .null => .ok none
  | v => (Field.text setting v).map some

/-- The log level. -/
def levelOf (env : Environment) (given : Entries) : Field.Reading String :=
  match (valueOf env given "log_level").getD (.str "INFO") with
  | .str s => if logLevels.contains s then .ok s else Field.wrong "log_level" "literal_error"
  | _ => Field.wrong "log_level" "literal_error"

/-- The settings given explicitly, completed from the environment and the defaults. -/
def load (env : Environment) (given : Entries) : Except Failure Settings :=
  match textOf env given "title" "API Overview", textOf env given "version" "1.0.0",
      optionalOf env given "description", levelOf env given with
  | .ok title, .ok version, .ok description, .ok logLevel => .ok ⟨title, version, description, logLevel⟩
  | title, version, description, logLevel =>
    .error <| .invalid <|
      Field.problems title ++ Field.problems version ++ Field.problems description
        ++ Field.problems logLevel

/-- The description of a service; an empty description is left out. -/
def info (s : Settings) : Value :=
  .object <|
    [("title", .str s.title), ("version", .str s.version)]
      ++ match s.description with
        | some d => if d.isEmpty then [] else [("description", .str d)]
        | none => []

/-- The document without any route. -/
def document (s : Settings) : Value :=
  .object
    [("openapi", .str formatVersion), ("info", s.info), ("paths", .map []),
      ("components", .object [("schemas", .map [])])]

end Settings

end RouteDoc
