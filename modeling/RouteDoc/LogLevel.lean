import RouteDoc.Datum.Display
import RouteDoc.Failure

/-!
# Log levels

A level is a number or one of the names of a fixed list.  Setting a level that is neither leaves the log as
it was.

* `LogLevel.read` — the level that a value denotes;
* `Log.configure` — a log with a level set.
-/

namespace RouteDoc

namespace LogLevel

/-- The named levels. -/
def named? : String → Option Int
  | "NOTSET" => some 0
  | "DEBUG" => some 10
  | "INFO" => some 20
  | "WARNING" | "WARN" => some 30
  | "ERROR" => some 40
  | "CRITICAL" | "FATAL" => some 50
  | _ => none

/-- The level that a value denotes; truth values are numbers and stay what they are. -/
def read : Datum → Except Failure Datum
  | .int i => .ok (.int i)
  | .bool b => .ok (.bool b)
  | .str s =>
    match named? s with
    | some i => .ok (.int i)
    | none => .error (.unknownLevel (displayText s))
  | d => .error (.notALevel d.display)

/-- The name of a log for a part of the program. -/
def logName (name : String) : String := "AutoDoc." ++ name

end LogLevel

/-- The state of a log. -/
structure Log where
  level : Datum
  handlers : List String
  deriving Repr, Inhabited

namespace Log

/-- A log that was never set up. -/
def initial : Log := ⟨.int 0, []⟩

/-- A log with its level set and its one handler attached. -/
def configure (level : Datum) : Except Failure Log := do
  .ok ⟨← LogLevel.read level, ["RichHandler"]⟩

end Log

end RouteDoc
