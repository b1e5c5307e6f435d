import RouteDoc.Document
import RouteDoc.Documentation

/-!
# Workspaces

What a command finds when it is called: a folder, the modules that can be loaded, and the variables of the
environment.  A documentation that a module holds stays as a command leaves it.

* `Workspace.environment` — where settings are looked up;
* `Workspace.findModule` — a module by its name, which may stand inside of another.
-/

namespace RouteDoc

/-- A documentation with the record of what is shared in its document. -/
structure Draft where
  documentation : Documentation
  sharing : Sharing
  deriving Repr, Inhabited

namespace Draft

/-- The draft changed by an override. -/
def mergeInto (override : Document) (d : Draft) : Except Failure Unit × Draft :=
  match Documentation.run (Documentation.mergeInto override.value) d.documentation with
  | (.ok _, after) =>
    (.ok (), ⟨after, Sharing.merge d.documentation.document override.value d.sharing override.sharing⟩)
  | (.error f, after) => (.error f, ⟨after, d.sharing⟩)

/-- The document of a draft, which does not change any more. -/
def finalize (d : Draft) : Except Failure Document × Draft :=
  let (result, after) := Documentation.run Documentation.finalize d.documentation
  (result.map fun v => ⟨v, d.sharing⟩, ⟨after, d.sharing⟩)

end Draft

/-- What a module holds under a name. -/
inductive Attribute where
  | draft (d : Draft)
  /-- A function that makes a documentation. -/
  | maker (d : Draft)
  /-- Anything else, or a function that makes it. -/
  | other
  deriving Repr

/-- The attributes of a module by name. -/
abbrev Module := List (String × Attribute)

/-- Why a module cannot be loaded. -/
inductive ModuleFault where
  | missing (name : String)
  /-- The module of which it would be a part has no parts. -/
  | noPackage (name above : String)
  /-- The name does not say where to begin. -/
  | relative (name : String)
  deriving DecidableEq, Repr

/-- The account of a fault. -/
def ModuleFault.message : ModuleFault → String
  | missing name => "No module named " ++ displayText name
  | noPackage name above =>
    "No module named " ++ displayText name ++ "; " ++ displayText above ++ " is not a package"
  | relative name =>
    "the 'package' argument is required to perform a relative import for " ++ displayText name

/-- What a command finds. -/
structure Workspace where
  folder : Folder
  modules : List (String × Module)
  bindings : List (String × String)
  deriving Repr, Inhabited

namespace Workspace

/-- The file of assignments. -/
def assignments? (w : Workspace) : Option String :=
  match (w.folder.read? (FileName.ofText ".env")).map Utf8.decode with
  | some (.ok text) => some (String.ofList text)
  | _ => none

/-- Where settings are looked up. -/
def environment (w : Workspace) : Environment := ⟨w.bindings, w.assignments?⟩

/-- Why there is no module with a name, given by its parts from the last to the first: the module above it
has no parts, or is missing itself. -/
def faultOf (w : Workspace) : List String → ModuleFault
  | [] => .missing ""
  | [part] => .missing part
  | part :: rest =>
    let above := ".".intercalate rest.reverse
    if (w.modules.lookup above).isSome then .noPackage (above ++ "." ++ part) above else faultOf w rest

/-- The module with a name. -/
def findModule (w : Workspace) (name : String) : Except ModuleFault Module :=
  if name.startsWith "." then .error (.relative name)
  else
    match w.modules.lookup name with
    | some m => .ok m
    | none => .error (w.faultOf (name.splitOn ".").reverse)

/-- The workspace with a draft in the place of another. -/
def keepDraft (moduleName attributeName : String) (d : Draft) (w : Workspace) : Workspace :=
  { w with
    modules := w.modules.map fun (name, attributes) =>
      (name, if name == moduleName then
        attributes.map fun (n, a) => (n, if n == attributeName then .draft d else a) else attributes) }

end Workspace

end RouteDoc
