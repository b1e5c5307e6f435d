import RouteDoc.CommandLine

/-!
# The program

Reads the files that a call names, answers the call, prints what it answers and writes the files that it
leaves.  No modules can be loaded here: they are for programs that build on the library.
-/

open RouteDoc

/-- The variables of the environment that hold settings. -/
def settingVariables : List String :=
  ["AUTODOC_TITLE", "AUTODOC_VERSION", "AUTODOC_DESCRIPTION", "AUTODOC_LOG_LEVEL"]

/-- The folder of those files among the named ones that can be read. -/
def readFolder (names : List String) : IO Folder :=
  names.foldlM (fun folder (name : String) => do
    try
      let octets ← IO.FS.readBinFile name
      return folder.store (Folder.partsOf (FileName.ofText name)) octets.data.toList
    catch _ => return folder) []

/-- The values of variables that are set. -/
def readVariables (names : List String) : IO (List (String × String)) :=
  names.filterMapM fun name => do return (← IO.getEnv name).map fun value => (name, value)

/-- The text of a name in a folder. -/
def nameText : List String → String
  | "/" :: parts => "/" ++ "/".intercalate parts
  | parts => "/".intercalate parts

/-- Writes the files that differ from before. -/
def writeChanges (before after : Folder) : IO Unit :=
  for (parts, octets) in after do
    unless before.lookup parts == some octets do
      if parts.length > 1 then IO.FS.createDirAll (nameText parts.dropLast)
      IO.FS.writeBinFile (nameText parts) ⟨octets.toArray⟩

/-- Answers a call. -/
def main (words : List String) : IO UInt32 := do
  let values := words.filterMap fun word => (CommandLine.Usage.splitValue word).2
  let folder ← readFolder (".env" :: words ++ values)
  let bindings ← readVariables settingVariables
  let (answer, after) := CommandLine.run words ⟨folder, [], bindings⟩
  IO.print answer.output
  writeChanges folder after.folder
  for notice in answer.notices do IO.eprintln notice
  if let some refusal := answer.refusal then IO.eprintln ("Error: " ++ refusal.message)
  return answer.exitCode.toUInt32
