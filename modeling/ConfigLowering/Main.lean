import ConfigLowering.CommandLine.Execution

/-!
# The program

The files that a command can touch are copied from disk, the command runs on
the copy, and what it changed is written back.
-/

open ConfigLowering ConfigLowering.CommandLine

namespace ConfigLowering.Main

/-! ## Paths -/

/-- The paths that a command can read or write in the directory it runs in. -/
def touchedPaths (surroundings : Surroundings) (directory : String) (arguments : List String) :
    List String :=
  let settingsPaths :=
    surroundings.loader.globalPath?.toList ++ [SettingsLoader.localPath directory]
  match Invocation.read surroundings.environment arguments with
  | .error _ => []
  | .ok invocation =>
      let files := match invocation.command with
        | .generate input output _ => input :: output.toList
        | .imports input _ => [input]
        | _ => []
      settingsPaths ++ invocation.options.settingsFile.toList ++ files

/-- The path of every place on the way to a path, without `.` and `..`. -/
def placesTo (path : String) : List String :=
  let walk := (pathSteps path).foldl (fun (names, places) step =>
    let names := if step = "." then names
      else if step = ".." then names.dropLast
      else names ++ [step]
    (names, places ++ ["/" ++ "/".intercalate names])) (([], []) : List String × List String)
  walk.2

/-! ## Copies -/

/-- What is on disk at a place is put into the tree. -/
def capturePlace (tree : FileTree) (place : String) : IO FileTree := do
  let path := (← IO.currentDir) / place
  if ← path.isDir then return (tree.createDirectories place).2
  else if ← path.pathExists then
    return (tree.writeBytes place (← IO.FS.readBinFile path)).toOption.getD tree
  else return tree

def capture (paths : List String) : IO FileTree :=
  (paths.flatMap placesTo).foldlM capturePlace .empty

/-- Writes back a place whose directory or content is new. -/
def restorePlace (before after : FileTree) (place : String) : IO Unit := do
  match after.lookup place with
  | .error _ => return ()
  | .ok (.directory _) =>
      if !before.exists? place then IO.FS.createDirAll place
  | .ok (.file content) =>
      let isNew := match before.readBytes place with
        | .ok current => current.data != content.data
        | .error _ => true
      if isNew then IO.FS.writeBinFile place content

end ConfigLowering.Main

open ConfigLowering.Main

def main (arguments : List String) : IO UInt32 := do
  let configPath ← IO.getEnv "CFGEN_CONFIG"
  let baseModule ← IO.getEnv "CFGEN_BASE_MODULE"
  let surroundings : Surroundings := {
    home := (← IO.getEnv "HOME").filter (!·.isEmpty)
    environment := fun name =>
      if name = "CFGEN_CONFIG" then configPath
      else if name = "CFGEN_BASE_MODULE" then baseModule
      else none }
  let directory := (← IO.currentDir).toString
  let paths := (touchedPaths surroundings directory arguments).map (joinPath directory)
  let files ← capture paths
  let (outcome, changed) := run surroundings ⟨files, directory⟩ arguments
  (paths.flatMap placesTo).forM (restorePlace files changed.tree)
  IO.print outcome.output
  IO.eprint outcome.report
  return outcome.exitCode.toUInt32
