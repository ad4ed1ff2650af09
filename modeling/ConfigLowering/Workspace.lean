import ConfigLowering.FileTree

/-!
# Workspaces

A tree of files together with a directory, in which every path starts that does
not start at the root.
-/

namespace ConfigLowering

structure Workspace where
  tree : FileTree
  directory : String

namespace Workspace

/-- The path seen from the root. -/
def place (workspace : Workspace) (path : String) : String := joinPath workspace.directory path

/-! ## Reading -/

def exists? (workspace : Workspace) (path : String) : Bool :=
  workspace.tree.exists? (workspace.place path)

def readText (workspace : Workspace) (path : String) : Except FileError String :=
  workspace.tree.readText (workspace.place path)

/-! ## Writing -/

def writeText (workspace : Workspace) (path text : String) : Except FileError Workspace := do
  return { workspace with tree := ← workspace.tree.writeText (workspace.place path) text }

def createDirectories (workspace : Workspace) (path : String) :
    Except FileError Unit × Workspace :=
  let (outcome, tree) := workspace.tree.createDirectories (workspace.place path)
  (outcome, { workspace with tree })

end Workspace

end ConfigLowering
