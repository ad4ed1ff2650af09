/-!
# File trees

A tree of directories and files, and the outcomes of reading and writing at a
path. A path is a text with slashes between its steps.
-/

namespace ConfigLowering

/-! ## Errors -/

inductive FileError where
  | notFound
  | alreadyExists
  | notADirectory
  | isADirectory
  | invalidText
  deriving DecidableEq, Repr

def FileError.message : FileError → String
  | notFound => "No such file or directory (os error 2)"
  | alreadyExists => "File exists (os error 17)"
  | notADirectory => "Not a directory (os error 20)"
  | isADirectory => "Is a directory (os error 21)"
  | invalidText => "stream did not contain valid UTF-8"

/-! ## Paths -/

def endsInSlash (path : String) : Bool := path.toList.getLast? = some '/'

/-- The texts between the slashes, without the empty ones. A slash at the end
stands for the directory itself. -/
def pathSteps (path : String) : List String :=
  let pieces := pieces path.toList
  let steps := (pieces.filter (!·.isEmpty)).map String.ofList
  if endsInSlash path then steps ++ ["."] else steps
where
  pieces : List Char → List (List Char)
    | [] => [[]]
    | character :: rest =>
        if character = '/' then [] :: pieces rest
        else
          match pieces rest with
          | [] => [[character]]
          | piece :: more => (character :: piece) :: more

/-- The path seen from a directory; a path that starts at the root stays. -/
def joinPath (directory path : String) : String :=
  if path.toList.head? = some '/' then path
  else if endsInSlash directory then directory ++ path
  else directory ++ "/" ++ path

/-! ## Trees -/

inductive FileTree where
  | file (content : ByteArray)
  | directory (entries : List (String × FileTree))

namespace FileTree

def empty : FileTree := .directory []

/-- The tree below a list of names. -/
def find : FileTree → List String → Except FileError FileTree
  | tree, [] => .ok tree
  | file _, _ :: _ => .error .notADirectory
  | directory entries, name :: names =>
      match entries.lookup name with
      | none => .error .notFound
      | some tree => tree.find names

/-- The names that a path leads through from the root, where `.` stays in a
directory and `..` goes up. Every step starts in a directory. -/
def locateFrom (tree : FileTree) : List String → List String → Except FileError (List String)
  | names, [] => .ok names
  | names, step :: steps =>
      match tree.find names with
      | .error error => .error error
      | .ok (file _) => .error .notADirectory
      | .ok (directory _) =>
          if step = "." then tree.locateFrom names steps
          else if step = ".." then tree.locateFrom names.dropLast steps
          else tree.locateFrom (names ++ [step]) steps

def locate (tree : FileTree) (path : String) : Except FileError (List String) :=
  tree.locateFrom [] (pathSteps path)

def lookup (tree : FileTree) (path : String) : Except FileError FileTree := do
  tree.find (← tree.locate path)

/-! ## Reading -/

def exists? (tree : FileTree) (path : String) : Bool :=
  match tree.lookup path with
  | .ok _ => true
  | .error _ => false

def readBytes (tree : FileTree) (path : String) : Except FileError ByteArray := do
  match ← tree.lookup path with
  | directory _ => throw .isADirectory
  | file content => return content

def readText (tree : FileTree) (path : String) : Except FileError String := do
  match String.fromUTF8? (← tree.readBytes path) with
  | some text => return text
  | none => throw .invalidText

/-! ## Writing -/

def setEntry (name : String) (tree : FileTree) :
    List (String × FileTree) → List (String × FileTree)
  | [] => [(name, tree)]
  | (other, current) :: entries =>
      if other = name then (name, tree) :: entries
      else (other, current) :: setEntry name tree entries

/-- Puts a tree at a list of names, of which the last one need not exist and may
be that of a file. -/
def put (tree : FileTree) : List String → FileTree → Except FileError FileTree
  | [], directory _ => .error .isADirectory
  | [], file _ => .ok tree
  | _ :: _, file _ => .error .notADirectory
  | name :: names, directory entries =>
      match entries.lookup name, names with
      | none, [] => .ok (directory (setEntry name tree entries))
      | none, _ :: _ => .error .notFound
      | some current, names => do
          return directory (setEntry name (← put tree names current) entries)

/-- A path that ends in a slash can only be that of a directory, which need not
exist for the write to fail. -/
def refuseDirectory (tree : FileTree) (path : String) : Except FileError FileTree := do
  match ← tree.find (← tree.locateFrom [] ((pathSteps path).dropLast.dropLast)) with
  | directory _ => throw .isADirectory
  | file _ => throw .notADirectory

def writeBytes (tree : FileTree) (path : String) (content : ByteArray) :
    Except FileError FileTree := do
  if endsInSlash path then tree.refuseDirectory path
  else put (file content) (← tree.locate path) tree

def writeText (tree : FileTree) (path text : String) : Except FileError FileTree :=
  tree.writeBytes path text.toUTF8

/-- Makes the directory that the steps lead to, in one that is there. -/
def createDirectoryAt (tree : FileTree) (steps : List String) : Except FileError FileTree := do
  let names ← tree.locateFrom [] steps
  match tree.find names with
  | .ok _ => throw .alreadyExists
  | .error .notFound => put empty names tree
  | .error error => throw error

def hasDirectoryAt (tree : FileTree) (steps : List String) : Bool :=
  match tree.locateFrom [] steps >>= tree.find with
  | .ok (directory _) => true
  | _ => false

/-- A directory that is there is as good as a new one. -/
def ensureDirectoryAt (tree : FileTree) (steps : List String) :
    Except FileError Unit × FileTree :=
  match tree.createDirectoryAt steps with
  | .ok tree => (.ok (), tree)
  | .error error => (if tree.hasDirectoryAt steps then .ok () else .error error, tree)

/-- Makes the directory that the steps lead to, the last step first, after those
that are missing on the way. What was made stays when a later step fails. -/
def createDirectoriesAt (tree : FileTree) : List String → Except FileError Unit × FileTree
  | [] => (.ok (), tree)
  | step :: outer =>
      let steps := (step :: outer).reverse
      match tree.ensureDirectoryAt steps with
      | (.error .notFound, tree) =>
          match tree.createDirectoriesAt outer with
          | (.ok (), tree) => tree.ensureDirectoryAt steps
          | failure => failure
      | outcome => outcome

/-- Makes a directory and those that lead to it, each step of the path in turn:
a directory that the path leaves again by `..` is made too. -/
def createDirectories (tree : FileTree) (path : String) : Except FileError Unit × FileTree :=
  tree.createDirectoriesAt ((pathSteps path).filter (· ≠ ".")).reverse

def eraseAt : List String → FileTree → FileTree
  | name :: names, directory entries =>
      match names, entries.lookup name with
      | [], _ => directory (entries.filter (·.1 ≠ name))
      | _ :: _, none => directory entries
      | _ :: _, some tree => directory (setEntry name (eraseAt names tree) entries)
  | _, tree => tree

/-- Takes away a file or a directory with all that is in it. -/
def remove (tree : FileTree) (path : String) : FileTree :=
  match tree.locate path with
  | .ok names => eraseAt names tree
  | .error _ => tree

end FileTree

end ConfigLowering
