import Std.Data.ExtTreeMap
import ConfigLowering.Namespace
import ConfigLowering.Symbol

/-!
# Imports

The import list of a generated module and the name of each registered symbol.
A module is imported under an alias that nothing else binds, and its symbols
are named below that alias; builtins go by their bare names as long as no
alias hides them.
-/

namespace ConfigLowering

/-! ## Import statements -/

structure Import where
  module : String
  localName : String
  deriving DecidableEq, Repr

def Import.statement (entry : Import) : String :=
  if entry.module = entry.localName then "import " ++ entry.module
  else if lastSegment entry.module = entry.localName && 1 < (segments entry.module).length then
    "from " ++ parentPath entry.module ++ " import " ++ entry.localName
  else "import " ++ entry.module ++ " as " ++ entry.localName

/-! ## Settings -/

/-- What to try when the preferred alias of a module is taken. -/
inductive CollisionPolicy where
  /-- Number the preferred alias. -/
  | suffix
  /-- Put more segments of the module path in front first. -/
  | qualify
  deriving DecidableEq, Repr

def CollisionPolicy.name : CollisionPolicy → String
  | suffix => "suffix"
  | qualify => "qualify"

/-- Preferred aliases by module path. -/
abbrev AliasMap := Std.ExtTreeMap String String

structure ImportSettings where
  /-- The module of the wrapper types. -/
  baseModule : String
  aliases : AliasMap
  collision : CollisionPolicy
  /-- Names that generated code must never bind. -/
  reservedNames : List String

namespace ImportSettings

def defaultBaseModule : String := "fiddle"

def defaultBaseAlias : String := "fdl"

def default : ImportSettings where
  baseModule := defaultBaseModule
  aliases := Std.ExtTreeMap.ofList [(defaultBaseModule, defaultBaseAlias)]
  collision := .suffix
  reservedNames := []

/-- No preferred aliases and no reserved names. -/
def bare : ImportSettings := { default with aliases := ∅ }

end ImportSettings

/-! ## Errors -/

inductive ImportError where
  | unresolvable (symbol : Symbol)
  | invalidModulePath (path : String)
  deriving DecidableEq, Repr

def ImportError.message : ImportError → String
  | unresolvable symbol =>
      "cannot import '" ++ symbol.qualifiedName ++
        "': it has no stable module-qualified name"
  | invalidModulePath path => "invalid module path '" ++ path ++ "'"

/-! ## Import manager -/

structure ImportManager where
  aliases : AliasMap
  collision : CollisionPolicy
  space : Namespace
  imports : List Import
  /-- Where the import of each module stands in the list. -/
  positions : Std.ExtTreeMap String Nat
  names : Std.ExtTreeMap SymbolKey String

namespace ImportManager

/-- Preferred aliases that are no identifiers are dropped. -/
def ofSettings (settings : ImportSettings) : ImportManager where
  aliases := settings.aliases.filter fun _ localName => isIdentifier localName
  collision := settings.collision
  space := Namespace.initial.addAll settings.reservedNames
  imports := []
  positions := ∅
  names := ∅

def size (manager : ImportManager) : Nat := manager.names.size

def isEmpty (manager : ImportManager) : Bool := manager.names.isEmpty

def aliasOf? (manager : ImportManager) (module : String) : Option String := do
  let position ← manager.positions[module]?
  let entry ← manager.imports[position]?
  return entry.localName

def isAlias (manager : ImportManager) (name : String) : Bool :=
  manager.imports.any (·.localName = name)

def nameOfKey? (manager : ImportManager) (key : SymbolKey) : Option String :=
  manager.names[key]?

def nameOf? (manager : ImportManager) (symbol : Symbol) : Option String :=
  manager.nameOfKey? symbol.key

/-! ## Choice of an alias -/

def preferredAlias (manager : ImportManager) (module : String) : String :=
  manager.aliases.getD module (lastSegment module)

/-- The last two, three, … and at last all segments, joined by underscores. -/
def qualifiedAliases (module : String) : List String :=
  let parts := segments module
  (List.range (parts.length - 1)).map fun position =>
    "_".intercalate (parts.drop (parts.length - (position + 2)))

/-- The aliases to try before numbering the preferred one. -/
def plainCandidates (manager : ImportManager) (module : String) : List String :=
  manager.preferredAlias module ::
    match manager.collision with
    | .suffix => []
    | .qualify => qualifiedAliases module

def chooseAlias (manager : ImportManager) (module : String) : String :=
  match (manager.plainCandidates module).find? (!manager.space.contains ·) with
  | some localName => localName
  | none => manager.space.freshNameFor (manager.preferredAlias module)

/-! ## Registration -/

/-- The alias of a module, which is imported now if it was not. -/
def ensureModule (manager : ImportManager) (module : String) :
    String × ImportManager :=
  match manager.aliasOf? module with
  | some localName => (localName, manager)
  | none =>
      let localName := manager.chooseAlias module
      (localName, { manager with
        space := (manager.space.add localName).2
        positions := manager.positions.insert module manager.imports.length
        imports := manager.imports ++ [⟨module, localName⟩] })

/-- Registers a symbol and gives the name that generated code uses for it. -/
def add (manager : ImportManager) (symbol : Symbol) :
    Except ImportError String × ImportManager :=
  match manager.nameOf? symbol with
  | some name => (.ok name, manager)
  | none =>
      if !symbol.isImportable then (.error (.unresolvable symbol), manager)
      else
        let head := firstSegment symbol.qualname
        let (name, manager) :=
          if symbol.isBuiltin && !manager.isAlias head then
            (symbol.qualname, { manager with space := (manager.space.add head).2 })
          else
            let (localName, manager) := manager.ensureModule symbol.module
            (localName ++ "." ++ symbol.qualname, manager)
        (.ok name, { manager with names := manager.names.insert symbol.key name })

/-- Imports a module for its own sake and gives its alias. -/
def addModule (manager : ImportManager) (module : String) :
    Except ImportError String × ImportManager :=
  if isDottedPath module then
    let (localName, manager) := manager.ensureModule module
    (.ok localName, manager)
  else (.error (.invalidModulePath module), manager)

end ImportManager

end ConfigLowering
