import ConfigLowering.FileTree
import ConfigLowering.Imports

/-!
# Settings

Settings come from several sources, each over the one before. A source that
holds a default value says nothing about that setting; aliases and reserved
names accumulate; plain output from any source wins.
-/

namespace ConfigLowering

structure Settings where
  imports : ImportSettings
  /-- Whether generated JSON is spread over lines. -/
  pretty : Bool
  logLevel : String

namespace Settings

def defaultLogLevel : String := "info"

def logLevels : List String := ["trace", "debug", "info", "warn", "error"]

def default : Settings where
  imports := .default
  pretty := true
  logLevel := defaultLogLevel

end Settings

/-- The value of a setting, or its default when it is not written. -/
def settingOr {Written α : Type} (default : α) (decode : Written → Option α) :
    Option Written → Option α
  | none => some default
  | some written => decode written

/-! ## Merging -/

def mergeReservedNames (base overlay : List String) : List String :=
  overlay.foldl (fun names name => if names.contains name then names else names ++ [name]) base

def ImportSettings.merge (base overlay : ImportSettings) : ImportSettings where
  baseModule :=
    if overlay.baseModule ≠ defaultBaseModule then overlay.baseModule else base.baseModule
  aliases := base.aliases ∪ overlay.aliases
  collision := if overlay.collision ≠ .suffix then overlay.collision else base.collision
  reservedNames := mergeReservedNames base.reservedNames overlay.reservedNames

def Settings.merge (base overlay : Settings) : Settings where
  imports := base.imports.merge overlay.imports
  pretty := base.pretty && overlay.pretty
  logLevel := if overlay.logLevel ≠ defaultLogLevel then overlay.logLevel else base.logLevel

/-! ## Overrides -/

structure Overrides where
  baseModule : Option String
  collision : Option CollisionPolicy
  logLevel : Option String
  pretty : Option Bool

def Overrides.none : Overrides := ⟨.none, .none, .none, .none⟩

def Settings.override (settings : Settings) (overrides : Overrides) : Settings where
  imports := { settings.imports with
    baseModule := overrides.baseModule.getD settings.imports.baseModule
    collision := overrides.collision.getD settings.imports.collision }
  pretty := overrides.pretty.getD settings.pretty
  logLevel := overrides.logLevel.getD settings.logLevel

/-! ## Errors -/

inductive FileOperation where
  | read
  | write
  | createDirectory
  deriving DecidableEq, Repr

def FileOperation.description : FileOperation → String
  | read => "read config file"
  | write => "write config file"
  | createDirectory => "create config directory"

inductive SettingsError where
  | fileFailed (operation : FileOperation) (path : String) (cause : FileError)
  | malformed (path : String)
  /-- There is nowhere to look for the global settings. -/
  | noHomeDirectory
  | invalidBaseModule (path : String)
  | invalidAliasModule (path : String)
  | invalidAlias (module localName : String)
  | unknownCollisionPolicy (name : String)
  | unknownLogLevel (level : String)
  deriving DecidableEq, Repr

def SettingsError.message : SettingsError → String
  | fileFailed operation path cause =>
      "cannot " ++ operation.description ++ " '" ++ path ++ "': " ++ cause.message
  | malformed path => "malformed config file '" ++ path ++ "'"
  | noHomeDirectory => "could not determine home directory"
  | invalidBaseModule path =>
      "imports.base_module: '" ++ path ++ "' is not a dotted module path"
  | invalidAliasModule path =>
      "imports.aliases: '" ++ path ++ "' is not a dotted module path"
  | invalidAlias module localName =>
      "imports.aliases." ++ module ++ ": '" ++ localName ++ "' is not a valid identifier"
  | unknownCollisionPolicy name =>
      "imports.collision: unknown policy '" ++ name ++ "'. Valid values: suffix, qualify"
  | unknownLogLevel level =>
      "logging.level: unknown level '" ++ level ++ "'. Valid values: " ++
        ", ".intercalate Settings.logLevels

/-! ## Validation -/

/-- The policy of a name in letters of either case. No character beyond ASCII
becomes a letter of these names in lower case. -/
def CollisionPolicy.parse (name : String) : Except SettingsError CollisionPolicy :=
  match name.toLower with
  | "suffix" => .ok .suffix
  | "qualify" => .ok .qualify
  | _ => .error (.unknownCollisionPolicy name)

/-- A name that settings take for an alias or for a segment of a module path. -/
def isPlainName (name : String) : Bool :=
  match name.toList with
  | [] => false
  | first :: rest =>
      (first == '_' || Text.isAlphabetic first) &&
        rest.all fun character =>
          character == '_' || Text.isAlphabetic character || Text.isNumeric character

def isModulePath (path : String) : Bool :=
  !path.isEmpty && (segments path).all isPlainName

def validateAlias (entry : String × String) : Except SettingsError Unit := do
  if !isModulePath entry.1 then throw (.invalidAliasModule entry.1)
  if !isPlainName entry.2 then throw (.invalidAlias entry.1 entry.2)

def ImportSettings.validate (settings : ImportSettings) : Except SettingsError Unit := do
  if !isModulePath settings.baseModule then throw (.invalidBaseModule settings.baseModule)
  settings.aliases.toList.forM validateAlias

def Settings.validate (settings : Settings) : Except SettingsError Unit := do
  settings.imports.validate
  if !logLevels.contains settings.logLevel.toLower then
    throw (.unknownLogLevel settings.logLevel)

/-! ## Use -/

/-- The part of the settings that tasks are made with. -/
def Settings.forTasks (settings : Settings) : ImportSettings where
  baseModule := settings.imports.baseModule
  aliases := settings.imports.aliases
  collision := settings.imports.collision
  reservedNames := settings.imports.reservedNames

end ConfigLowering
