import ConfigLowering.Settings

/-!
# Parameters and levels

A command has at most two words, and every word so far leads to a level with
parameters of its own. Shared parameters can be given at every level.
-/

namespace ConfigLowering.CommandLine

/-! ## Parameters -/

inductive Parameter where
  | settingsFile
  | verbose
  | quiet
  | baseModule
  | collision
  | help
  | version
  | input
  | output
  | compact
  | json
  | statements
  | inHome
  deriving DecidableEq, Repr

namespace Parameter

def shared : List Parameter :=
  [settingsFile, verbose, quiet, baseModule, collision, help, version]

/-- The name after two dashes. The input has none. -/
def long? : Parameter → Option String
  | settingsFile => some "config"
  | verbose => some "verbose"
  | quiet => some "quiet"
  | baseModule => some "base-module"
  | collision => some "collision"
  | help => some "help"
  | version => some "version"
  | input => none
  | output => some "output"
  | compact => some "compact"
  | json => some "json"
  | statements => some "statements"
  | inHome => some "global"

/-- The letter after one dash. -/
def short? : Parameter → Option Char
  | settingsFile => some 'c'
  | verbose => some 'v'
  | quiet => some 'q'
  | help => some 'h'
  | version => some 'V'
  | output => some 'o'
  | _ => none

def takesValue : Parameter → Bool
  | settingsFile | baseModule | collision | output => true
  | _ => false

def isPath : Parameter → Bool
  | settingsFile | input | output => true
  | _ => false

/-- The environment variable that counts when the parameter is not given. -/
def environmentName? : Parameter → Option String
  | settingsFile => some "CFGEN_CONFIG"
  | baseModule => some "CFGEN_BASE_MODULE"
  | _ => none

/-- A path has at least one character, and a collision policy a known name. -/
def accepts (parameter : Parameter) (value : String) : Bool :=
  if parameter.isPath then !value.isEmpty
  else if parameter = collision then (CollisionPolicy.parse value).toOption.isSome
  else true

end Parameter

/-! ## Levels -/

inductive Level where
  | top
  | generate
  | imports
  | settings
  | showSettings
  | showPaths
  | initSettings
  deriving DecidableEq, Repr

namespace Level

def words : Level → List String
  | top => []
  | generate => ["generate"]
  | imports => ["imports"]
  | settings => ["config"]
  | showSettings => ["config", "show"]
  | showPaths => ["config", "path"]
  | initSettings => ["config", "init"]

def title (level : Level) : String := "-".intercalate ("cfgen" :: level.words)

def subcommands : Level → List (String × Level)
  | top => [("generate", generate), ("imports", imports), ("config", settings)]
  | settings => [("show", showSettings), ("path", showPaths), ("init", initSettings)]
  | _ => []

def ownParameters : Level → List Parameter
  | generate => [.input, .output, .compact]
  | imports => [.input, .json, .statements]
  | showSettings => [.json]
  | showPaths => [.json]
  | initSettings => [.inHome]
  | top | settings => []

def parameters (level : Level) : List Parameter := Parameter.shared ++ level.ownParameters

def long? (level : Level) (name : String) : Option Parameter :=
  level.parameters.find? (·.long? = some name)

def short? (level : Level) (letter : Char) : Option Parameter :=
  level.parameters.find? (·.short? = some letter)

/-- The level that words lead to. -/
def follow? : Level → List String → Option Level
  | level, [] => some level
  | level, word :: words => do
      let inner ← level.subcommands.lookup word
      inner.follow? words

end Level

end ConfigLowering.CommandLine
