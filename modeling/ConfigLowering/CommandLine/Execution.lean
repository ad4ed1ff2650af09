import ConfigLowering.CommandLine.Failure
import ConfigLowering.CommandLine.Invocation
import ConfigLowering.Document.Building
import ConfigLowering.Document.Codec
import ConfigLowering.Json.Export
import ConfigLowering.Json.Printing
import ConfigLowering.Message
import ConfigLowering.Registration
import ConfigLowering.Settings.Codec
import ConfigLowering.Settings.Loader
import ConfigLowering.Substitution

/-!
# Running commands

A command reads files and has an outcome: what it prints, what it reports
aside, and an exit code. Some commands also change files. Settings are loaded
and validated before any command runs.
-/

namespace ConfigLowering.CommandLine

/-! ## Outcomes -/

structure Outcome where
  exitCode : Nat
  output : String
  report : String
  deriving DecidableEq, Repr

def Outcome.success (output : String) : Outcome := ⟨0, output, ""⟩

def Failure.outcome (failure : Failure) : Outcome := ⟨1, "", failure.report⟩

def versionNumber : String := "0.1.0"

def usageText : String :=
  "Lowers graphs of configs to code\n\n" ++
  "Usage: cfgen [OPTIONS] <COMMAND>\n\n" ++
  "Commands:\n" ++
  "  generate <INPUT> [-o, --output <FILE>] [--compact]\n" ++
  "  imports <INPUT> [--json | --statements]\n" ++
  "  config show [--json]\n" ++
  "  config path [--json]\n" ++
  "  config init [--global]\n\n" ++
  "Options:\n" ++
  "  -c, --config <FILE>       settings file\n" ++
  "  -v, --verbose             log more\n" ++
  "  -q, --quiet               report errors only\n" ++
  "      --base-module <NAME>  module of the wrapper types\n" ++
  "      --collision <POLICY>  suffix or qualify\n" ++
  "  -h, --help                this text\n" ++
  "  -V, --version             version\n"

def Interruption.outcome : Interruption → Outcome
  | misuse => ⟨2, "", usageText⟩
  | help => .success usageText
  | version title => .success (title ++ " " ++ versionNumber ++ "\n")

/-! ## Loading -/

/-- What a command finds besides files: the home directory of its user, if there
is one, which may be seen from the directory it runs in, and variables. -/
structure Surroundings where
  home : Option String
  environment : Environment

def Surroundings.loader (surroundings : Surroundings) : SettingsLoader :=
  .ofHome surroundings.home

def Options.overrides (options : Options) : Overrides where
  baseModule := options.baseModule
  collision := options.collision
  logLevel :=
    if options.quiet then some "error" else if options.verbose then some "debug" else none
  pretty := none

/-- A file that is given takes the place of the global and the local one. -/
def loadSettings (surroundings : Surroundings) (options : Options) (files : Workspace) :
    Except Failure Settings :=
  match options.settingsFile with
  | some path =>
      (SettingsLoader.loadFile files path options.overrides).mapError
        (.ofSettings ("Failed to load config file " ++ path))
  | none =>
      (surroundings.loader.load files files.directory options.overrides).1.mapError
        (.ofSettings "Failed to load configuration")

def validSettings (surroundings : Surroundings) (options : Options) (files : Workspace) :
    Except Failure Settings := do
  let settings ← loadSettings surroundings options files
  settings.validate.mapError (.ofSettings "Invalid configuration")
  return settings

/-- The task of the document in a file. -/
def loadTask (settings : Settings) (files : Workspace) (input : String) : Except Failure Task :=
  match files.readText input with
  | .error error => .error (.ofCause ("Failed to read " ++ input) error.message)
  | .ok text =>
      match GraphDocument.parse text with
      | none =>
          .error ⟨"Failed to parse " ++ input, [DocumentError.malformed.message], true⟩
      | some document =>
          match document.toTask settings.forTasks with
          | .error error =>
              .error (.ofCause ("Invalid graph document " ++ input) error.message)
          | .ok (task, _) => .ok task

def registered (task : Task) : Except Failure (ImportSummary × Task) :=
  match task.registerImports with
  | (.ok summary, task) => .ok (summary, task)
  | (.error error, _) => .error (.ofCause "Failed to register imports" error.message)

def substituted (task : Task) : Except Failure Task :=
  match task.substitute with
  | (.ok (), task) => .ok task
  | (.error error, _) =>
      .error (.ofCause "Failed to replace config nodes with symbolic calls" error.message)

/-! ## Generating -/

def moduleJson (task : Task) : Json :=
  .object [
    ("imports", .ofList Import.toJson task.imports.imports),
    ("functions", .ofList Fixture.toJson task.fixtures)]

/-- The text of the module generated from the document in a file. -/
def generatedText (settings : Settings) (files : Workspace) (input : String) (compact : Bool) :
    Except Failure String := do
  let task ← loadTask settings files input
  let (_, task) ← registered task
  let json := moduleJson (← substituted task)
  return (if settings.pretty && !compact then json.pretty else json.compact) ++ "\n"

def writeOutput (quiet : Bool) (files : Workspace) (path text : String) :
    Except Failure Outcome × Workspace :=
  match files.writeText path text with
  | .error error => (.error (.ofCause ("Failed to write " ++ path) error.message), files)
  | .ok files => (.ok ⟨0, "", if quiet then "" else "Wrote " ++ path ++ "\n"⟩, files)

/-! ## Imports -/

def reportJson (task : Task) (summary : ImportSummary) : Json :=
  .object [
    ("imports", .ofList Import.toJson task.imports.imports),
    ("config_nodes", .integer summary.configNodes),
    ("symbols", .integer summary.symbols),
    ("skipped", .integer summary.skipped)]

/-- The width of the alias column: the most bytes that an alias has. -/
def aliasWidth (imports : List Import) : Nat :=
  imports.foldl (fun width entry => max width entry.localName.utf8ByteSize) "ALIAS".length

def tableLine (width : Nat) (first second : String) : String :=
  first ++ String.ofList (List.replicate (width - first.length) ' ') ++ "  " ++ second ++ "\n"

def importTable (imports : List Import) : String :=
  let width := aliasWidth imports
  tableLine width "ALIAS" "MODULE" ++
    String.join (imports.map fun entry => tableLine width entry.localName entry.module)

def summaryLine (imports : List Import) (summary : ImportSummary) : String :=
  toString imports.length ++ " import(s), " ++
    toString summary.configNodes ++ " config node(s), " ++
    toString summary.symbols ++ " symbol(s), " ++
    toString summary.skipped ++ " skipped\n"

def importsText (quiet : Bool) (task : Task) (summary : ImportSummary) :
    ImportsFormat → String
  | .json => (reportJson task summary).pretty ++ "\n"
  | .statements => String.join (task.imports.imports.map (·.statement ++ "\n"))
  | .table =>
      let imports := task.imports.imports
      importTable imports ++ (if quiet then "" else "\n" ++ summaryLine imports summary)

def showImports (options : Options) (settings : Settings) (files : Workspace)
    (input : String) (format : ImportsFormat) : Except Failure Outcome := do
  let task ← loadTask settings files input
  let (summary, task) ← registered task
  return .success (importsText options.quiet task summary format)

/-! ## Settings -/

def settingsText (settings : Settings) (json : Bool) : String :=
  if json then settings.toJson.pretty ++ "\n" else settings.render

def pathLine (files : Workspace) (label path : String) : String :=
  label ++ path ++ (if files.exists? path then "" else " (not found)") ++ "\n"

def globalPathLine (files : Workspace) : Option String → String
  | some path => pathLine files "global: " path
  | none => "global: (no home directory)\n"

def pathsText (surroundings : Surroundings) (files : Workspace) (json : Bool) : String :=
  let globalPath := surroundings.loader.globalPath?
  let localPath := SettingsLoader.localPath files.directory
  if json then
    (Json.object [
      ("global", .ofOption .string globalPath),
      ("local", .string localPath),
      ("global_exists", .bool (globalPath.any files.exists?)),
      ("local_exists", .bool (files.exists? localPath))]).pretty ++ "\n"
  else globalPathLine files globalPath ++ pathLine files "local:  " localPath

def initSettings (surroundings : Surroundings) (files : Workspace) (inHome : Bool) :
    Except Failure Outcome × Workspace :=
  let (outcome, files) :=
    if inHome then surroundings.loader.initGlobal files
    else SettingsLoader.initLocal files files.directory
  let summary :=
    if inHome then "Failed to create global config" else "Failed to create local config"
  match outcome with
  | .ok path => (.ok (.success (path ++ "\n")), files)
  | .error error => (.error (.ofSettings summary error), files)

/-! ## Commands -/

def execute (surroundings : Surroundings) (options : Options) (settings : Settings)
    (files : Workspace) : Command → Except Failure Outcome × Workspace
  | .generate input output compact =>
      match generatedText settings files input compact, output with
      | .error failure, _ => (.error failure, files)
      | .ok text, none => (.ok (.success text), files)
      | .ok text, some path => writeOutput options.quiet files path text
  | .imports input format =>
      (showImports options settings files input format, files)
  | .showSettings json => (.ok (.success (settingsText settings json)), files)
  | .showPaths json => (.ok (.success (pathsText surroundings files json)), files)
  | .initSettings inHome => initSettings surroundings files inHome

/-- The outcome of a command line, and the files after it. -/
def run (surroundings : Surroundings) (files : Workspace) (arguments : List String) :
    Outcome × Workspace :=
  match Invocation.read surroundings.environment arguments with
  | .error interruption => (interruption.outcome, files)
  | .ok invocation =>
      match validSettings surroundings invocation.options files with
      | .error failure => (failure.outcome, files)
      | .ok settings =>
          match execute surroundings invocation.options settings files invocation.command with
          | (.ok outcome, files) => (outcome, files)
          | (.error failure, files) => (failure.outcome, files)

end ConfigLowering.CommandLine
