import ConfigLowering.Settings.File
import ConfigLowering.Workspace

/-!
# Loading settings

Settings are the defaults, then the global file, then the local file, then
overrides. The global file is read once; what it held then stays until the
cache is cleared. Files that are missing or cannot be read are not remembered.
Without a home directory there is no global file.
-/

namespace ConfigLowering

structure SettingsLoader where
  globalDirectory : Option String
  cachedGlobal : Option Settings

namespace SettingsLoader

def directoryName : String := ".cfgen"

def fileName : String := "config.toml"

def ofDirectory (directory : String) : SettingsLoader := ⟨directory, none⟩

/-- The loader whose global directory lies in the home directory, if there is one. -/
def ofHome (home : Option String) : SettingsLoader :=
  ⟨home.map (joinPath · directoryName), none⟩

def globalPath? (loader : SettingsLoader) : Option String :=
  loader.globalDirectory.map (joinPath · fileName)

def localPath (project : String) : String :=
  joinPath (joinPath project directoryName) fileName

/-! ## Reading -/

def readSettings (files : Workspace) (path : String) : Except SettingsError Settings :=
  match files.readText path with
  | .error error => .error (.fileFailed .read path error)
  | .ok text =>
      match Settings.parse text with
      | some settings => .ok settings
      | none => .error (.malformed path)

/-- Reads a file of settings if it exists. -/
def readIfPresent (files : Workspace) (path : String) :
    Except SettingsError (Option Settings) :=
  if files.exists? path then (readSettings files path).map some else .ok none

def loadGlobal (loader : SettingsLoader) (files : Workspace) :
    Except SettingsError (Option Settings) × SettingsLoader :=
  match loader.cachedGlobal with
  | some settings => (.ok (some settings), loader)
  | none =>
      match loader.globalPath? with
      | none => (.ok none, loader)
      | some path =>
          match readIfPresent files path with
          | .ok (some settings) =>
              (.ok (some settings), { loader with cachedGlobal := some settings })
          | outcome => (outcome, loader)

def loadLocal (files : Workspace) (project : String) :
    Except SettingsError (Option Settings) :=
  readIfPresent files (localPath project)

def mergeOptional (base : Settings) : Option Settings → Settings
  | none => base
  | some overlay => base.merge overlay

/-- The settings of a project. -/
def load (loader : SettingsLoader) (files : Workspace) (project : String)
    (overrides : Overrides) : Except SettingsError Settings × SettingsLoader :=
  match loader.loadGlobal files with
  | (.error error, loader) => (.error error, loader)
  | (.ok globalSettings, loader) =>
      match loadLocal files project with
      | .error error => (.error error, loader)
      | .ok localSettings =>
          let settings := mergeOptional (mergeOptional .default globalSettings) localSettings
          (.ok (settings.override overrides), loader)

/-- The settings of one file over the defaults, without any other file. -/
def loadFile (files : Workspace) (path : String) (overrides : Overrides) :
    Except SettingsError Settings := do
  let settings ← readSettings files path
  return (Settings.default.merge settings).override overrides

def clearCache (loader : SettingsLoader) : SettingsLoader :=
  { loader with cachedGlobal := none }

/-! ## Writing -/

def createSettingsDirectory (files : Workspace) (directory : String) :
    Except SettingsError Unit × Workspace :=
  if files.exists? directory then (.ok (), files)
  else
    let (outcome, files) := files.createDirectories directory
    (outcome.mapError (.fileFailed .createDirectory directory ·), files)

def writeDefaults (files : Workspace) (path : String) : Except SettingsError Workspace :=
  if files.exists? path then .ok files
  else
    (files.writeText path Settings.default.render).mapError (.fileFailed .write path ·)

/-- Makes a directory with a file of default settings, unless they are there.
The answer is the path of the file. -/
def initDirectory (files : Workspace) (directory : String) :
    Except SettingsError String × Workspace :=
  let path := joinPath directory fileName
  match createSettingsDirectory files directory with
  | (.error error, files) => (.error error, files)
  | (.ok (), files) =>
      match writeDefaults files path with
      | .error error => (.error error, files)
      | .ok files => (.ok path, files)

def initGlobal (loader : SettingsLoader) (files : Workspace) :
    Except SettingsError String × Workspace :=
  match loader.globalDirectory with
  | none => (.error .noHomeDirectory, files)
  | some directory => initDirectory files directory

def initLocal (files : Workspace) (project : String) :
    Except SettingsError String × Workspace :=
  initDirectory files (joinPath project directoryName)

end SettingsLoader

end ConfigLowering
