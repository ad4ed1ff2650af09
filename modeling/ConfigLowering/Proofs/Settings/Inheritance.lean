import Mathlib.Order.Basic
import ConfigLowering.Proofs.Settings.Reading

/-!
# Inheritance of settings

The settings of a project are those that there would be without its local file, merged with the
completed settings of that file. Merging takes a value that is the default for one that is not
stated, and the completed aliases for stated ones.
-/

namespace ConfigLowering

open ImportSettings (defaultBaseModule defaultBaseAlias)
open Settings (defaultLogLevel)

/-! ## Merging stated settings -/

theorem ImportSettings.getElem?_aliases_merge (base overlay : ImportSettings) (module : String) :
    (base.merge overlay).aliases[module]? =
      overlay.aliases[module]?.or base.aliases[module]? :=
  Std.ExtTreeMap.getElem?_union

theorem ImportSettings.getElem?_aliases_default (module : String) :
    default.aliases[module]? =
      if module = defaultBaseModule then some defaultBaseAlias else none := by
  simp only [default, Std.ExtTreeMap.ofList_singleton, Std.ExtTreeMap.getElem?_insert,
    Std.LawfulEqOrd.compare_eq_iff_eq, eq_comm (a := module), Std.ExtTreeMap.getElem?_empty]

/-- The rule that merging follows sees of the stated values those that are not the default. -/
theorem ite_getD_ne {α : Type} [DecidableEq α] (stated : Option α) (default inherited : α) :
    (if stated.getD default ≠ default then stated.getD default else inherited) =
      (stated.filter (· ≠ default)).getD inherited := by
  cases stated with
  | none => simp
  | some value =>
      by_cases hvalue : value = default
      · simp [Option.filter, hvalue]
      · simp [Option.filter, hvalue]

namespace StatedSettings

/-- What the file leaves out is inherited. But without a table of aliases the file gives the
base module its default alias. -/
structure Inherits (stated : StatedSettings) (inherited settings : Settings) : Prop where
  baseModule : stated.imports.baseModule = none →
    settings.imports.baseModule = inherited.imports.baseModule
  collision : stated.imports.collision = none →
    settings.imports.collision = inherited.imports.collision
  logLevel : stated.logLevel = none → settings.logLevel = inherited.logLevel
  pretty : stated.pretty = none → settings.pretty = inherited.pretty
  aliases : ∀ module, stated.imports.aliasOf? module = none →
    settings.imports.aliases[module]? =
      if stated.imports.aliases.isNone ∧ module = defaultBaseModule then some defaultBaseAlias
      else inherited.imports.aliases[module]?

/-- What the file states wins, unless it is the default. Aliases always win. -/
structure Prevails (stated : StatedSettings) (inherited settings : Settings) : Prop where
  baseModule : ∀ module, stated.imports.baseModule = some module →
    settings.imports.baseModule =
      if module = defaultBaseModule then inherited.imports.baseModule else module
  collision : ∀ policy, stated.imports.collision = some policy →
    settings.imports.collision =
      if policy = .suffix then inherited.imports.collision else policy
  logLevel : ∀ level, stated.logLevel = some level →
    settings.logLevel = if level = defaultLogLevel then inherited.logLevel else level
  aliases : ∀ module localName, stated.imports.aliasOf? module = some localName →
    settings.imports.aliases[module]? = some localName

theorem baseModule_merge (stated : StatedSettings) (inherited : Settings) :
    (inherited.merge stated.complete).imports.baseModule =
      (stated.imports.baseModule.filter (· ≠ defaultBaseModule)).getD inherited.imports.baseModule :=
  ite_getD_ne _ _ _

theorem collision_merge (stated : StatedSettings) (inherited : Settings) :
    (inherited.merge stated.complete).imports.collision =
      (stated.imports.collision.filter (· ≠ .suffix)).getD inherited.imports.collision :=
  ite_getD_ne _ _ _

theorem logLevel_merge (stated : StatedSettings) (inherited : Settings) :
    (inherited.merge stated.complete).logLevel =
      (stated.logLevel.filter (· ≠ defaultLogLevel)).getD inherited.logLevel :=
  ite_getD_ne _ _ _

theorem pretty_merge (stated : StatedSettings) (inherited : Settings) :
    (inherited.merge stated.complete).pretty = (inherited.pretty && stated.pretty.getD true) :=
  rfl

theorem getElem?_aliases_merge (stated : StatedSettings) (inherited : Settings) (module : String) :
    (inherited.merge stated.complete).imports.aliases[module]? =
      (stated.imports.aliases.getD ImportSettings.default.aliases)[module]?.or
        inherited.imports.aliases[module]? :=
  ImportSettings.getElem?_aliases_merge inherited.imports stated.imports.complete module

theorem inherits_merge (stated : StatedSettings) (inherited : Settings) :
    stated.Inherits inherited (inherited.merge stated.complete) where
  baseModule h := by rw [baseModule_merge, h, Option.filter_none, Option.getD_none]
  collision h := by rw [collision_merge, h, Option.filter_none, Option.getD_none]
  logLevel h := by rw [logLevel_merge, h, Option.filter_none, Option.getD_none]
  pretty h := by rw [pretty_merge, h, Option.getD_none, Bool.and_true]
  aliases module h := by
    rw [getElem?_aliases_merge]
    rw [StatedImports.aliasOf?] at h
    cases haliases : stated.imports.aliases with
    | none =>
        rw [Option.getD_none, ImportSettings.getElem?_aliases_default]
        split <;> simp_all
    | some aliases =>
        rw [haliases, Option.bind_some] at h
        rw [Option.getD_some, h]
        rfl

theorem prevails_merge (stated : StatedSettings) (inherited : Settings) :
    stated.Prevails inherited (inherited.merge stated.complete) where
  baseModule module h := by
    rw [baseModule_merge, h]
    by_cases hmodule : module = defaultBaseModule <;> simp [Option.filter, hmodule]
  collision policy h := by
    rw [collision_merge, h]
    cases policy <;> rfl
  logLevel level h := by
    rw [logLevel_merge, h]
    by_cases hlevel : level = defaultLogLevel <;> simp [Option.filter, hlevel]
  aliases module localName h := by
    obtain ⟨aliases, haliases, hname⟩ := Option.bind_eq_some_iff.mp h
    rw [getElem?_aliases_merge, haliases, Option.getD_some, hname]
    rfl

end StatedSettings

/-! ## Loading -/

theorem Settings.override_none (settings : Settings) : settings.override .none = settings := rfl

namespace SettingsLoader

variable {loader : SettingsLoader} {files bare : Workspace} {project path text : String}
  {stated : StatedSettings} {found : Option Settings}

/-- The files without the local file of a project, where the global file is the same. -/
structure IsWithoutLocal (loader : SettingsLoader) (project : String) (files bare : Workspace) :
    Prop where
  absent : bare.exists? (localPath project) = false
  exists_global : ∀ path ∈ loader.globalPath?, bare.exists? path = files.exists? path
  read_global : ∀ path ∈ loader.globalPath?, bare.readText path = files.readText path

theorem loadGlobal_eq_ok (hcache : loader.cachedGlobal = none)
    (hpath : loader.globalPath? = some path) (hread : files.readText path = .ok text)
    (hparse : StatedSettings.parse text = some stated) :
    (loader.loadGlobal files).1 = .ok (some stated.complete) := by
  rw [loadGlobal, hcache]
  simp only [hpath, readIfPresent_eq_ok hread hparse]

theorem IsWithoutLocal.loadGlobal_eq (h : loader.IsWithoutLocal project files bare) :
    loader.loadGlobal bare = loader.loadGlobal files := by
  rw [loadGlobal, loadGlobal]
  cases hpath : loader.globalPath? with
  | none => rfl
  | some path =>
      have hread : readIfPresent bare path = readIfPresent files path := by
        unfold readIfPresent readSettings
        rw [h.exists_global path hpath, h.read_global path hpath]
      simp only [hread]

theorem load_eq_ok {foundLocal : Option Settings}
    (hglobal : (loader.loadGlobal files).1 = .ok found)
    (hlocal : loadLocal files project = .ok foundLocal) :
    (loader.load files project .none).1 =
      .ok (mergeOptional (mergeOptional .default found) foundLocal) := by
  rcases hloaded : loader.loadGlobal files with ⟨outcome, after⟩
  rw [hloaded] at hglobal
  obtain rfl : outcome = .ok found := hglobal
  simp only [load, hloaded, hlocal, Settings.override_none]

/-- The local file is merged over what the settings are without it. -/
theorem exists_load (hbare : loader.IsWithoutLocal project files bare)
    (hglobal : (loader.loadGlobal files).1 = .ok found)
    (hread : files.readText (localPath project) = .ok text)
    (hparse : StatedSettings.parse text = some stated) :
    ∃ inherited, (loader.load bare project .none).1 = .ok inherited ∧
      (loader.load files project .none).1 = .ok (inherited.merge stated.complete) := by
  have habsent : loadLocal bare project = .ok none := by
    rw [loadLocal, readIfPresent, hbare.absent]
    rfl
  refine ⟨mergeOptional .default found, load_eq_ok ?_ habsent,
    load_eq_ok hglobal (readIfPresent_eq_ok hread hparse)⟩
  rw [hbare.loadGlobal_eq, hglobal]

/-! ## A home and a project -/

/-- A home with a global file and a project, with a local file if there is a text for it. -/
def homeAndProject (globalText : String) (localText : Option String) : Workspace where
  tree := .directory [
    ("home", .directory [(directoryName, .directory [(fileName, .file globalText.toUTF8)])]),
    ("project", .directory (localText.toList.map fun text =>
      (directoryName, .directory [(fileName, .file text.toUTF8)])))]
  directory := "/"

theorem fromUTF8?_toByteArray (text : String) : String.fromUTF8? text.toByteArray = some text := by
  rw [String.fromUTF8?, dif_pos text.isValidUTF8]
  rfl

def homePath : String := joinPath (joinPath "/home" directoryName) fileName

theorem globalPath?_ofHome : (ofHome "/home").globalPath? = some homePath := rfl

theorem readText_homeAndProject (globalText : String) (localText : Option String) :
    (homeAndProject globalText localText).readText homePath = .ok globalText ∧
      (homeAndProject globalText localText).exists? (localPath "/project") = localText.isSome ∧
      ∀ text ∈ localText,
        (homeAndProject globalText localText).readText (localPath "/project") = .ok text := by
  have hglobal : pathSteps (joinPath "/" homePath) = ["home", directoryName, fileName] := by
    decide +kernel
  have hlocal : pathSteps (joinPath "/" (localPath "/project")) =
      ["project", directoryName, fileName] := by decide +kernel
  cases localText <;>
    simp [homeAndProject, Workspace.readText, Workspace.exists?, Workspace.place,
      FileTree.readText, FileTree.readBytes, FileTree.exists?, FileTree.lookup, FileTree.locate,
      FileTree.locateFrom, FileTree.find, hglobal, hlocal, directoryName, fileName, List.lookup_cons,
      bind, Except.bind, pure, Except.pure, fromUTF8?_toByteArray]

theorem isWithoutLocal_homeAndProject (globalText localText : String) :
    (ofHome "/home").IsWithoutLocal "/project" (homeAndProject globalText (some localText))
      (homeAndProject globalText none) := by
  obtain ⟨hread, -, -⟩ := readText_homeAndProject globalText (some localText)
  obtain ⟨hread', habsent, -⟩ := readText_homeAndProject globalText none
  have hexists := Workspace.exists?_of_readText hread
  have hexists' := Workspace.exists?_of_readText hread'
  refine ⟨habsent, fun path hpath => ?_, fun path hpath => ?_⟩ <;>
    obtain rfl : homePath = path := Option.some.inj hpath
  · rw [hexists, hexists']
  · rw [hread, hread']

/-- The loader finds a global file that states something. -/
theorem loadGlobal_homeAndProject {globalText : String} (localText : Option String)
    (h : StatedSettings.parse globalText = some stated) :
    ((ofHome "/home").loadGlobal (homeAndProject globalText localText)).1 =
      .ok (some stated.complete) :=
  loadGlobal_eq_ok rfl globalPath?_ofHome (readText_homeAndProject globalText localText).1 h

/-! ## What is inherited -/

/-- What the local file does not state has the value that it would have without this file, up
to the alias of the base module. -/
theorem load_inherits (hbare : loader.IsWithoutLocal project files bare)
    (hglobal : (loader.loadGlobal files).1 = .ok found)
    (hread : files.readText (localPath project) = .ok text)
    (hparse : StatedSettings.parse text = some stated) :
    ∃ inherited settings, (loader.load bare project .none).1 = .ok inherited ∧
      (loader.load files project .none).1 = .ok settings ∧ stated.Inherits inherited settings := by
  obtain ⟨inherited, hinherited, hsettings⟩ := exists_load hbare hglobal hread hparse
  exact ⟨inherited, _, hinherited, hsettings, stated.inherits_merge inherited⟩

/-- The global file has an alias of its own for the base module. -/
def aliasingGlobal : String := "[imports.aliases]\nfiddle = \"fl\"\nnumpy = \"np\"\n"

def loggingLocal : String := "[logging]\nlevel = \"warn\"\n"

theorem load_inherits_loggingLocal :
    ∃ stated inherited settings, StatedSettings.parse loggingLocal = some stated ∧
      ((ofHome "/home").load (homeAndProject aliasingGlobal none) "/project" .none).1 =
        .ok inherited ∧
      ((ofHome "/home").load (homeAndProject aliasingGlobal (some loggingLocal)) "/project"
        .none).1 = .ok settings ∧ stated.Inherits inherited settings := by
  obtain ⟨known, hknown⟩ : ∃ known, StatedSettings.parse aliasingGlobal = some known :=
    Option.isSome_iff_exists.mp (by decide +kernel)
  obtain ⟨stated, hstated⟩ : ∃ stated, StatedSettings.parse loggingLocal = some stated :=
    Option.isSome_iff_exists.mp (by decide +kernel)
  obtain ⟨inherited, settings, hinherited, hsettings, hinherits⟩ :=
    load_inherits (isWithoutLocal_homeAndProject aliasingGlobal loggingLocal)
      (loadGlobal_homeAndProject _ hknown) ((readText_homeAndProject _ _).2.2 _ rfl) hstated
  exact ⟨stated, inherited, settings, hstated, hinherited, hsettings, hinherits⟩

/-- The local file has no aliases, and yet the alias of the base module is not inherited. -/
theorem load_loses_inherited_alias :
    ((StatedSettings.parse loggingLocal).map (·.imports.aliasOf? "fiddle")) = some none ∧
      (((ofHome "/home").load (homeAndProject aliasingGlobal none) "/project" .none).1.map
        (·.imports.aliases["fiddle"]?)) = .ok (some "fl") ∧
      (((ofHome "/home").load (homeAndProject aliasingGlobal (some loggingLocal)) "/project"
        .none).1.map (·.imports.aliases["fiddle"]?)) = .ok (some "fdl") := by
  decide +kernel

/-! ## What prevails -/

/-- What the local file states wins over everything that is loaded before it, unless it is the
default of the setting. -/
theorem load_prevails (hbare : loader.IsWithoutLocal project files bare)
    (hglobal : (loader.loadGlobal files).1 = .ok found)
    (hread : files.readText (localPath project) = .ok text)
    (hparse : StatedSettings.parse text = some stated) :
    ∃ inherited settings, (loader.load bare project .none).1 = .ok inherited ∧
      (loader.load files project .none).1 = .ok settings ∧ stated.Prevails inherited settings := by
  obtain ⟨inherited, hinherited, hsettings⟩ := exists_load hbare hglobal hread hparse
  exact ⟨inherited, _, hinherited, hsettings, stated.prevails_merge inherited⟩

/-- The global file has a base module of its own. -/
def basedGlobal : String := "[imports]\nbase_module = \"acme.config\"\n"

def aliasingLocal : String :=
  "[imports]\nbase_module = \"local.config\"\n\n[imports.aliases]\nfiddle = \"fl\"\n"

theorem load_prevails_aliasingLocal :
    ∃ stated inherited settings, StatedSettings.parse aliasingLocal = some stated ∧
      ((ofHome "/home").load (homeAndProject basedGlobal none) "/project" .none).1 =
        .ok inherited ∧
      ((ofHome "/home").load (homeAndProject basedGlobal (some aliasingLocal)) "/project"
        .none).1 = .ok settings ∧ stated.Prevails inherited settings := by
  obtain ⟨known, hknown⟩ : ∃ known, StatedSettings.parse basedGlobal = some known :=
    Option.isSome_iff_exists.mp (by decide +kernel)
  obtain ⟨stated, hstated⟩ : ∃ stated, StatedSettings.parse aliasingLocal = some stated :=
    Option.isSome_iff_exists.mp (by decide +kernel)
  obtain ⟨inherited, settings, hinherited, hsettings, hprevails⟩ :=
    load_prevails (isWithoutLocal_homeAndProject basedGlobal aliasingLocal)
      (loadGlobal_homeAndProject _ hknown) ((readText_homeAndProject _ _).2.2 _ rfl) hstated
  exact ⟨stated, inherited, settings, hstated, hinherited, hsettings, hprevails⟩

def defaultLocal : String := "[imports]\nbase_module = \"fiddle\"\n"

/-- The local file states the default base module, and the one of the global file wins. -/
theorem load_ignores_stated_default :
    (StatedSettings.parse defaultLocal).map (·.imports.baseModule) = some (some "fiddle") ∧
      ((ofHome "/home").load (homeAndProject basedGlobal (some defaultLocal)) "/project"
        .none).1.map (·.imports.baseModule) = .ok "acme.config" := by
  decide +kernel

end SettingsLoader

end ConfigLowering
