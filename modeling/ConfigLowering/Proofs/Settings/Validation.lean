import ConfigLowering.Buildable
import ConfigLowering.Proofs.Imports.Registering
import ConfigLowering.Proofs.Outcome
import ConfigLowering.Settings

/-!
# Valid settings

Settings have their own tests of paths and aliases, which agree with those of the imports. So
validation passes exactly when all paths are dotted paths, all aliases identifiers, and the log
level known. An import manager keeps the aliases of valid settings, and takes their base module
at any time.
-/

namespace ConfigLowering

theorem isPlainName_eq_isIdentifier (name : String) : isPlainName name = isIdentifier name := rfl

/-- The empty path is no dotted path either, for its one segment is empty. -/
theorem isModulePath_eq_isDottedPath (path : String) : isModulePath path = isDottedPath path := by
  have hnames : (segments path).all isPlainName = isDottedPath path := rfl
  rw [isModulePath, hnames]
  by_cases hempty : path = ""
  · rw [hempty]
    decide
  · simp [hempty]

/-- Tasks are made with the import settings as they stand. -/
@[simp] theorem Settings.forTasks_eq_imports (settings : Settings) :
    settings.forTasks = settings.imports := rfl

theorem validateAlias_eq_ok_iff (entry : String × String) :
    validateAlias entry = .ok () ↔ isDottedPath entry.1 ∧ isIdentifier entry.2 := by
  rw [validateAlias, guard_eq_ok_iff, unless_eq_ok_iff, isModulePath_eq_isDottedPath,
    isPlainName_eq_isIdentifier]

namespace ImportSettings

structure Valid (settings : ImportSettings) : Prop where
  baseModule : isDottedPath settings.baseModule
  aliases : ∀ module localName, settings.aliases[module]? = some localName →
    isDottedPath module ∧ isIdentifier localName

theorem validate_eq_ok_iff (settings : ImportSettings) :
    settings.validate = .ok () ↔ settings.Valid := by
  rw [validate, guard_eq_ok_iff, forM_eq_ok_iff, isModulePath_eq_isDottedPath]
  simp only [validateAlias_eq_ok_iff, Prod.forall, Std.ExtTreeMap.mem_toList_iff_getElem?_eq_some]
  exact ⟨fun ⟨hbase, haliases⟩ => ⟨hbase, haliases⟩, fun h => ⟨h.baseModule, h.aliases⟩⟩

end ImportSettings

theorem Settings.validate_eq_ok_iff (settings : Settings) :
    settings.validate = .ok () ↔
      settings.imports.Valid ∧ logLevels.contains settings.logLevel.toLower := by
  rw [validate, bind_eq_ok_iff, unless_eq_ok_iff, ← ImportSettings.validate_eq_ok_iff]
  exact ⟨fun ⟨_, himports, hlevel⟩ => ⟨himports, hlevel⟩,
    fun ⟨himports, hlevel⟩ => ⟨(), himports, hlevel⟩⟩

/-! ## Import managers of valid settings -/

namespace ImportSettings.Valid

open ImportManager (Reachable ofSettings)

variable {settings : ImportSettings} {manager : ImportManager}

/-- All aliases of the settings are identifiers, so none is dropped. -/
theorem aliases_ofSettings (h : settings.Valid) : (ofSettings settings).aliases = settings.aliases := by
  apply Std.ExtTreeMap.ext_getElem?
  intro module
  rw [ofSettings, Std.ExtTreeMap.getElem?_filter']
  cases halias : settings.aliases[module]? with
  | none => rfl
  | some localName => simp [(h.aliases module localName halias).2]

theorem isImportable_wrapper_iff (h : settings.Valid) (kind : BuildableKind) :
    (kind.wrapper settings.baseModule).isImportable ↔
      settings.baseModule ≠ Symbol.scriptModule := by
  have hname : isDottedPath kind.wrapperName := by cases kind <;> decide
  simp [BuildableKind.wrapper, Symbol.classType, Symbol.isImportable, h.baseModule, hname]

theorem exists_addModule (h : settings.Valid) (manager : ImportManager) :
    ∃ localName after, manager.addModule settings.baseModule = (.ok localName, after) := by
  rw [ImportManager.addModule, if_pos h.baseModule]
  exact ⟨_, _, rfl⟩

end ImportSettings.Valid

end ConfigLowering
