import Mathlib.Data.Option.Basic
import ConfigLowering.Settings.File

/-!
# Stated settings

What a settings file states, before the defaults take the places of what it leaves out. To read
settings is to read what is stated and to complete it.
-/

namespace ConfigLowering

/-! ## Partial settings -/

structure StatedImports where
  baseModule : Option String
  aliases : Option AliasMap
  collision : Option CollisionPolicy
  reservedNames : Option (List String)

structure StatedSettings where
  imports : StatedImports
  pretty : Option Bool
  logLevel : Option String

namespace StatedImports

def nothing : StatedImports := ⟨none, none, none, none⟩

def aliasOf? (stated : StatedImports) (module : String) : Option String :=
  stated.aliases.bind fun aliases => aliases[module]?

def complete (stated : StatedImports) : ImportSettings where
  baseModule := stated.baseModule.getD ImportSettings.default.baseModule
  aliases := stated.aliases.getD ImportSettings.default.aliases
  collision := stated.collision.getD ImportSettings.default.collision
  reservedNames := stated.reservedNames.getD ImportSettings.default.reservedNames

end StatedImports

def StatedSettings.complete (stated : StatedSettings) : Settings where
  imports := stated.imports.complete
  pretty := stated.pretty.getD Settings.default.pretty
  logLevel := stated.logLevel.getD Settings.default.logLevel

/-! ## Reading -/

/-- The value of a setting if it is written. -/
def stated? {Written α : Type} (decode : Written → Option α) : Option Written → Option (Option α) :=
  settingOr none fun written => (decode written).map some

def Toml.statedField? {α : Type} (name : String) (decode : Toml → Option α) (toml : Toml) :
    Option (Option α) := do
  match ← toml.fieldValues? [name] with
  | [written] => stated? decode written
  | _ => none

def StatedImports.ofToml? (toml : Toml) : Option StatedImports := do
  match ← toml.fieldValues? ["base_module", "aliases", "collision", "reserved_names"] with
  | [baseModule, aliases, collision, reservedNames] =>
      return {
        baseModule := ← stated? Toml.text? baseModule
        aliases := ← stated? aliasesOfToml? aliases
        collision := ← stated? CollisionPolicy.ofToml? collision
        reservedNames := ← stated? Toml.textList? reservedNames }
  | _ => none

namespace StatedSettings

def ofToml? (toml : Toml) : Option StatedSettings := do
  match ← toml.fieldValues? ["imports", "output", "logging"] with
  | [imports, output, logging] =>
      return {
        imports := ← settingOr .nothing StatedImports.ofToml? imports
        pretty := ← settingOr none (Toml.statedField? "pretty" Toml.boolean?) output
        logLevel := ← settingOr none (Toml.statedField? "level" Toml.text?) logging }
  | _ => none

def parse (text : String) : Option StatedSettings := do
  ofToml? (.table .header (← Toml.parse text))

end StatedSettings

/-! ## Completing what is stated -/

theorem settingOr_map {Written α β : Type} (complete : α → β) (default : α)
    (decode : Written → Option α) (written : Option Written) :
    settingOr (complete default) (fun written => (decode written).map complete) written =
      (settingOr default decode written).map complete := by
  cases written <;> rfl

theorem settingOr_eq {Written α : Type} (default : α) (decode : Written → Option α)
    (written : Option Written) :
    settingOr default decode written = (stated? decode written).map (·.getD default) := by
  rw [stated?, ← settingOr_map]
  simp

theorem Toml.field_eq {α : Type} (name : String) (default : α) (decode : Toml → Option α)
    (toml : Toml) :
    ((toml.fieldValues? [name]).bind fun
      | [written] => settingOr default decode written
      | _ => none) = (toml.statedField? name decode).map (·.getD default) := by
  rw [statedField?]
  cases toml.fieldValues? [name] with
  | none => rfl
  | some values =>
      simp only [settingOr_eq, Option.bind_eq_bind, Option.bind_some]
      obtain _ | ⟨_, _ | _⟩ := values <;> rfl

theorem ImportSettings.ofToml?_eq (toml : Toml) :
    ImportSettings.ofToml? toml = (StatedImports.ofToml? toml).map StatedImports.complete := by
  rw [ImportSettings.ofToml?, StatedImports.ofToml?]
  cases toml.fieldValues? ["base_module", "aliases", "collision", "reserved_names"] with
  | none => rfl
  | some values =>
      simp only [settingOr_eq, Option.bind_eq_bind, Option.bind_some]
      obtain _ | ⟨_, _ | ⟨_, _ | ⟨_, _ | ⟨_, _ | _⟩⟩⟩⟩ := values
      case cons.cons.cons.cons.nil =>
        simp [Option.map_bind, Option.bind_map, Function.comp_def, StatedImports.complete]
      all_goals rfl

namespace Settings

theorem prettyOfToml?_eq (toml : Toml) :
    prettyOfToml? toml = (toml.statedField? "pretty" Toml.boolean?).map (·.getD default.pretty) :=
  Toml.field_eq "pretty" default.pretty Toml.boolean? toml

theorem logLevelOfToml?_eq (toml : Toml) :
    logLevelOfToml? toml = (toml.statedField? "level" Toml.text?).map (·.getD default.logLevel) :=
  Toml.field_eq "level" default.logLevel Toml.text? toml

theorem ofToml?_eq (toml : Toml) :
    Settings.ofToml? toml = (StatedSettings.ofToml? toml).map StatedSettings.complete := by
  -- A section that is left out states nothing.
  have himports : ∀ written, settingOr default.imports ImportSettings.ofToml? written =
      (settingOr .nothing StatedImports.ofToml? written).map StatedImports.complete := by
    rw [funext ImportSettings.ofToml?_eq]
    exact settingOr_map StatedImports.complete .nothing StatedImports.ofToml?
  have hpretty : ∀ written, settingOr default.pretty prettyOfToml? written =
      (settingOr none (Toml.statedField? "pretty" Toml.boolean?) written).map
        (·.getD default.pretty) := by
    rw [funext prettyOfToml?_eq]
    exact settingOr_map (·.getD default.pretty) none _
  have hlogLevel : ∀ written, settingOr default.logLevel logLevelOfToml? written =
      (settingOr none (Toml.statedField? "level" Toml.text?) written).map
        (·.getD default.logLevel) := by
    rw [funext logLevelOfToml?_eq]
    exact settingOr_map (·.getD default.logLevel) none _
  rw [Settings.ofToml?, StatedSettings.ofToml?]
  cases toml.fieldValues? ["imports", "output", "logging"] with
  | none => rfl
  | some values =>
      simp only [himports, hpretty, hlogLevel, Option.bind_eq_bind, Option.bind_some]
      obtain _ | ⟨_, _ | ⟨_, _ | ⟨_, _ | _⟩⟩⟩ := values
      case cons.cons.cons.nil =>
        simp [Option.map_bind, Option.bind_map, Function.comp_def, StatedSettings.complete]
      all_goals rfl

theorem parse_eq (text : String) :
    Settings.parse text = (StatedSettings.parse text).map StatedSettings.complete := by
  rw [Settings.parse, StatedSettings.parse]
  cases Toml.parse text with
  | none => rfl
  | some entries => exact ofToml?_eq (.table .header entries)

end Settings

end ConfigLowering
