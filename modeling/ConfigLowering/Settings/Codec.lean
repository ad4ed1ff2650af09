import ConfigLowering.Json.Record
import ConfigLowering.Settings

/-!
# Settings in JSON

A setting that is not written has its default.
-/

namespace ConfigLowering

/-! ## Reading -/

def CollisionPolicy.ofJson? : Nat → Json → Option CollisionPolicy :=
  Json.choice? [("suffix", .suffix), ("qualify", .qualify)]

def aliasesOfJson? : Json → Option AliasMap
  | .object fields => do
      let entries ← fields.mapM fun (module, value) => value.string?.map (module, ·)
      return .ofList entries
  | _ => none

namespace ImportSettings

def fieldNames : List String := ["base_module", "aliases", "collision", "reserved_names"]

def ofJson? (levels : Nat) (json : Json) : Option ImportSettings := do
  match ← json.record? fieldNames levels with
  | (levels, [baseModule, aliases, collision, reservedNames]) =>
      return {
        baseModule := ← settingOr default.baseModule Json.string? baseModule
        aliases := ← settingOr default.aliases aliasesOfJson? aliases
        collision := ← settingOr default.collision (CollisionPolicy.ofJson? levels) collision
        reservedNames := ← Json.listField levels Json.text? reservedNames }
  | _ => none

end ImportSettings

namespace Settings

def prettyOfJson? (levels : Nat) (json : Json) : Option Bool := do
  match ← json.record? ["pretty"] levels with
  | (_, [pretty]) => settingOr default.pretty Json.bool? pretty
  | _ => none

def logLevelOfJson? (levels : Nat) (json : Json) : Option String := do
  match ← json.record? ["level"] levels with
  | (_, [level]) => settingOr default.logLevel Json.string? level
  | _ => none

def ofJson? (levels : Nat) (json : Json) : Option Settings := do
  match ← json.record? ["imports", "output", "logging"] levels with
  | (levels, [imports, output, logging]) =>
      return {
        imports := ← settingOr default.imports (ImportSettings.ofJson? levels) imports
        pretty := ← settingOr default.pretty (prettyOfJson? levels) output
        logLevel := ← settingOr default.logLevel (logLevelOfJson? levels) logging }
  | _ => none

end Settings

/-! ## Writing -/

def aliasesToJson (aliases : AliasMap) : Json :=
  .object (aliases.toList.map fun (module, localName) => (module, .string localName))

def ImportSettings.toJson (settings : ImportSettings) : Json :=
  .object [
    ("base_module", .string settings.baseModule),
    ("aliases", aliasesToJson settings.aliases),
    ("collision", .string settings.collision.name),
    ("reserved_names", .ofList .string settings.reservedNames)]

def Settings.toJson (settings : Settings) : Json :=
  .object [
    ("imports", settings.imports.toJson),
    ("output", .object [("pretty", .bool settings.pretty)]),
    ("logging", .object [("level", .string settings.logLevel)])]

end ConfigLowering
