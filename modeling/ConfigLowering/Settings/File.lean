import ConfigLowering.Settings
import ConfigLowering.Toml.Reading
import ConfigLowering.Toml.Writing

/-!
# Settings files

A settings file is TOML. Keys that name no setting are passed over, a setting
that is not written has its default, and a table of settings may also be
written as an array of them in a fixed order.
-/

namespace ConfigLowering

/-! ## Reading -/

namespace Toml

/-- The key under which a date or time shows its text as a table. -/
def datetimeKey : String := "$__toml_private_datetime"

/-- The values of some fields, as far as they are written. -/
def fieldValues? (names : List String) : Toml → Option (List (Option Toml))
  | table _ entries => some (names.map fun name => entries.lookup name)
  | array items => some (names.mapIdx fun position _ => items[position]?)
  | tables elements =>
      some (names.mapIdx fun position _ => elements[position]?.map (table .header))
  | datetime _ => some (names.map fun _ => none)
  | _ => none

def text? : Toml → Option String
  | string text => some text
  | _ => none

def boolean? : Toml → Option Bool
  | boolean value => some value
  | _ => none

def textList? : Toml → Option (List String)
  | array items => items.mapM text?
  | tables [] => some []
  | _ => none

def textMap? : Toml → Option (List (String × String))
  | table _ entries => entries.mapM fun (key, value) => (text? value).map (key, ·)
  | datetime text => some [(datetimeKey, text)]
  | _ => none

/-- Whether a value has no contents, as a variant without contents must. -/
def isEmpty : Toml → Bool
  | table _ entries => entries.isEmpty
  | array items => items.isEmpty
  | tables elements => elements.isEmpty
  | _ => false

def variantName? : Toml → Option String
  | string name => some name
  | table _ [(name, contents)] => if isEmpty contents then some name else none
  | _ => none

end Toml

def CollisionPolicy.ofToml? (toml : Toml) : Option CollisionPolicy :=
  match toml.variantName? with
  | some "suffix" => some .suffix
  | some "qualify" => some .qualify
  | _ => none

def aliasesOfToml? (toml : Toml) : Option AliasMap := do
  return .ofList (← toml.textMap?)

def ImportSettings.ofToml? (toml : Toml) : Option ImportSettings := do
  match ← toml.fieldValues? ["base_module", "aliases", "collision", "reserved_names"] with
  | [baseModule, aliases, collision, reservedNames] =>
      return {
        baseModule := ← settingOr default.baseModule Toml.text? baseModule
        aliases := ← settingOr default.aliases aliasesOfToml? aliases
        collision := ← settingOr default.collision CollisionPolicy.ofToml? collision
        reservedNames := ← settingOr default.reservedNames Toml.textList? reservedNames }
  | _ => none

namespace Settings

def prettyOfToml? (toml : Toml) : Option Bool := do
  match ← toml.fieldValues? ["pretty"] with
  | [pretty] => settingOr default.pretty Toml.boolean? pretty
  | _ => none

def logLevelOfToml? (toml : Toml) : Option String := do
  match ← toml.fieldValues? ["level"] with
  | [level] => settingOr default.logLevel Toml.text? level
  | _ => none

def ofToml? (toml : Toml) : Option Settings := do
  match ← toml.fieldValues? ["imports", "output", "logging"] with
  | [imports, output, logging] =>
      return {
        imports := ← settingOr default.imports ImportSettings.ofToml? imports
        pretty := ← settingOr default.pretty prettyOfToml? output
        logLevel := ← settingOr default.logLevel logLevelOfToml? logging }
  | _ => none

/-- The settings in the text of a file. -/
def parse (text : String) : Option Settings := do
  ofToml? (.table .header (← Toml.parse text))

/-! ## Writing -/

/-- The text of a file with the settings. -/
def render (settings : Settings) : String :=
  let imports := Toml.tableText "imports" [
    ("base_module", Toml.stringText settings.imports.baseModule),
    ("collision", Toml.stringText settings.imports.collision.name),
    ("reserved_names", Toml.listText settings.imports.reservedNames)]
  let aliases := Toml.tableText "imports.aliases"
    (settings.imports.aliases.toList.map fun (module, localName) =>
      (module, Toml.stringText localName))
  let output := Toml.tableText "output" [("pretty", Toml.booleanText settings.pretty)]
  let logging := Toml.tableText "logging" [("level", Toml.stringText settings.logLevel)]
  "\n".intercalate [imports, aliases, output, logging]

end Settings

end ConfigLowering
