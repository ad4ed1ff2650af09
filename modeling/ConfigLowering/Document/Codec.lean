import ConfigLowering.Document
import ConfigLowering.Json.Export
import ConfigLowering.Json.Printing
import ConfigLowering.Json.Reading
import ConfigLowering.Json.Record

/-!
# Graph documents in JSON
-/

namespace ConfigLowering

open Json (pair)

/-! ## Reading symbols and kinds -/

def SymbolKind.ofJson? : Nat → Json → Option SymbolKind :=
  Json.choice? [
    ("function", .function), ("class", .classType), ("enum_member", .enumMember),
    ("object", .object)]

def Symbol.ofJson? (levels : Nat) (json : Json) : Option Symbol := do
  match ← json.record? ["module", "qualname", "kind"] levels with
  | (levels, [some (.string module), some (.string qualname), kind]) =>
      let kind ← match kind with
        | none => some .function
        | some json => SymbolKind.ofJson? levels json
      return ⟨module, qualname, kind⟩
  | _ => none

def BuildableKind.ofJson? : Nat → Json → Option BuildableKind :=
  Json.choice? [
    ("config", .config), ("partial", .partialCall), ("arg_factory", .argFactory)]

/-! ## Reading values -/

namespace DocumentValue

/-- An integer literal as a floating point number. -/
def floatOfInteger (value : Int) : Float :=
  let magnitude := (UInt64.ofNat value.natAbs).toFloat
  if value < 0 then -magnitude else magnitude

/-- A value without values inside. -/
def leaf? (levels : Nat) (variant : String) (payload : Json) : Option DocumentValue :=
  match variant, payload with
  | "none", .null => some .none
  | "bool", .bool value => some (.bool value)
  | "int", .integer value =>
      if Decimal.isInt64 value then some (.int (.ofInt value)) else Option.none
  | "float", .integer value => some (.float (floatOfInteger value))
  | "float", .real value => some (.float value)
  | "str", .string text => some (.str text)
  | "node", .string id => some (.node id)
  | "symbol", payload => (Symbol.ofJson? levels payload).map .symbol
  | _, _ => Option.none

def ofJson? : Nat → Json → Option DocumentValue
  | _, .string "none" => some .none
  | levels + 1, .object [(variant, payload)] =>
      match variant, payload, levels with
      | "list", .array items, levels + 1 => (items.mapM (ofJson? levels)).map .list
      | "tuple", .array items, levels + 1 => (items.mapM (ofJson? levels)).map .tuple
      | "dict", .array [], _ + 1 => some (.dict [])
      | "dict", .array items, levels + 2 =>
          (items.mapM (Json.pair? (ofJson? levels))).map .dict
      | _, _, _ => leaf? levels variant payload
  | _, _ => Option.none

end DocumentValue

/-! ## Reading documents -/

/-- The levels of containers that a document may nest. -/
def documentLevels : Nat := 127

def ArgumentEntry.ofJson? (levels : Nat) (json : Json) : Option ArgumentEntry := do
  match ← json.record? ["name", "value", "tags"] levels with
  | (levels, [some (.string name), value, tags]) =>
      let value ← match value with
        | none | some .null => some none
        | some json => (DocumentValue.ofJson? levels json).map some
      return { name, value, tags := ← Json.listField levels Symbol.ofJson? tags }
  | _ => none

def NodeEntry.ofJson? (levels : Nat) (json : Json) : Option NodeEntry := do
  match ← json.record? ["id", "kind", "callable", "arguments"] levels with
  | (levels, [some (.string id), kind, some callable, arguments]) =>
      let kind ← match kind with
        | none => some .config
        | some json => BuildableKind.ofJson? levels json
      return {
        id, kind
        callable := ← Symbol.ofJson? levels callable
        arguments := ← Json.listField levels ArgumentEntry.ofJson? arguments }
  | _ => none

def VariableEntry.ofJson? (levels : Nat) (json : Json) : Option VariableEntry := do
  match ← json.record? ["name", "value"] levels with
  | (levels, [some (.string name), some value]) =>
      return { name, value := ← DocumentValue.ofJson? levels value }
  | _ => none

namespace FixtureEntry

def fieldNames : List String := ["name", "parameters", "variables", "output", "children"]

/-- Reads a fixture, whose children are read as the caller says. -/
def ofFields? (levels : Nat) (readChildren : Option Json → Option (List FixtureEntry))
    (json : Json) : Option FixtureEntry := do
  match ← json.fieldValues fieldNames with
  | [some (.string name), parameters, declarations, some output, children] =>
      let parameters ← Json.listField levels Json.text? parameters
      let declarations ← Json.listField levels VariableEntry.ofJson? declarations
      let output ← DocumentValue.ofJson? levels output
      return .entry name parameters declarations output (← readChildren children)
  | _ => none

def ofJson? : Nat → Json → Option FixtureEntry
  | 0, _ => none
  | 1, json => ofFields? 0 (Json.listField 0 fun _ _ => none) json
  | levels + 2, json =>
      ofFields? (levels + 1) (Json.listField (levels + 1) fun _ => ofJson? levels) json

end FixtureEntry

namespace GraphDocument

def ofJson? (levels : Nat) (json : Json) : Option GraphDocument := do
  match ← json.record? ["nodes", "fixture"] levels with
  | (levels, [nodes, some fixture]) =>
      return {
        nodes := ← Json.listField levels NodeEntry.ofJson? nodes
        fixture := ← FixtureEntry.ofJson? levels fixture }
  | _ => none

/-- Reads the text of a document. -/
def parse (text : String) : Option GraphDocument := do
  ofJson? documentLevels (← Json.parse text)

end GraphDocument

/-! ## Writing documents -/

def BuildableKind.name : BuildableKind → String
  | config => "config"
  | partialCall => "partial"
  | argFactory => "arg_factory"

namespace DocumentValue

mutual

def toJson : DocumentValue → Json
  | none => .string "none"
  | bool value => .object [("bool", .bool value)]
  | int value => .object [("int", .integer value.toInt)]
  | float value => .object [("float", .ofFloat value)]
  | str text => .object [("str", .string text)]
  | list items => .object [("list", .array (itemsToJson items))]
  | tuple items => .object [("tuple", .array (itemsToJson items))]
  | dict entries => .object [("dict", .array (entriesToJson entries))]
  | node id => .object [("node", .string id)]
  | symbol entity => .object [("symbol", entity.toJson)]

def itemsToJson : List DocumentValue → List Json
  | [] => []
  | item :: items => item.toJson :: itemsToJson items

def entriesToJson : List (String × DocumentValue) → List Json
  | [] => []
  | (name, item) :: entries => pair (.string name) item.toJson :: entriesToJson entries

end

end DocumentValue

/-- A missing value and an empty list of tags are left out. -/
def ArgumentEntry.toJson (argument : ArgumentEntry) : Json :=
  .object (
    [("name", Json.string argument.name)] ++
    (argument.value.map fun value => ("value", value.toJson)).toList ++
    (if argument.tags.isEmpty then []
      else [("tags", .ofList Symbol.toJson argument.tags)]))

def NodeEntry.toJson (node : NodeEntry) : Json :=
  .object [
    ("id", .string node.id),
    ("kind", .string node.kind.name),
    ("callable", node.callable.toJson),
    ("arguments", .ofList ArgumentEntry.toJson node.arguments)]

def VariableEntry.toJson (declaration : VariableEntry) : Json :=
  .object [("name", .string declaration.name), ("value", declaration.value.toJson)]

namespace FixtureEntry

mutual

def toJson : FixtureEntry → Json
  | entry name parameters declarations output children =>
      .object [
        ("name", .string name),
        ("parameters", .ofList .string parameters),
        ("variables", .ofList VariableEntry.toJson declarations),
        ("output", output.toJson),
        ("children", .array (childrenToJson children))]

def childrenToJson : List FixtureEntry → List Json
  | [] => []
  | child :: children => child.toJson :: childrenToJson children

end

end FixtureEntry

def GraphDocument.toJson (document : GraphDocument) : Json :=
  .object [
    ("nodes", .ofList NodeEntry.toJson document.nodes),
    ("fixture", document.fixture.toJson)]

end ConfigLowering
