import ConfigLowering.Fixture
import ConfigLowering.Imports
import ConfigLowering.Json

/-!
# JSON form of generated code

Records are objects with their fields in order. A variant is its name alone or
an object with the name as only key. Argument lists, dictionaries and comments
are lists of pairs. An object that stands at several places is written at each.
-/

namespace ConfigLowering

open Json (pair)

def Symbol.toJson (symbol : Symbol) : Json :=
  .object [
    ("module", .string symbol.module),
    ("qualname", .string symbol.qualname),
    ("kind", .string symbol.kind.name)]

/-- A floating point number; only finite ones have a number. -/
def Json.ofFloat (number : Float) : Json :=
  if number.isFinite then .real number else .null

def historyJson (history : History) : List (String × Json) :=
  if history.isEmpty then []
  else
    [("history_comments", .object [
      ("per_argument", .ofList (fun (argument, comment) =>
        pair (.string argument) (.string comment)) history)])]

namespace Value

mutual

def toJson : Value → Json
  | none => .string "none"
  | bool value => .object [("bool", .bool value)]
  | int value => .object [("int", .integer value.toInt)]
  | float value => .object [("float", .ofFloat value)]
  | str text => .object [("str", .string text)]
  | list items => .object [("list", .array (itemsToJson items))]
  | tuple items => .object [("tuple", .array (itemsToJson items))]
  | dict entries => .object [("dict", .array (entriesToJson entries))]
  | node id => .object [("node", .integer id.index)]
  | symbol entity => .object [("symbol", entity.toJson)]
  | reference entity =>
      .object [("ir", .object [("symbol_reference", entity.toJson)])]
  | call _ callee positional named history =>
      .object [("ir", .object [("call", .object ([
        ("symbol_expression", .string callee),
        ("positional_arg_expressions", .array (itemsToJson positional)),
        ("arg_expressions", .array (entriesToJson named))] ++ historyJson history))])]
  | tagged _ tagNames item =>
      .object [("ir", .object [("with_tags", .object [
        ("tag_symbol_expressions", .ofList .string tagNames),
        ("item_to_tag", item.toJson)])])]

def itemsToJson : List Value → List Json
  | [] => []
  | item :: items => item.toJson :: itemsToJson items

def entriesToJson : List (String × Value) → List Json
  | [] => []
  | (name, item) :: entries => pair (.string name) item.toJson :: entriesToJson entries

end

end Value

def Variable.toJson (declaration : Variable) : Json :=
  .object [
    ("name", .string declaration.name),
    ("expression", declaration.expression.toJson)]

def Fixture.toJson (fixture : Fixture) : Json :=
  .object [
    ("name", .string fixture.name),
    ("parameters", .ofList .string fixture.parameters),
    ("variables", .ofList Variable.toJson fixture.declarations),
    ("output_value", fixture.output.toJson)]

def Import.toJson (entry : Import) : Json :=
  .object [("module", .string entry.module), ("alias", .string entry.localName)]

end ConfigLowering
