import ConfigLowering.Document.Codec

/-!
# Records field by field

The reader of a record takes what the tree holds for each field and reads the fields one by one.
A field is required, has a default, or is a list that is empty by default.
-/

namespace ConfigLowering

/-! ## Fields -/

namespace Json

variable {α : Type}

def required (decode : Json → Option α) (field : Option Json) : Option α := field.bind decode

def defaulted (default : α) (decode : Json → Option α) : Option Json → Option α
  | none => some default
  | some json => decode json

/-- A field whose value may be missing or null. -/
def nullable (decode : Json → Option α) : Option Json → Option (Option α)
  | none | some null => some none
  | some json => (decode json).map some

theorem nullable_some (decode : Json → Option α) (json : Json) :
    nullable decode (some json) =
      if json.isNull then some none else (decode json).map some := by
  cases json <;> rfl

end Json

open Json (required defaulted nullable listField string?)

/-! ## Records of a document -/

def Symbol.ofFields? (levels : Nat) (module qualname kind : Option Json) : Option Symbol := do
  return {
    module := ← required string? module
    qualname := ← required string? qualname
    kind := ← defaulted .function (SymbolKind.ofJson? levels) kind }

def ArgumentEntry.ofFields? (levels : Nat) (name value tags : Option Json) :
    Option ArgumentEntry := do
  return {
    name := ← required string? name
    value := ← nullable (DocumentValue.ofJson? levels) value
    tags := ← listField levels Symbol.ofJson? tags }

def NodeEntry.ofFields? (levels : Nat) (id kind callable arguments : Option Json) :
    Option NodeEntry := do
  return {
    id := ← required string? id
    kind := ← defaulted .config (BuildableKind.ofJson? levels) kind
    callable := ← required (Symbol.ofJson? levels) callable
    arguments := ← listField levels ArgumentEntry.ofJson? arguments }

def VariableEntry.ofFields? (levels : Nat) (name value : Option Json) :
    Option VariableEntry := do
  return {
    name := ← required string? name
    value := ← required (DocumentValue.ofJson? levels) value }

def FixtureEntry.ofParts? (levels : Nat) (readChildren : Option Json → Option (List FixtureEntry))
    (name parameters declarations output children : Option Json) : Option FixtureEntry := do
  return .entry (← required string? name) (← listField levels Json.text? parameters)
    (← listField levels VariableEntry.ofJson? declarations)
    (← required (DocumentValue.ofJson? levels) output) (← readChildren children)

def GraphDocument.ofFields? (levels : Nat) (nodes fixture : Option Json) :
    Option GraphDocument := do
  return {
    nodes := ← listField levels NodeEntry.ofJson? nodes
    fixture := ← required (FixtureEntry.ofJson? levels) fixture }

/-! ## Reading records -/

variable {below levels : Nat} {json : Json}

theorem Symbol.ofJson?_of_record {module qualname kind : Option Json}
    (h : json.record? ["module", "qualname", "kind"] levels =
      some (below, [module, qualname, kind])) :
    Symbol.ofJson? levels json = ofFields? below module qualname kind := by
  rw [Symbol.ofJson?, h]
  cases module with
  | none => rfl
  | some module =>
      cases module with
      | string module =>
          cases qualname with
          | none => rfl
          | some qualname =>
              cases qualname with
              | string qualname => cases kind <;> rfl
              | _ => rfl
      | _ => rfl

theorem ArgumentEntry.ofJson?_of_record {name value tags : Option Json}
    (h : json.record? ["name", "value", "tags"] levels = some (below, [name, value, tags])) :
    ArgumentEntry.ofJson? levels json = ofFields? below name value tags := by
  rw [ArgumentEntry.ofJson?, h]
  cases name with
  | none => rfl
  | some name =>
      cases name with
      | string name =>
          cases value with
          | none => rfl
          | some value => cases value <;> rfl
      | _ => rfl

theorem NodeEntry.ofJson?_of_record {id kind callable arguments : Option Json}
    (h : json.record? ["id", "kind", "callable", "arguments"] levels =
      some (below, [id, kind, callable, arguments])) :
    NodeEntry.ofJson? levels json = ofFields? below id kind callable arguments := by
  rw [NodeEntry.ofJson?, h]
  cases id with
  | none => rfl
  | some id =>
      cases id with
      | string id =>
          cases callable with
          | none => cases kind <;> simp [ofFields?, required]
          | some callable => cases kind <;> rfl
      | _ => rfl

theorem VariableEntry.ofJson?_of_record {name value : Option Json}
    (h : json.record? ["name", "value"] levels = some (below, [name, value])) :
    VariableEntry.ofJson? levels json = ofFields? below name value := by
  rw [VariableEntry.ofJson?, h]
  cases name with
  | none => rfl
  | some name =>
      cases name with
      | string name => cases value <;> rfl
      | _ => rfl

theorem GraphDocument.ofJson?_of_record {nodes fixture : Option Json}
    (h : json.record? ["nodes", "fixture"] levels = some (below, [nodes, fixture])) :
    GraphDocument.ofJson? levels json = ofFields? below nodes fixture := by
  rw [GraphDocument.ofJson?, h]
  cases fixture with
  | none => simp [ofFields?, required]
  | some fixture => rfl

namespace FixtureEntry

theorem ofFields?_of_fieldValues {readChildren : Option Json → Option (List FixtureEntry)}
    {name parameters declarations output children : Option Json}
    (h : json.fieldValues fieldNames = some [name, parameters, declarations, output, children]) :
    ofFields? below readChildren json =
      ofParts? below readChildren name parameters declarations output children := by
  rw [ofFields?, h]
  cases name with
  | none => rfl
  | some name =>
      cases name with
      | string name =>
          cases output with
          | none => simp [ofParts?, required]
          | some output => rfl
      | _ => rfl

/-- The children of a fixture are read like every other list of a record. -/
theorem ofJson?_succ (below : Nat) (json : Json) :
    ofJson? (below + 1) json = ofFields? below (listField below ofJson?) json := by
  cases below with
  | zero => rfl
  | succ below =>
      rw [ofJson?]
      congr 1
      funext field
      cases field with
      | none => rfl
      | some json => cases json <;> rfl

end FixtureEntry

end ConfigLowering
