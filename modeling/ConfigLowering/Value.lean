import ConfigLowering.Symbol

/-!
# Values

One tree holds both sides of the lowering: configuration values (literals,
containers, references to config nodes, symbols) and generated code (symbol
references, calls, tagged items).

Calls and tagged items are objects: each has an identity besides its contents,
so that one object can stand at several places of a body.
-/

namespace ConfigLowering

/-- Position of a config node in its graph. -/
structure NodeId where
  index : Nat
  deriving DecidableEq, Repr

/-- Identity of a call or tagged item. -/
structure CodeId where
  index : Nat
  deriving DecidableEq, Repr

/-- Comments on the arguments of a generated call. -/
abbrev History := List (String × String)

inductive Value where
  | none
  | bool (value : Bool)
  | int (value : Int64)
  | float (value : Float)
  | str (text : String)
  | list (items : List Value)
  | tuple (items : List Value)
  | dict (entries : List (String × Value))
  | node (id : NodeId)
  | symbol (symbol : Symbol)
  | reference (symbol : Symbol)
  | call (id : CodeId) (callee : String) (positional : List Value)
      (named : List (String × Value)) (history : History)
  | tagged (id : CodeId) (tagNames : List String) (item : Value)

instance : Inhabited Value := ⟨.none⟩

namespace Value

/-! ## Kinds of values -/

def typeName : Value → String
  | none => "none"
  | bool _ => "bool"
  | int _ => "int"
  | float _ => "float"
  | str _ => "str"
  | list _ => "list"
  | tuple _ => "tuple"
  | dict _ => "dict"
  | node _ => "node"
  | symbol _ => "symbol"
  | reference _ => "symbol_reference"
  | call .. => "call"
  | tagged .. => "with_tags"

def isLiteral : Value → Bool
  | none | bool _ | int _ | float _ | str _ => true
  | _ => false

def isContainer : Value → Bool
  | list _ | tuple _ | dict _ => true
  | _ => false

def isCode : Value → Bool
  | reference _ | call .. | tagged .. => true
  | _ => false

def asNode? : Value → Option NodeId
  | node id => some id
  | _ => Option.none

/-- Children of generated code, positional arguments before named ones. -/
def codeChildren : Value → List Value
  | call _ _ positional named _ => positional ++ named.map Prod.snd
  | tagged _ _ item => [item]
  | _ => []

/-! ## References to config nodes -/

mutual

/-- The config nodes that a value refers to, with repetitions, in the order of
the value. Nodes are not followed. -/
def nodeReferences : Value → List NodeId
  | node id => [id]
  | list items | tuple items => nodeReferencesOfItems items
  | dict entries => nodeReferencesOfEntries entries
  | call _ _ positional named _ =>
      nodeReferencesOfItems positional ++ nodeReferencesOfEntries named
  | tagged _ _ item => item.nodeReferences
  | none | bool _ | int _ | float _ | str _ | symbol _ | reference _ => []

def nodeReferencesOfItems : List Value → List NodeId
  | [] => []
  | item :: items => item.nodeReferences ++ nodeReferencesOfItems items

def nodeReferencesOfEntries : List (String × Value) → List NodeId
  | [] => []
  | (_, item) :: entries => item.nodeReferences ++ nodeReferencesOfEntries entries

end

/-! ## Structural equality -/

mutual

/-- Equality of contents: identities of calls and tagged items do not count,
and numbers compare as floating point numbers do. -/
def equals : Value → Value → Bool
  | none, none => true
  | bool first, bool second => first == second
  | int first, int second => first == second
  | float first, float second => first == second
  | str first, str second => first == second
  | list first, list second => equalItems first second
  | tuple first, tuple second => equalItems first second
  | dict first, dict second => equalEntries first second
  | node first, node second => first == second
  | symbol first, symbol second => first == second
  | reference first, reference second => first == second
  | call _ callee positional named history,
      call _ callee' positional' named' history' =>
      callee == callee' && equalItems positional positional' &&
        equalEntries named named' && history == history'
  | tagged _ tagNames item, tagged _ tagNames' item' =>
      tagNames == tagNames' && item.equals item'
  | _, _ => false

def equalItems : List Value → List Value → Bool
  | [], [] => true
  | first :: firsts, second :: seconds =>
      first.equals second && equalItems firsts seconds
  | _, _ => false

def equalEntries : List (String × Value) → List (String × Value) → Bool
  | [], [] => true
  | (name, first) :: firsts, (name', second) :: seconds =>
      name == name' && first.equals second && equalEntries firsts seconds
  | _, _ => false

end

/-! ## Classification -/

/-- How the substitution treats a value. -/
inductive Role where
  | configNode
  | importableSymbol
  | ordinary
  deriving DecidableEq, Repr

def role : Value → Role
  | node _ => .configNode
  | symbol entity =>
      if entity.isPlain && entity.isImportable then .importableSymbol
      else .ordinary
  | _ => .ordinary

end Value

end ConfigLowering
