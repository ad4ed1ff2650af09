import ConfigLowering.Buildable

/-!
# Graph documents

The written form of a config graph and the fixtures over it. Nodes go by text
ids, and their order is free.
-/

namespace ConfigLowering

/-- A value before node ids are resolved. -/
inductive DocumentValue where
  | none
  | bool (value : Bool)
  | int (value : Int64)
  | float (value : Float)
  | str (text : String)
  | list (items : List DocumentValue)
  | tuple (items : List DocumentValue)
  | dict (entries : List (String × DocumentValue))
  | node (id : String)
  | symbol (symbol : Symbol)

instance : Inhabited DocumentValue := ⟨.none⟩

/-- A field of a node; it may have tags without a value. -/
structure ArgumentEntry where
  name : String
  value : Option DocumentValue
  tags : List Symbol

structure NodeEntry where
  id : String
  kind : BuildableKind
  callable : Symbol
  arguments : List ArgumentEntry

structure VariableEntry where
  name : String
  value : DocumentValue

inductive FixtureEntry where
  | entry (name : String) (parameters : List String) (declarations : List VariableEntry)
      (output : DocumentValue) (children : List FixtureEntry)

structure GraphDocument where
  nodes : List NodeEntry
  fixture : FixtureEntry

end ConfigLowering
