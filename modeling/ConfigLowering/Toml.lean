/-!
# TOML trees

Every table remembers how it came to be, since that decides what may still be
added to it. Floating point numbers are kept without their value.
-/

namespace ConfigLowering

inductive TableOrigin where
  /-- The table has a header of its own. -/
  | header
  /-- The table stands on the way to a header. -/
  | implied
  /-- The table stands on the way of a dotted key. -/
  | dotted
  /-- The table is written between braces. -/
  | inline
  deriving DecidableEq, Repr

inductive Toml where
  | string (text : String)
  | integer (value : Int)
  | float
  | boolean (value : Bool)
  | datetime (text : String)
  | array (items : List Toml)
  | table (origin : TableOrigin) (entries : List (String × Toml))
  /-- Tables with one header each; an element holds its entries. -/
  | tables (elements : List (List (String × Toml)))

instance : Inhabited Toml := ⟨.float⟩

/-- A key with the keys in front of it. -/
structure DottedKey where
  parents : List String
  key : String
  deriving DecidableEq, Repr

structure TomlEntry where
  place : DottedKey
  value : Toml

/-- A table header with the entries below it. -/
structure TomlSection where
  place : DottedKey
  /-- Whether the header adds an element to an array of tables. -/
  isElement : Bool
  entries : List TomlEntry

end ConfigLowering
