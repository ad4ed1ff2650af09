import ConfigLowering.Text.Identifier

/-!
# Symbols

A symbol is a named entity that generated code may refer to: a function, a
class, a member of an enumeration or an object of a module. Symbols with the
same module and qualified name are one symbol for imports; this pair is the
symbol's key.
-/

namespace ConfigLowering

inductive SymbolKind where
  | function
  | classType
  | enumMember
  | object
  deriving DecidableEq, Repr

namespace SymbolKind

def name : SymbolKind → String
  | function => "function"
  | classType => "class"
  | enumMember => "enum_member"
  | object => "object"

/-- Position in the order of kinds. -/
def rank : SymbolKind → Nat
  | function => 0
  | classType => 1
  | enumMember => 2
  | object => 3

theorem rank_injective {first second : SymbolKind} (h : first.rank = second.rank) :
    first = second := by
  cases first <;> cases second <;> simp_all [rank]

end SymbolKind

structure SymbolKey where
  module : String
  qualname : String
  deriving DecidableEq, Repr

structure Symbol where
  module : String
  qualname : String
  kind : SymbolKind
  deriving DecidableEq, Repr

/-! ## Order -/

namespace SymbolKey

instance : Ord SymbolKey where
  compare := compareLex (compareOn SymbolKey.module) (compareOn SymbolKey.qualname)

instance : Std.TransOrd SymbolKey :=
  inferInstanceAs (Std.TransCmp (compareLex (compareOn SymbolKey.module)
    (compareOn SymbolKey.qualname)))

instance : Std.LawfulEqOrd SymbolKey where
  eq_of_compare := by
    intro first second h
    obtain ⟨hmodule, hqualname⟩ := Ordering.then_eq_eq.mp h
    have hmodule : first.module = second.module := Std.LawfulEqOrd.eq_of_compare hmodule
    have hqualname : first.qualname = second.qualname :=
      Std.LawfulEqOrd.eq_of_compare hqualname
    cases first
    cases second
    simp_all

end SymbolKey

namespace Symbol

def key (symbol : Symbol) : SymbolKey := ⟨symbol.module, symbol.qualname⟩

/-- By module, then qualified name, then kind. -/
instance : Ord Symbol where
  compare := compareLex (compareOn Symbol.key) (compareOn (·.kind.rank))

instance : Std.TransOrd Symbol :=
  inferInstanceAs (Std.TransCmp (compareLex (compareOn Symbol.key)
    (compareOn (·.kind.rank))))

instance : Std.LawfulEqOrd Symbol where
  eq_of_compare := by
    intro first second h
    obtain ⟨hkey, hrank⟩ := Ordering.then_eq_eq.mp h
    have hkey : first.key = second.key := Std.LawfulEqOrd.eq_of_compare hkey
    have hkind : first.kind = second.kind :=
      SymbolKind.rank_injective (Std.LawfulEqOrd.eq_of_compare hrank)
    cases first
    cases second
    simp_all [key]

def sort (symbols : List Symbol) : List Symbol :=
  symbols.mergeSort fun first second => (compare first second).isLE

/-! ## Names -/

def builtinsModule : String := "builtins"

/-- The module of code run as a script, which nothing can import. -/
def scriptModule : String := "__main__"

def function (module qualname : String) : Symbol := ⟨module, qualname, .function⟩

def classType (module qualname : String) : Symbol := ⟨module, qualname, .classType⟩

def enumMember (module enumeration member : String) : Symbol :=
  ⟨module, enumeration ++ "." ++ member, .enumMember⟩

def object (module qualname : String) : Symbol := ⟨module, qualname, .object⟩

def builtin (name : String) : Symbol := function builtinsModule name

def isBuiltin (symbol : Symbol) : Bool := symbol.module == builtinsModule

def qualifiedName (symbol : Symbol) : String :=
  if symbol.module.isEmpty then symbol.qualname
  else symbol.module ++ "." ++ symbol.qualname

/-- Functions, classes and enumeration members, but not objects. -/
def isPlain (symbol : Symbol) : Bool :=
  match symbol.kind with
  | .function | .classType | .enumMember => true
  | .object => false

/-- A symbol can be imported when module and qualified name are dotted paths
and the module is not the script's. Names of local scopes fail this. -/
def isImportable (symbol : Symbol) : Bool :=
  symbol.module != scriptModule && isDottedPath symbol.module &&
    isDottedPath symbol.qualname

def importPath? (symbol : Symbol) : Option SymbolKey :=
  if symbol.isImportable then some symbol.key else none

/-! ## Tags -/

/-- A tag is the symbol that names it and is shown with a hash mark. -/
def tagDisplay (symbol : Symbol) : String := "#" ++ symbol.qualifiedName

end Symbol

end ConfigLowering
