import Std.Data.ExtTreeSet
import ConfigLowering.Text.Identifier

/-!
# Namespaces

The names bound in a generated module. A fresh name is made from a base text:
the text as an identifier, or that identifier with the least free number.
-/

namespace ConfigLowering

structure Namespace where
  bound : Std.ExtTreeSet String

namespace Namespace

/-- Words of the generated language, and names that code relies on. -/
def reservedWords : List String := [
  "False", "None", "True", "and", "as", "assert", "async", "await", "break",
  "class", "continue", "def", "del", "elif", "else", "except", "finally", "for",
  "from", "global", "if", "import", "in", "is", "lambda", "nonlocal", "not",
  "or", "pass", "raise", "return", "try", "while", "with", "yield", "bool",
  "dict", "float", "int", "len", "list", "object", "print", "range", "set",
  "str", "super", "tuple", "type"]

/-- The names of a module that binds nothing yet. -/
def initial : Namespace := ⟨.ofList reservedWords⟩

def size (space : Namespace) : Nat := space.bound.size

def contains (space : Namespace) (name : String) : Bool := space.bound.contains name

/-- Binds a name; the answer says whether it was free. -/
def add (space : Namespace) (name : String) : Bool × Namespace :=
  (!space.contains name, ⟨space.bound.insert name⟩)

def addAll (space : Namespace) (names : List String) : Namespace :=
  names.foldl (fun space name => (space.add name).2) space

/-! ## Fresh names -/

/-- The identifier closest to a text. -/
def sanitize (base : String) : String :=
  let characters := base.toList.map fun character =>
    if isIdentifierPart character then character else '_'
  let name := if characters.isEmpty then "v" else String.ofList characters
  if isIdentifier name then name else "_" ++ name

def numbered (base : String) (number : Nat) : String :=
  base ++ "_" ++ toString number

/-- The least number from `number` on whose numbered name is free, looking at
no more than `attempts` numbers. The numbers are unbounded: a search that counts
with 32 bits ends at the same one as long as it fits (`CountsTo`). -/
def leastFreeNumber (space : Namespace) (base : String) : Nat → Nat → Nat
  | 0, number => number
  | attempts + 1, number =>
      if space.contains (numbered base number) then
        leastFreeNumber space base attempts (number + 1)
      else number

/-- The name that a fresh binding for `base` takes. There are more numbers to
try than bound names, so one of them is free. -/
def freshNameFor (space : Namespace) (base : String) : String :=
  let name := sanitize base
  if space.contains name then
    numbered name (space.leastFreeNumber name (space.size + 1) 2)
  else name

/-- Binds a fresh name. -/
def bindFresh (space : Namespace) (base : String) : String × Namespace :=
  let name := space.freshNameFor base
  (name, (space.add name).2)

end Namespace

end ConfigLowering
