/-!
# Ranges of code points

A character property beyond ASCII is a list of closed code point ranges in
ascending order.
-/

namespace ConfigLowering.Text

structure CodeRange where
  first : Nat
  last : Nat
  deriving DecidableEq, Repr

def CodeRange.contains (range : CodeRange) (character : Char) : Bool :=
  range.first ≤ character.toNat && character.toNat ≤ range.last

/-- Reads a flat table, each first code point followed by its last one. -/
def CodeRange.ofBounds : List Nat → List CodeRange
  | first :: last :: bounds => ⟨first, last⟩ :: ofBounds bounds
  | _ => []

def isAscii (character : Char) : Bool := character.toNat < 0x80

end ConfigLowering.Text
