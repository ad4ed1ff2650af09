/-!
# Paths

A path names the place of a value by the steps that lead to it from a root.
-/

namespace ConfigLowering

inductive PathStep where
  | field (name : String)
  | index (position : Nat)
  | key (name : String)
  deriving DecidableEq, Repr

def PathStep.display : PathStep → String
  | field name => "." ++ name
  | index position => "[" ++ toString position ++ "]"
  | key name => "['" ++ name ++ "']"

/-- Steps from the root, the outermost first. -/
structure Path where
  steps : List PathStep
  deriving DecidableEq, Repr

namespace Path

def root : Path := ⟨[]⟩

def isRoot (path : Path) : Bool := path.steps.isEmpty

def length (path : Path) : Nat := path.steps.length

/-- The path one step below. -/
def child (path : Path) (step : PathStep) : Path := ⟨path.steps ++ [step]⟩

/-- The path one step above; the root is above itself. -/
def parent (path : Path) : Path := ⟨path.steps.dropLast⟩

def last? (path : Path) : Option PathStep := path.steps.getLast?

def display (path : Path) : String :=
  if path.isRoot then "<root>" else String.join (path.steps.map PathStep.display)

@[simp] theorem parent_child (path : Path) (step : PathStep) :
    (path.child step).parent = path := by
  simp [child, parent]

end Path

end ConfigLowering
