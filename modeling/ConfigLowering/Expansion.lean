import ConfigLowering.Transformer
import ConfigLowering.Walk

/-!
# Expansion

Ready-made transformers that show the structure of a value. They note every visit,
refuse one marked text, and differ in what becomes of a config node.
-/

namespace ConfigLowering

def Visit.label : Visit → String
  | node id _ => id.display
  | value content => content.typeName

/-- What becomes of a config node. -/
inductive Expansion where
  /-- Its callable; the arguments are not visited. -/
  | outline
  /-- A call of its callable with its arguments. -/
  | call
  /-- The dictionary of its arguments. -/
  | dictionary
  /-- The dictionary of its arguments, with every integer doubled. -/
  | doubled
  deriving DecidableEq, Repr

inductive ExpansionError where
  | graphFailed (error : GraphError)
  /-- The marked text was met. -/
  | refused (path : Path)
  deriving DecidableEq, Repr

def ExpansionError.message : ExpansionError → String
  | graphFailed error => error.message
  | refused path => path.display

/-- Visits in order, each with its path. -/
abbrev VisitLog := Array (Path × Visit)

abbrev ExpansionM := TransformM VisitLog ExpansionError

namespace Expansion

def refusedText : String := "boom"

def note (visit : Visit) : ExpansionM Unit :=
  modify fun state => { state with context := state.context.push (state.path, visit) }

def planNode (expansion : Expansion) (buildable : Buildable) :
    Plan VisitLog ExpansionError (Arguments Value) :=
  match expansion with
  | outline => .replace (.symbol buildable.callable)
  | call => .rebuild fun arguments => do
      return .call (← TransformM.freshCode) buildable.callable.qualifiedName []
        arguments.entries []
  | dictionary | doubled => .rebuild fun arguments => return .dict arguments.entries

def planValue (expansion : Expansion) (value : Value) :
    ExpansionM (Plan VisitLog ExpansionError Value) := do
  match expansion, value with
  | _, .str text =>
      if text = refusedText then throw (.refused (← TransformM.currentPath))
      else return .replace value
  | doubled, .int number => return .replace (.int (2 * number))
  | _, _ => return .rebuild pure

def transformer (expansion : Expansion) : Transformer VisitLog ExpansionError where
  ofGraphError := .graphFailed
  onNode id buildable := do
    note (.node id buildable)
    return expansion.planNode buildable
  onValue value := do
    note (.value value)
    expansion.planValue value

end Expansion

end ConfigLowering
