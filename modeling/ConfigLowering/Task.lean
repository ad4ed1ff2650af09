import ConfigLowering.Fixture
import ConfigLowering.Graph
import ConfigLowering.Imports

/-!
# Lowering tasks

A task holds everything that one generated module is made from: the config
graph, the imports, and the tree of fixtures.
-/

namespace ConfigLowering

/-! ## Errors -/

inductive LoweringError where
  /-- A field has tags and no value to attach them to. -/
  | taggedFieldNotSet (field : String) (node : String) (arguments : List String)
      (path : Path)
  | importFailed (error : ImportError)
  | graphFailed (error : GraphError)
  deriving DecidableEq, Repr

/-! ## Tasks -/

structure Task where
  graph : ConfigGraph
  imports : ImportManager
  callTree : CallTree
  baseModule : String
  /-- The identity that the next code object gets. -/
  nextCode : CodeId

namespace Task

/-- A task over a graph and fixtures whose code objects have identities below
`nextCode`. -/
def create (graph : ConfigGraph) (callTree : CallTree) (settings : ImportSettings)
    (nextCode : CodeId) : Task where
  graph
  imports := .ofSettings settings
  callTree
  baseModule := settings.baseModule
  nextCode

def fixtures (task : Task) : List Fixture := task.callTree.fixtures

def wrapper (task : Task) (kind : BuildableKind) : Symbol :=
  kind.wrapper task.baseModule

/-- Replaces the body of the fixture at a position in the order of the tree. -/
def replaceBody (task : Task) (position : Nat) (declarations : List Variable)
    (output : Value) : Task :=
  let fixtures := task.fixtures.modify position (·.replaceBody declarations output)
  { task with callTree := task.callTree.withFixtures fixtures }

end Task

end ConfigLowering
