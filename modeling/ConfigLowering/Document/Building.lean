import ConfigLowering.Document
import ConfigLowering.Task

/-!
# From documents to tasks

All nodes are added first and their arguments are assigned afterwards, so nodes
may refer to nodes that come later. The graph refuses cycles.
-/

namespace ConfigLowering

/-! ## Errors -/

inductive DocumentError where
  | malformed
  | duplicateNode (id : String)
  | unknownNode (id : String)
  | graphFailed (error : GraphError)
  deriving DecidableEq, Repr

def DocumentError.message : DocumentError → String
  | malformed => "failed to parse graph document"
  | duplicateNode id => "duplicate node id '" ++ id ++ "'"
  | unknownNode id => "unknown node id '" ++ id ++ "'"
  | graphFailed error => error.message

/-! ## Values -/

/-- The position of each id in the graph. -/
abbrev NodePositions := List (String × NodeId)

namespace DocumentValue

mutual

def resolve (positions : NodePositions) : DocumentValue → Except DocumentError Value
  | none => return .none
  | bool value => return .bool value
  | int value => return .int value
  | float value => return .float value
  | str text => return .str text
  | list items => return .list (← resolveItems positions items)
  | tuple items => return .tuple (← resolveItems positions items)
  | dict entries => return .dict (← resolveEntries positions entries)
  | node id =>
      match positions.lookup id with
      | some position => return .node position
      | Option.none => throw (.unknownNode id)
  | symbol entity => return .symbol entity

def resolveItems (positions : NodePositions) :
    List DocumentValue → Except DocumentError (List Value)
  | [] => return []
  | item :: items => do
      let item ← item.resolve positions
      return item :: (← resolveItems positions items)

def resolveEntries (positions : NodePositions) :
    List (String × DocumentValue) → Except DocumentError (List (String × Value))
  | [] => return []
  | (name, item) :: entries => do
      let item ← item.resolve positions
      return (name, item) :: (← resolveEntries positions entries)

end

end DocumentValue

/-! ## Graphs -/

/-- The answer of a change to the graph beside the graph it leaves. A document
whose change fails has no graph. -/
def liftGraph {α : Type} :
    Except GraphError α × ConfigGraph → Except DocumentError (α × ConfigGraph)
  | (.ok answer, graph) => .ok (answer, graph)
  | (.error error, _) => .error (.graphFailed error)

namespace GraphDocument

/-- Adds a node without arguments under an id of its own. -/
def addNode (state : ConfigGraph × NodePositions) (node : NodeEntry) :
    Except DocumentError (ConfigGraph × NodePositions) := do
  let (graph, positions) := state
  if (positions.lookup node.id).isSome then throw (.duplicateNode node.id)
  let (position, graph) ← liftGraph (graph.addNode (.ofCallable node.kind node.callable))
  return (graph, positions ++ [(node.id, position)])

def assignValue (positions : NodePositions) (id : NodeId) (argument : ArgumentEntry)
    (graph : ConfigGraph) : Except DocumentError ConfigGraph := do
  match argument.value with
  | none => return graph
  | some value =>
      let value ← value.resolve positions
      let (_, graph) ← liftGraph (graph.setArgument id argument.name value)
      return graph

/-- Assigns the value of a field, if it has one, and attaches its tags. -/
def assignArgument (positions : NodePositions) (id : NodeId) (graph : ConfigGraph)
    (argument : ArgumentEntry) : Except DocumentError ConfigGraph := do
  let graph ← assignValue positions id argument graph
  argument.tags.foldlM
    (fun graph tag => do
      let (_, graph) ← liftGraph (graph.addTag id argument.name tag)
      return graph)
    graph

def assignArguments (positions : NodePositions) (graph : ConfigGraph)
    (node : NodeEntry) : Except DocumentError ConfigGraph :=
  match positions.lookup node.id with
  | none => throw (.unknownNode node.id)
  | some id => node.arguments.foldlM (assignArgument positions id) graph

/-- The graph of a document, and where each of its ids stands in it. -/
def buildGraph (document : GraphDocument) :
    Except DocumentError (ConfigGraph × NodePositions) := do
  let (graph, positions) ← document.nodes.foldlM addNode (.empty, [])
  let graph ← document.nodes.foldlM (assignArguments positions) graph
  return (graph, positions)

end GraphDocument

/-! ## Fixtures -/

namespace FixtureEntry

def resolveVariable (positions : NodePositions) (declaration : VariableEntry) :
    Except DocumentError Variable := do
  return ⟨declaration.name, ← declaration.value.resolve positions⟩

mutual

/-- Resolves the output first, then the variables, then the children. -/
def toCallTree (positions : NodePositions) : FixtureEntry → Except DocumentError CallTree
  | entry name parameters declarations output children => do
      let output ← output.resolve positions
      let declarations ← declarations.mapM (resolveVariable positions)
      let children ← toCallTrees positions children
      return .node { name, parameters, declarations, output } children

def toCallTrees (positions : NodePositions) :
    List FixtureEntry → Except DocumentError (List CallTree)
  | [] => return []
  | child :: children => do
      let child ← child.toCallTree positions
      return child :: (← toCallTrees positions children)

end

end FixtureEntry

/-! ## Tasks -/

namespace GraphDocument

/-- The task of a document, and where each of its ids stands in the graph.
Documents hold no code objects. -/
def toTask (document : GraphDocument) (settings : ImportSettings) :
    Except DocumentError (Task × NodePositions) := do
  let (graph, positions) ← document.buildGraph
  let callTree ← document.fixture.toCallTree positions
  return (.create graph callTree settings ⟨0⟩, positions)

end GraphDocument

end ConfigLowering
