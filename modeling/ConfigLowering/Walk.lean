import ConfigLowering.Graph
import ConfigLowering.Path

/-!
# Walks

A walk lists every value below some roots in pre-order. Config nodes are
followed through their arguments, each node only where the walk meets it first.
-/

namespace ConfigLowering

/-- What a traversal meets. -/
inductive Visit where
  | node (id : NodeId) (buildable : Buildable)
  | value (value : Value)

structure Walk where
  seen : List NodeId
  entries : Array (Visit × Path)

abbrev WalkM := StateT Walk (Except GraphError)

namespace Walk

def empty : Walk := ⟨[], #[]⟩

def record (visit : Visit) (path : Path) : WalkM Unit :=
  modify fun walk => { walk with entries := walk.entries.push (visit, path) }

/-- Marks a node as seen; the answer says whether it was new. -/
def mark (id : NodeId) : WalkM Bool := do
  if (← get).seen.contains id then return false
  modify fun walk => { walk with seen := id :: walk.seen }
  return true

/-! ## Values -/

mutual

/-- Walks a value, given what to do at a reference to a config node. -/
def walkValue (enter : NodeId → Path → WalkM Unit) : Value → Path → WalkM Unit
  | .node id, path => enter id path
  | .list items, path => do
      record (.value (.list items)) path
      walkItems enter items 0 path
  | .tuple items, path => do
      record (.value (.tuple items)) path
      walkItems enter items 0 path
  | .dict entries, path => do
      record (.value (.dict entries)) path
      walkEntries enter .key entries path
  | .call id callee positional named history, path => do
      record (.value (.call id callee positional named history)) path
      walkItems enter positional 0 path
      walkEntries enter .field named path
  | .tagged id tagNames item, path => do
      record (.value (.tagged id tagNames item)) path
      walkValue enter item (path.child (.field "item_to_tag"))
  | value, path => record (.value value) path

def walkItems (enter : NodeId → Path → WalkM Unit) :
    List Value → Nat → Path → WalkM Unit
  | [], _, _ => return ()
  | item :: items, position, path => do
      walkValue enter item (path.child (.index position))
      walkItems enter items (position + 1) path

def walkEntries (enter : NodeId → Path → WalkM Unit) (step : String → PathStep) :
    List (String × Value) → Path → WalkM Unit
  | [], _ => return ()
  | (name, item) :: entries, path => do
      walkValue enter item (path.child (step name))
      walkEntries enter step entries path

end

/-! ## Nodes -/

/-- Walks a node and its arguments unless it has been seen. Nested nodes are
all different, so a depth above the number of nodes is never used up. -/
def walkNode (graph : ConfigGraph) : Nat → NodeId → Path → WalkM Unit
  | 0, id, _ => throw (.reentered id)
  | depth + 1, id, path => do
      if ← mark id then
        let buildable ← graph.node id
        record (.node id buildable) path
        walkEntries (walkNode graph depth) .field buildable.arguments.entries path

end Walk

namespace ConfigGraph

def walkFrom (graph : ConfigGraph) (root : Value) (base : Path) : WalkM Unit :=
  Walk.walkValue (Walk.walkNode graph (graph.nodeCount + 1)) root base

/-- Every value below the roots with its path, sharing one set of seen nodes. -/
def iterateAll (graph : ConfigGraph) (roots : List (Value × Path)) :
    Except GraphError (List (Visit × Path)) := do
  let (_, walk) ← (roots.forM fun (root, base) => graph.walkFrom root base).run .empty
  return walk.entries.toList

def iterate (graph : ConfigGraph) (root : Value) :
    Except GraphError (List (Visit × Path)) :=
  graph.iterateAll [(root, .root)]

end ConfigGraph

end ConfigLowering
