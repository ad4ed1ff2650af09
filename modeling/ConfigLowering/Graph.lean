import ConfigLowering.Buildable

/-!
# Config graphs

An arena of config nodes together with the references between them. Every
reference in an argument is an edge with the argument's name; edges stand in
the order in which they were added. Assigning an argument never closes a cycle.
-/

namespace ConfigLowering

def NodeId.display (id : NodeId) : String := "node#" ++ toString id.index

/-! ## Errors -/

inductive GraphError where
  | unknownNode (id : NodeId)
  | cycle (parent child : NodeId) (argument : String)
  /-- A traversal came back to a node whose arguments it is still visiting. -/
  | reentered (id : NodeId)
  deriving DecidableEq, Repr

def GraphError.message : GraphError → String
  | unknownNode id => "unknown config node " ++ id.display
  | cycle parent child argument =>
      "assigning '" ++ argument ++ "' of " ++ parent.display ++
        " would create a cycle through " ++ child.display
  | reentered id => "config node " ++ id.display ++ " is reached from itself"

/-! ## Graphs -/

structure Edge where
  parent : NodeId
  child : NodeId
  argument : String
  deriving DecidableEq, Repr

structure ConfigGraph where
  nodes : List Buildable
  edges : List Edge

namespace ConfigGraph

def empty : ConfigGraph := ⟨[], []⟩

def nodeCount (graph : ConfigGraph) : Nat := graph.nodes.length

def ids (graph : ConfigGraph) : List NodeId :=
  (List.range graph.nodeCount).map NodeId.mk

def get? (graph : ConfigGraph) (id : NodeId) : Option Buildable :=
  graph.nodes[id.index]?

def contains (graph : ConfigGraph) (id : NodeId) : Bool :=
  id.index < graph.nodeCount

def node (graph : ConfigGraph) (id : NodeId) : Except GraphError Buildable :=
  match graph.get? id with
  | some buildable => .ok buildable
  | none => .error (.unknownNode id)

/-! ## Structure -/

/-- The targets of a node's edges, the oldest edge first. -/
def children (graph : ConfigGraph) (id : NodeId) : List NodeId :=
  (graph.edges.filter (·.parent = id)).map Edge.child

/-- The distinct nodes that refer to a node, in arena order. -/
def parents (graph : ConfigGraph) (id : NodeId) : List NodeId :=
  graph.ids.filter fun parent =>
    graph.edges.any fun edge => edge.parent = parent && edge.child = id

/-- Whether at least two references point at a node. -/
def isShared (graph : ConfigGraph) (id : NodeId) : Bool :=
  2 ≤ graph.edges.countP (·.child = id)

/-- Depth-first search with a stack. A step takes a node from the stack, and
each edge puts at most one node there, so one step more than there are edges
empties a stack that starts with one node. -/
def searchSteps (graph : ConfigGraph) :
    Nat → List NodeId → List NodeId → List NodeId
  | 0, _, found => found
  | _, [], found => found
  | steps + 1, id :: stack, found =>
      if found.contains id then graph.searchSteps steps stack found
      else
        let found := found ++ [id]
        let fresh := (graph.children id).filter (!found.contains ·)
        graph.searchSteps steps (fresh ++ stack) found

/-- The nodes that a search from a node discovers, in order. -/
def search (graph : ConfigGraph) (start : NodeId) : List NodeId :=
  graph.searchSteps (graph.edges.length + 1) [start] []

def hasPath (graph : ConfigGraph) (source target : NodeId) : Bool :=
  (graph.search source).contains target

/-- The nodes reachable from the references of a value, each once: one search
for each start that no earlier search has found. -/
def reachable (graph : ConfigGraph) (root : Value) : List NodeId :=
  root.nodeReferences.foldl
    (fun found start =>
      if !graph.contains start || found.contains start then found
      else found ++ (graph.search start).filter (!found.contains ·))
    []

/-! ## Changes -/

def checkContains (graph : ConfigGraph) (id : NodeId) : Except GraphError Unit :=
  if graph.contains id then .ok () else .error (.unknownNode id)

def checkReferences (graph : ConfigGraph) (buildable : Buildable) :
    Except GraphError Unit := do
  for (_, child) in buildable.references do
    graph.checkContains child

/-- Adds a node whose arguments refer to nodes of the graph. Nothing refers to
a new node, so this closes no cycle. -/
def addNode (graph : ConfigGraph) (buildable : Buildable) :
    Except GraphError NodeId × ConfigGraph :=
  match graph.checkReferences buildable with
  | .error error => (.error error, graph)
  | .ok () =>
      let id : NodeId := ⟨graph.nodeCount⟩
      let edges := buildable.references.map fun (argument, child) =>
        (⟨id, child, argument⟩ : Edge)
      (.ok id, ⟨graph.nodes ++ [buildable], graph.edges ++ edges⟩)

/-- Changes a node and gives the answer that comes with the change. -/
def update {α : Type} (graph : ConfigGraph) (id : NodeId) (change : Buildable → α × Buildable) :
    Except GraphError α × ConfigGraph :=
  match graph.node id with
  | .error error => (.error error, graph)
  | .ok buildable =>
      let (answer, buildable) := change buildable
      (.ok answer, { graph with nodes := graph.nodes.set id.index buildable })

/-! ### Arguments -/

/-- A reference that an argument of a node may take on: its target exists and
the node cannot be reached from it. -/
def checkReference (graph : ConfigGraph) (id : NodeId) (argument : String)
    (child : NodeId) : Except GraphError Unit := do
  graph.checkContains child
  if child = id || graph.hasPath child id then
    throw (.cycle id child argument)

def checkAssignment (graph : ConfigGraph) (id : NodeId) (name : String) (value : Value) :
    Except GraphError Unit := do
  graph.checkContains id
  for child in value.nodeReferences do
    graph.checkReference id name child

/-- The edges of an argument's earlier value go and the new ones come last. -/
def relink (graph : ConfigGraph) (id : NodeId) (name : String) (children : List NodeId) :
    ConfigGraph :=
  let kept := graph.edges.filter fun edge => !(edge.parent = id && edge.argument = name)
  let added := children.map fun child => (⟨id, child, name⟩ : Edge)
  { graph with edges := kept ++ added }

/-- Assigns an argument and gives the value it displaces. All is checked before
the edges change, and the edges change before the node. -/
def setArgument (graph : ConfigGraph) (id : NodeId) (name : String) (value : Value) :
    Except GraphError (Option Value) × ConfigGraph :=
  match graph.checkAssignment id name value with
  | .error error => (.error error, graph)
  | .ok () =>
      (graph.relink id name value.nodeReferences).update id fun buildable =>
        let (displaced, arguments) := buildable.arguments.insert name value
        (displaced, { buildable with arguments })

/-! ### Tags -/

/-- Tags a field; the answer says whether the tag is new. -/
def addTag (graph : ConfigGraph) (id : NodeId) (field : String) (tag : Symbol) :
    Except GraphError Bool × ConfigGraph :=
  graph.update id fun buildable => (!buildable.hasTag field tag, buildable.addTag field tag)

/-- Takes a tag from a field; the answer says whether it was there. -/
def removeTag (graph : ConfigGraph) (id : NodeId) (field : String) (tag : Symbol) :
    Except GraphError Bool × ConfigGraph :=
  graph.update id fun buildable => (buildable.hasTag field tag, buildable.removeTag field tag)

def clearTags (graph : ConfigGraph) (id : NodeId) : Except GraphError Unit × ConfigGraph :=
  graph.update id fun buildable => ((), buildable.clearTags)

end ConfigGraph

end ConfigLowering
