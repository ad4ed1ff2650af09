import ConfigLowering.Graph
import ConfigLowering.Path

/-!
# Transformers

A transformer says what becomes of a config node and of any other value. The
engine transforms values bottom up, keeps one result per config node and one per
code object, and so turns sharing in its input into sharing in its output.
Results survive between roots, also when a root fails.
-/

namespace ConfigLowering

/-! ## State -/

/-- `context` belongs to the transformer, the rest to the engine. -/
structure TransformState (σ : Type) where
  context : σ
  /-- The identity that the next code object gets. -/
  nextCode : CodeId
  nodeResults : List (NodeId × Value)
  codeResults : List (CodeId × Value)
  path : Path

/-- Transforming may fail, and keeps its state when it does. -/
abbrev TransformM (σ ε : Type) := ExceptT ε (StateM (TransformState σ))

namespace TransformState

variable {σ : Type}

def start (context : σ) (nextCode : CodeId) : TransformState σ :=
  ⟨context, nextCode, [], [], .root⟩

end TransformState

namespace TransformM

variable {σ ε α : Type}

/-- A new code object's identity. -/
def freshCode : TransformM σ ε CodeId := do
  let state ← get
  set { state with nextCode := ⟨state.nextCode.index + 1⟩ }
  return state.nextCode

def currentPath : TransformM σ ε Path := return (← get).path

/-- Runs an action one step below the current path and comes back, whether the
action succeeds or not. -/
def below (step : PathStep) (action : TransformM σ ε α) : TransformM σ ε α :=
  ExceptT.mk do
    modify fun state => { state with path := state.path.child step }
    let outcome ← action.run
    modify fun state => { state with path := state.path.parent }
    return outcome

/-- The result kept for a config node, or else the one the action gives. -/
def onceForNode (id : NodeId) (action : TransformM σ ε Value) : TransformM σ ε Value := do
  match (← get).nodeResults.lookup id with
  | some result => return result
  | none =>
      let result ← action
      modify fun state => { state with nodeResults := (id, result) :: state.nodeResults }
      return result

/-- The result kept for a code object, or else the one the action gives. -/
def onceForCode (id : CodeId) (action : TransformM σ ε Value) : TransformM σ ε Value := do
  match (← get).codeResults.lookup id with
  | some result => return result
  | none =>
      let result ← action
      modify fun state => { state with codeResults := (id, result) :: state.codeResults }
      return result

end TransformM

/-! ## Transformers -/

/-- Either a result, or what to make of the transformed parts. The engine transforms the parts,
so a transformer has them transformed at most once, has no other value transformed, and never
sees the error of a part, with which the whole fails. -/
inductive Plan (σ ε parts : Type) where
  | replace (result : Value)
  | rebuild (finish : parts → TransformM σ ε Value)

structure Transformer (σ ε : Type) where
  ofGraphError : GraphError → ε
  /-- The parts of a config node are its arguments. -/
  onNode : NodeId → Buildable → TransformM σ ε (Plan σ ε (Arguments Value))
  /-- The parts of another value are the value with its children transformed. -/
  onValue : Value → TransformM σ ε (Plan σ ε Value)

namespace Transformer

variable {σ ε : Type}

def follow {parts : Type} (plan : Plan σ ε parts) (transformed : TransformM σ ε parts) :
    TransformM σ ε Value := do
  match plan with
  | .replace result => return result
  | .rebuild finish => finish (← transformed)

/-! ## Values -/

mutual

/-- Transforms a value, given what to do at a reference to a config node. A
rebuilt code object is a new object. -/
def transformValue (transformer : Transformer σ ε) (enter : NodeId → TransformM σ ε Value) :
    Value → TransformM σ ε Value
  | .node id => enter id
  | .list items => do
      let plan ← transformer.onValue (.list items)
      follow plan do
        return .list (← transformItems transformer enter items 0)
  | .tuple items => do
      let plan ← transformer.onValue (.tuple items)
      follow plan do
        return .tuple (← transformItems transformer enter items 0)
  | .dict entries => do
      let plan ← transformer.onValue (.dict entries)
      follow plan do
        return .dict (← transformEntries transformer enter .key entries)
  | .call id callee positional named history =>
      TransformM.onceForCode id do
        let plan ← transformer.onValue (.call id callee positional named history)
        follow plan do
          let positional ← transformItems transformer enter positional 0
          let named ← transformEntries transformer enter .field named
          return .call (← TransformM.freshCode) callee positional named history
  | .tagged id tagNames item =>
      TransformM.onceForCode id do
        let plan ← transformer.onValue (.tagged id tagNames item)
        follow plan do
          let item ← TransformM.below (.field "item_to_tag")
            (transformValue transformer enter item)
          return .tagged (← TransformM.freshCode) tagNames item
  | leaf => do
      let plan ← transformer.onValue leaf
      follow plan (return leaf)

def transformItems (transformer : Transformer σ ε) (enter : NodeId → TransformM σ ε Value) :
    List Value → Nat → TransformM σ ε (List Value)
  | [], _ => return []
  | item :: items, position => do
      let item ← TransformM.below (.index position) (transformValue transformer enter item)
      return item :: (← transformItems transformer enter items (position + 1))

def transformEntries (transformer : Transformer σ ε) (enter : NodeId → TransformM σ ε Value)
    (step : String → PathStep) :
    List (String × Value) → TransformM σ ε (List (String × Value))
  | [] => return []
  | (name, item) :: entries => do
      let item ← TransformM.below (step name) (transformValue transformer enter item)
      return (name, item) :: (← transformEntries transformer enter step entries)

end

/-! ## Nodes -/

/-- Transforms a config node once. The depth bounds how many nodes are open at
the same time: in a graph without cycles they are all different. -/
def transformNode (transformer : Transformer σ ε) (graph : ConfigGraph) :
    Nat → NodeId → TransformM σ ε Value
  | 0, id => throw (transformer.ofGraphError (.reentered id))
  | depth + 1, id =>
      TransformM.onceForNode id do
        match graph.node id with
        | .error error => throw (transformer.ofGraphError error)
        | .ok buildable =>
            let plan ← transformer.onNode id buildable
            follow plan do
              return ⟨← transformEntries transformer (transformNode transformer graph depth)
                .field buildable.arguments.entries⟩

/-! ## Roots -/

def transformRoot (transformer : Transformer σ ε) (graph : ConfigGraph) (root : Value) :
    TransformM σ ε Value :=
  transformValue transformer (transformNode transformer graph (graph.nodeCount + 1)) root

/-- Transforms a root whose place is `base`. -/
def runAt (transformer : Transformer σ ε) (graph : ConfigGraph) (root : Value) (base : Path) :
    TransformM σ ε Value :=
  ExceptT.mk do
    modify fun state => { state with path := base }
    let outcome ← (transformer.transformRoot graph root).run
    modify fun state => { state with path := .root }
    return outcome

def run (transformer : Transformer σ ε) (graph : ConfigGraph) (root : Value) :
    TransformM σ ε Value :=
  transformer.runAt graph root .root

end Transformer

end ConfigLowering
