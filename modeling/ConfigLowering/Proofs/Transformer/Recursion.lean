import ConfigLowering.Proofs.Graph.Recursion
import ConfigLowering.Transformer

/-!
# Transformations as recursions

What becomes of a value hinges on what becomes of the references in it, whatever the transformer
does. So a transformation is a recursion along references.
-/

namespace ConfigLowering

namespace Transformer

variable {σ ε : Type} {transformer : Transformer σ ε} {enter further : NodeId → TransformM σ ε Value}

theorem transformItems_congr {items : List Value}
    (h : ∀ item ∈ items, transformValue transformer enter item =
      transformValue transformer further item) (position : Nat) :
    transformItems transformer enter items position =
      transformItems transformer further items position := by
  induction items generalizing position with
  | nil => rfl
  | cons item items ih =>
      obtain ⟨hitem, hitems⟩ := List.forall_mem_cons.mp h
      rw [transformItems, transformItems, hitem, ih hitems]

theorem transformEntries_congr {entries : List (String × Value)}
    (h : ∀ item ∈ entries.map Prod.snd, transformValue transformer enter item =
      transformValue transformer further item) (step : String → PathStep) :
    transformEntries transformer enter step entries =
      transformEntries transformer further step entries := by
  induction entries with
  | nil => rfl
  | cons entry entries ih =>
      obtain ⟨name, item⟩ := entry
      obtain ⟨hitem, hentries⟩ := List.forall_mem_cons.mp h
      rw [transformEntries, transformEntries, hitem, ih hentries]

theorem transformValue_congr {value : Value}
    (h : ∀ id ∈ value.nodeReferences, enter id = further id) :
    transformValue transformer enter value = transformValue transformer further value := by
  induction value using Value.induction_children with
  | step value ih =>
      have hchildren : ∀ child ∈ value.children, transformValue transformer enter child =
          transformValue transformer further child := fun child hchild =>
        ih child hchild fun id hid => h id (Value.mem_nodeReferences_of_mem_children hchild hid)
      cases value with
      | node id => exact h id (by simp [Value.nodeReferences])
      | list items =>
          have hitems := transformItems_congr (show ∀ item ∈ items, _ from hchildren) 0
          rw [transformValue, transformValue, hitems]
      | tuple items =>
          have hitems := transformItems_congr (show ∀ item ∈ items, _ from hchildren) 0
          rw [transformValue, transformValue, hitems]
      | dict entries =>
          have hentries :=
            transformEntries_congr (show ∀ item ∈ entries.map Prod.snd, _ from hchildren) .key
          rw [transformValue, transformValue, hentries]
      | call id callee positional named history =>
          have hpositional := transformItems_congr
            (fun item hitem => hchildren item (List.mem_append_left _ hitem)) 0
          have hnamed := transformEntries_congr
            (fun item hitem => hchildren item (List.mem_append_right _ hitem)) .field
          rw [transformValue, transformValue, hpositional, hnamed]
      | tagged id tagNames item =>
          rw [transformValue, transformValue, hchildren item List.mem_cons_self]
      | _ => rfl

/-- What becomes of a node, given what becomes of the nodes referred to. -/
def enterNode (transformer : Transformer σ ε) (graph : ConfigGraph)
    (enter : NodeId → TransformM σ ε Value) (id : NodeId) : TransformM σ ε Value :=
  TransformM.onceForNode id do
    match graph.node id with
    | .error error => throw (transformer.ofGraphError error)
    | .ok buildable =>
        let plan ← transformer.onNode id buildable
        follow plan do
          return ⟨← transformEntries transformer enter .field buildable.arguments.entries⟩

theorem transformNode_succ (transformer : Transformer σ ε) (graph : ConfigGraph) (depth : Nat)
    (id : NodeId) : transformNode transformer graph (depth + 1) id =
      transformer.enterNode graph (transformNode transformer graph depth) id := rfl

theorem follows_enterNode (transformer : Transformer σ ε) (graph : ConfigGraph) :
    graph.Follows (transformer.enterNode graph) := by
  intro id first second h
  rw [enterNode, enterNode, graph.node_eq]
  cases hfound : graph.get? id with
  | none => rfl
  | some buildable =>
      have hsame : ∀ item ∈ buildable.arguments.values,
          transformValue transformer first item = transformValue transformer second item := by
        intro item hitem
        rw [← ConfigGraph.parts_node hfound] at hitem
        exact transformValue_congr fun child hchild =>
          h child (List.mem_flatMap.mpr ⟨item, hitem, hchild⟩)
      simp only [Option.elim_some, transformEntries_congr hsame .field]

/-- The transformation of a root at its place in which nodes are entered in the given way. -/
def runAtBy (transformer : Transformer σ ε) (enter : NodeId → TransformM σ ε Value)
    (root : Value) (base : Path) : TransformM σ ε Value :=
  ExceptT.mk do
    modify fun state => { state with path := base }
    let outcome ← (transformValue transformer enter root).run
    modify fun state => { state with path := .root }
    return outcome

theorem runAt_eq_by (transformer : Transformer σ ε) (graph : ConfigGraph) :
    transformer.runAt graph =
      transformer.runAtBy (transformNode transformer graph (graph.nodeCount + 1)) := rfl

end Transformer

end ConfigLowering
