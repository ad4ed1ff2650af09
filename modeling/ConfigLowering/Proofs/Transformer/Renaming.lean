import ConfigLowering.Proofs.Graph.Renaming
import ConfigLowering.Proofs.Transformer.Mirroring

/-!
# Transforming with other numbers

The engine keeps results under the numbers of nodes and looks them up there. It does nothing
else with these numbers, so a transformer that does not look at them either gives the same
results and the same failures in a graph whose nodes have other numbers.
-/

namespace ConfigLowering

variable {σ ε : Type} {change : NodeId → NodeId}

/-- The state in which kept results stand under other numbers. -/
def TransformState.renumber (change : NodeId → NodeId) (state : TransformState σ) :
    TransformState σ :=
  { state with nodeResults := state.nodeResults.map fun (id, result) => (change id, result) }

@[simp] theorem TransformState.context_renumber (state : TransformState σ) :
    (state.renumber change).context = state.context := rfl

theorem TransformState.lookup_renumber (hchange : Function.Injective change)
    (state : TransformState σ) (id : NodeId) :
    (state.renumber change).nodeResults.lookup (change id) = state.nodeResults.lookup id := by
  have hlookup : ∀ results : List (NodeId × Value),
      (results.map fun (id, result) => (change id, result)).lookup (change id) =
        results.lookup id := by
    intro results
    induction results with
    | nil => rfl
    | cons entry results ih =>
        rw [List.map_cons, Arguments.lookup_cons_ite, Arguments.lookup_cons_ite, ih]
        simp only [hchange.eq_iff]
  exact hlookup state.nodeResults

theorem TransformState.shows_renumber (change : NodeId → NodeId) :
    Shows (renumber (σ := σ) change) :=
  ⟨fun _ => rfl, fun _ => rfl, fun _ => rfl, fun _ _ => rfl, fun _ _ => rfl, fun _ _ => rfl⟩

namespace Transformer

open TransformM (Mirrors mirrors_pure)
open TransformState (renumber shows_renumber)

/-- The transformer does not look at numbers of nodes, neither at that of the node it is given
nor at those that values refer to. -/
def Blind (transformer : Transformer σ ε) (change : NodeId → NodeId) : Prop :=
  transformer.MirroredBy transformer (renumber change) change

variable {transformer : Transformer σ ε} {graph other : ConfigGraph}

theorem mirrors_transformNode (h : transformer.Blind change) (hgraph : graph.WellFormed)
    (hrenames : graph.Renames other change) {depth : Nat} {id : NodeId}
    (hhosts : graph.Hosts depth (.node id)) :
    Mirrors (renumber change) (transformer.transformNode graph depth id)
      (transformer.transformNode other depth (change id)) := by
  induction depth generalizing id with
  | zero => exact absurd hhosts (ConfigGraph.not_hosts_zero id)
  | succ depth ih =>
      obtain ⟨buildable, hnode⟩ := hhosts.exists_node
      have hfound : graph.node id = .ok buildable := by simp [ConfigGraph.node, hnode]
      rw [transformNode, transformNode, hfound, hrenames.node hnode]
      refine Mirrors.onceForNode ?_ (fun state => state.lookup_renumber hrenames.injective id)
        fun _ _ => rfl
      have harguments := mirrors_transformEntries (shows_renumber change) (fun item hitem =>
        mirrors_transformValue (shows_renumber change) h fun child hchild =>
          ih ((hhosts.argument hgraph (ConfigGraph.parts_node hnode ▸ hitem :
            item ∈ graph.parts (.node id))).reference hchild)) .field
      rw [Value.renameEntries_eq] at harguments
      exact h.onNode id buildable _ _ (harguments.bind fun _ => mirrors_pure _)

theorem mirrors_runAt (h : transformer.Blind change) (hgraph : graph.WellFormed)
    (hrenames : graph.Renames other change) {root : Value}
    (hroot : ∀ id ∈ root.nodeReferences, graph.contains id) (base : Path) :
    Mirrors (renumber change) (transformer.runAt graph root base)
      (transformer.runAt other (root.rename change) base) := by
  have htransformed : Mirrors (renumber change) (transformer.transformRoot graph root)
      (transformer.transformRoot other (root.rename change)) := by
    rw [transformRoot, transformRoot, hrenames.nodeCount]
    exact mirrors_transformValue (shows_renumber change) h fun id hid =>
      mirrors_transformNode h hgraph hrenames ((hgraph.hosts hroot).reference hid)
  exact htransformed.around (fun _ => rfl) fun _ => rfl

end Transformer

end ConfigLowering
