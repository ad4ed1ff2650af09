import ConfigLowering.Proofs.Graph.Parts
import ConfigLowering.Proofs.Value.Renaming

/-!
# Graphs with other numbers

Two graphs that hold the same nodes under other numbers. What a graph knows all references
of can be followed in both in the same way.
-/

namespace ConfigLowering.ConfigGraph

/-- The other graph has the same nodes under changed numbers. -/
structure Renames (graph other : ConfigGraph) (change : NodeId → NodeId) : Prop where
  injective : Function.Injective change
  get? : ∀ id, other.get? (change id) = (graph.get? id).map (Buildable.rename change)
  nodeCount : other.nodeCount = graph.nodeCount

/-- References in the value are known, and the depth suffices to follow them. -/
structure Hosts (graph : ConfigGraph) (depth : Nat) (value : Value) : Prop where
  covers : graph.Covers depth value
  known : ∀ id ∈ value.nodeReferences, graph.contains id

variable {graph : ConfigGraph} {depth : Nat}

theorem Hosts.child {whole part : Value} (h : graph.Hosts depth whole)
    (hpart : part ∈ whole.children) : graph.Hosts depth part :=
  ⟨h.covers.children hpart,
    fun id hid => h.known id (Value.mem_nodeReferences_of_mem_children hpart hid)⟩

theorem Hosts.reference {value : Value} (h : graph.Hosts depth value) {id : NodeId}
    (hid : id ∈ value.nodeReferences) : graph.Hosts depth (.node id) where
  covers := by simpa [Covers, Value.nodeReferences] using h.covers id hid
  known := by simpa [Value.nodeReferences] using h.known id hid

theorem Hosts.argument {id : NodeId} (h : graph.Hosts (depth + 1) (.node id))
    (hgraph : graph.WellFormed) {argument : Value} (hargument : argument ∈ graph.parts (.node id)) :
    graph.Hosts depth argument := by
  refine ⟨hgraph.covers_argument (h.covers id (by simp [Value.nodeReferences])) hargument, ?_⟩
  intro child hchild
  exact hgraph.known id child ((graph.refers_iff_parts id child).mpr ⟨argument, hargument, hchild⟩)

theorem Hosts.exists_node {id : NodeId} (h : graph.Hosts depth (.node id)) :
    ∃ buildable, graph.get? id = some buildable :=
  (graph.contains_iff id).mp (h.known id (by simp [Value.nodeReferences]))

/-- Every node is followed at a depth of at least one. -/
theorem not_hosts_zero (id : NodeId) : ¬ graph.Hosts 0 (.node id) := by
  intro h
  have hrank := h.covers id (by simp [Value.nodeReferences])
  have hpos := graph.rank_pos id
  omega

theorem WellFormed.hosts (hgraph : graph.WellFormed) {value : Value}
    (h : ∀ id ∈ value.nodeReferences, graph.contains id) :
    graph.Hosts (graph.nodeCount + 1) value :=
  ⟨fun id _ => hgraph.rank_le id, h⟩

theorem Renames.refl (graph : ConfigGraph) : graph.Renames graph id where
  injective := Function.injective_id
  get? _ := by rw [Buildable.rename_id, Option.map_id_apply, id]
  nodeCount := rfl

theorem Renames.node {change : NodeId → NodeId} {other : ConfigGraph}
    (h : graph.Renames other change) {id : NodeId} {buildable : Buildable}
    (hnode : graph.get? id = some buildable) :
    other.node (change id) = .ok (buildable.rename change) := by
  simp [ConfigGraph.node, h.get?, hnode]

end ConfigLowering.ConfigGraph
