import ConfigLowering.Proofs.Graph.Completion

/-!
# Discovery order

A traversal that lists each node where it first comes to it, before the references of the node,
discovers the nodes in this order. Completion order has the same nodes, but each of them only
behind its references.
-/

namespace ConfigLowering.ConfigGraph

/-- The nodes that are seen after a node, which come behind those that were before it. -/
def discover (graph : ConfigGraph) : Nat → List NodeId → NodeId → List NodeId
  | 0, seen, _ => seen
  | depth + 1, seen, id =>
      if id ∈ seen then seen
      else (graph.nodeReferences id).foldl (graph.discover depth) (seen ++ [id])

def discoverAll (graph : ConfigGraph) (depth : Nat) (seen ids : List NodeId) : List NodeId :=
  ids.foldl (graph.discover depth) seen

/-- The nodes below some values in the order in which they are discovered. -/
def discoveryOrder (graph : ConfigGraph) (values : List Value) : List NodeId :=
  graph.discoverAll (graph.nodeCount + 1) [] (values.flatMap Value.nodeReferences)

variable {graph : ConfigGraph}

@[simp] theorem discoverAll_nil (depth : Nat) (seen : List NodeId) :
    graph.discoverAll depth seen [] = seen := rfl

@[simp] theorem discoverAll_cons (depth : Nat) (seen : List NodeId) (id : NodeId)
    (ids : List NodeId) :
    graph.discoverAll depth seen (id :: ids) =
      graph.discoverAll depth (graph.discover depth seen id) ids := rfl

@[simp] theorem discoverAll_append (depth : Nat) (seen ids more : List NodeId) :
    graph.discoverAll depth seen (ids ++ more) =
      graph.discoverAll depth (graph.discoverAll depth seen ids) more :=
  List.foldl_append

theorem discover_of_mem {id : NodeId} {seen : List NodeId} (h : id ∈ seen) (depth : Nat) :
    graph.discover depth seen id = seen := by
  cases depth <;> simp [discover, h]

theorem discoverAll_of_subset {seen ids : List NodeId} (h : ids ⊆ seen) (depth : Nat) :
    graph.discoverAll depth seen ids = seen := by
  induction ids with
  | nil => rfl
  | cons id ids ih =>
      obtain ⟨hid, hids⟩ := List.cons_subset.mp h
      rw [discoverAll_cons, discover_of_mem hid, ih hids]

/-- A node that is new comes next, and then what its references discover. -/
theorem WellFormed.discover_of_not_mem (hgraph : graph.WellFormed) {id : NodeId}
    {seen : List NodeId} (h : id ∉ seen) {depth : Nat} (hrank : graph.rank id ≤ depth) :
    ∃ fewer, (∀ child ∈ graph.nodeReferences id, graph.rank child ≤ fewer) ∧
      graph.discover depth seen id =
        graph.discoverAll fewer (seen ++ [id]) (graph.nodeReferences id) := by
  have hpos := graph.rank_pos id
  obtain _ | fewer := depth
  · omega
  · refine ⟨fewer, fun child hchild => ?_, by simp [discover, discoverAll, h]⟩
    have hlt := hgraph.rank_lt ((graph.mem_nodeReferences_iff id child).mp hchild)
    omega

end ConfigLowering.ConfigGraph
