import ConfigLowering.Proofs.Graph.Completion

/-!
# Recursion along references

A traversal makes something of a node by what it makes of the nodes referred to. A node is open
meanwhile. References of a built graph lead away from the open nodes, so that no node is entered
while it is open, and every node is done after finitely many steps.
-/

namespace ConfigLowering.ConfigGraph

open Relation

variable {β : Type} {graph : ConfigGraph}

/-! ## Guarded recursion -/

def unopened (graph : ConfigGraph) (opened : List NodeId) : List NodeId :=
  graph.ids.filter fun id => id ∉ opened

theorem length_unopened_lt {opened : List NodeId} {id : NodeId} (hknown : graph.contains id)
    (hid : id ∉ opened) :
    (graph.unopened (id :: opened)).length < (graph.unopened opened).length := by
  have hsplit : graph.unopened (id :: opened) = (graph.unopened opened).filter (· ≠ id) := by
    rw [unopened, unopened, List.filter_filter]
    exact List.filter_congr fun other _ => by simp
  rw [hsplit, List.length_filter_lt_length_iff_exists]
  rw [contains_iff_lt] at hknown
  refine ⟨id, List.mem_filter.mpr ⟨?_, by simpa using hid⟩, by simp⟩
  exact List.mem_map.mpr ⟨id.index, List.mem_range.mpr hknown, rfl⟩

/-- The recursion with an alarm at any node that is still open. Unknown nodes refer to nothing,
so they need not be opened. -/
def guarded (graph : ConfigGraph) (step : (NodeId → β) → NodeId → β) (alarm : NodeId → β)
    (opened : List NodeId) (id : NodeId) : β :=
  if id ∈ opened then alarm id
  else if graph.contains id then
    step (fun child => graph.guarded step alarm (id :: opened) child) id
  else step alarm id
termination_by (graph.unopened opened).length
decreasing_by exact length_unopened_lt ‹graph.contains id› ‹id ∉ opened›

/-- The recursion gives each node one result and ends. -/
structure Terminates (graph : ConfigGraph) (step : (NodeId → β) → NodeId → β)
    (result : NodeId → β) : Prop where
  unfolds : ∀ id, result id = step result id
  unique : ∀ other : NodeId → β, (∀ id, other id = step other id) → other = result
  /-- No node is entered while it is open, since it does not matter what would happen then. -/
  guarded : ∀ alarm, graph.guarded step alarm [] = result

/-! ## Bounded recursion -/

/-- What is made of a node hinges on nothing but what is made of its references. -/
def Follows (graph : ConfigGraph) (step : (NodeId → β) → NodeId → β) : Prop :=
  ∀ (id : NodeId) (first second : NodeId → β),
    (∀ child ∈ graph.nodeReferences id, first child = second child) → step first id = step second id

variable {step : (NodeId → β) → NodeId → β} {bounded : Nat → NodeId → β}

theorem WellFormed.rank_nodeReferences (hgraph : graph.WellFormed) {id child : NodeId} {depth : Nat}
    (hrank : graph.rank id ≤ depth + 1) (hchild : child ∈ graph.nodeReferences id) :
    graph.rank child ≤ depth := by
  have hlt := hgraph.rank_lt ((graph.mem_nodeReferences_iff id child).mp hchild)
  omega

theorem WellFormed.bounded_succ (hgraph : graph.WellFormed) (hfollows : graph.Follows step)
    (hbounded : ∀ depth id, bounded (depth + 1) id = step (bounded depth) id) {depth : Nat}
    {id : NodeId} (hrank : graph.rank id ≤ depth) : bounded (depth + 1) id = bounded depth id := by
  induction depth generalizing id with
  | zero =>
      have hpos := graph.rank_pos id
      omega
  | succ depth ih =>
      rw [hbounded, hbounded depth]
      exact hfollows id _ _ fun child hchild => ih (hgraph.rank_nodeReferences hrank hchild)

/-- A bound that covers a node gives it the result of any recursion without a bound. -/
theorem WellFormed.bounded_eq (hgraph : graph.WellFormed) (hfollows : graph.Follows step)
    (hbounded : ∀ depth id, bounded (depth + 1) id = step (bounded depth) id)
    {other : NodeId → β} (hother : ∀ id, other id = step other id) {depth : Nat} {id : NodeId}
    (hrank : graph.rank id ≤ depth) : bounded depth id = other id := by
  induction depth generalizing id with
  | zero =>
      have hpos := graph.rank_pos id
      omega
  | succ depth ih =>
      rw [hbounded, hother]
      exact hfollows id _ _ fun child hchild => ih (hgraph.rank_nodeReferences hrank hchild)

theorem WellFormed.guarded_eq (hgraph : graph.WellFormed) (hfollows : graph.Follows step)
    (hbounded : ∀ depth id, bounded (depth + 1) id = step (bounded depth) id)
    (alarm : NodeId → β) {opened : List NodeId} {depth : Nat} {id : NodeId}
    (hrank : graph.rank id ≤ depth)
    (hopened : ∀ parent ∈ opened, TransGen graph.Refers parent id) :
    graph.guarded step alarm opened id = bounded depth id := by
  induction depth generalizing opened id with
  | zero =>
      have hpos := graph.rank_pos id
      omega
  | succ depth ih =>
      -- An open node leads to this one, so it cannot be the same.
      have hid : id ∉ opened := fun hmem => hgraph.acyclic id (hopened id hmem)
      rw [guarded, if_neg hid, hbounded]
      split
      · refine hfollows id _ _ fun child hchild => ?_
        have hrefers := (graph.mem_nodeReferences_iff id child).mp hchild
        refine ih (hgraph.rank_nodeReferences hrank hchild) fun parent hparent => ?_
        obtain rfl | hparent := List.mem_cons.mp hparent
        · exact .single hrefers
        · exact (hopened parent hparent).tail hrefers
      · next hunknown =>
          refine hfollows id _ _ fun child hchild => absurd ?_ hunknown
          obtain ⟨buildable, hfound, -⟩ := (graph.mem_nodeReferences_iff id child).mp hchild
          exact (graph.contains_iff id).mpr ⟨buildable, hfound⟩

/-- A bound above the number of nodes is never used up. -/
theorem WellFormed.terminates (hgraph : graph.WellFormed) (hfollows : graph.Follows step)
    (hbounded : ∀ depth id, bounded (depth + 1) id = step (bounded depth) id) :
    graph.Terminates step (bounded (graph.nodeCount + 1)) where
  unfolds id := by
    rw [hbounded]
    refine hfollows id _ _ fun child hchild => (hgraph.bounded_succ hfollows hbounded ?_).symm
    exact hgraph.rank_nodeReferences (hgraph.rank_le id) hchild
  unique other hother := by
    funext id
    exact (hgraph.bounded_eq hfollows hbounded hother (hgraph.rank_le id)).symm
  guarded alarm := by
    funext id
    exact hgraph.guarded_eq hfollows hbounded alarm (hgraph.rank_le id) nofun

end ConfigLowering.ConfigGraph
