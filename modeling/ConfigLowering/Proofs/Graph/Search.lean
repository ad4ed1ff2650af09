import ConfigLowering.Graph
import ConfigLowering.Proofs.Graph.Exploration

/-!
# Depth-first search

The search from a node explores what edges lead to. The steps it is given suffice: a step
either drops a node from the stack or uses up the edges of a node that was not found before.
A search that starts anew at each root goes the same way as one that goes on, once what an
earlier root has led to is left out.
-/

namespace ConfigLowering.ConfigGraph

open Relation

def Links (graph : ConfigGraph) (parent child : NodeId) : Prop :=
  child ∈ graph.children parent

/-- Edges whose parent a search has still to discover. -/
def pendingEdges (graph : ConfigGraph) (found : List NodeId) : Nat :=
  graph.edges.countP fun edge => !found.contains edge.parent

theorem pendingEdges_discover (graph : ConfigGraph) {id : NodeId}
    {found : List NodeId} (hid : id ∉ found) :
    graph.pendingEdges (found ++ [id]) + (graph.children id).length =
      graph.pendingEdges found := by
  simp only [pendingEdges, children, List.length_map, ← List.countP_eq_length_filter]
  induction graph.edges with
  | nil => rfl
  | cons edge edges ih =>
      simp only [List.countP_cons]
      by_cases hedge : edge.parent = id
      · subst hedge
        simp_all
        omega
      · simp_all
        omega

/-! ## Search with a stack -/

/-- A search that has steps for its stack and for all edges that it has still to follow explores
what is on the stack. The nodes that it finds already known it does not even put there. -/
theorem explores_searchSteps (graph : ConfigGraph) (steps : Nat) (stack found : List NodeId)
    (hsteps : stack.length + graph.pendingEdges found ≤ steps) :
    Explores graph.children found stack (graph.searchSteps steps stack found) := by
  fun_induction searchSteps graph steps stack found with
  | case1 stack found =>
      have hstack : stack = [] := List.eq_nil_of_length_eq_zero (by omega)
      subst hstack
      exact .nil found
  | case2 => exact .nil _
  | case3 steps top stack found hfound ih =>
      exact .known (by simpa using hfound) (ih (by simp at hsteps; omega))
  | case4 steps top stack found hfound found' fresh ih =>
      have hnew : top ∉ found := by simpa using hfound
      have hfresh : fresh.length ≤ (graph.children top).length := List.length_filter_le _ _
      have hspent := graph.pendingEdges_discover hnew
      obtain ⟨between, hchildren, hstack⟩ :=
        (ih (by simp [found'] at hsteps ⊢; omega)).exists_of_append
      exact .fresh hnew (.of_filter (List.Subset.refl _) hchildren) hstack

theorem explores_search (graph : ConfigGraph) (start : NodeId) :
    Explores graph.children [] [start] (graph.search start) :=
  graph.explores_searchSteps _ _ _ (by simp [pendingEdges]; omega)

/-! ## Paths -/

theorem search_nodup (graph : ConfigGraph) (start : NodeId) :
    (graph.search start).Nodup :=
  (graph.explores_search start).nodup List.nodup_nil

theorem mem_search_iff (graph : ConfigGraph) (start id : NodeId) :
    id ∈ graph.search start ↔ ReflTransGen graph.Links start id := by
  rw [(graph.explores_search start).mem_iff]
  simp only [List.mem_singleton, exists_eq_left]
  rfl

theorem hasPath_iff (graph : ConfigGraph) (source target : NodeId) :
    graph.hasPath source target ↔ ReflTransGen graph.Links source target := by
  rw [hasPath, List.contains_iff_mem, mem_search_iff]

/-! ## Search from one root after the other -/

/-- Beside a closed list a search anew adds what an exploration adds that goes on. -/
theorem explores_anew (graph : ConfigGraph) (start : NodeId) {found : List NodeId}
    (hfound : ∀ id ∈ found, graph.children id ⊆ found) :
    Explores graph.children found ([start].filter graph.contains)
      (if !graph.contains start || found.contains start then found
        else found ++ (graph.search start).filter (!found.contains ·)) := by
  by_cases hstart : graph.contains start
  · rw [List.filter_cons_of_pos hstart, List.filter_nil]
    by_cases hknown : found.contains start
    · rw [if_pos (by rw [hknown, Bool.or_true])]
      exact .known (List.contains_iff_mem.mp hknown) (.nil found)
    · rw [if_neg (by simpa [hstart] using hknown)]
      simpa using (graph.explores_search start).beside hfound
  · rw [List.filter_cons_of_neg hstart, List.filter_nil, if_pos (by simp [hstart])]
    exact .nil found

theorem explores_foldl (graph : ConfigGraph) (starts : List NodeId) {found : List NodeId}
    (hfound : ∀ id ∈ found, graph.children id ⊆ found) :
    Explores graph.children found (starts.filter graph.contains)
      (starts.foldl (fun found start =>
        if !graph.contains start || found.contains start then found
        else found ++ (graph.search start).filter (!found.contains ·)) found) := by
  induction starts generalizing found with
  | nil => exact .nil found
  | cons start starts ih =>
      have hstart := graph.explores_anew start hfound
      rw [List.foldl_cons, ← List.singleton_append, List.filter_append]
      refine hstart.append (ih fun id hid => ?_)
      obtain hid | hclosed := hstart.closes id hid
      · exact List.Subset.trans (hfound id hid) hstart.subset
      · exact hclosed

theorem explores_reachable (graph : ConfigGraph) (root : Value) :
    Explores graph.children [] (root.nodeReferences.filter graph.contains)
      (graph.reachable root) :=
  graph.explores_foldl root.nodeReferences nofun

end ConfigLowering.ConfigGraph
