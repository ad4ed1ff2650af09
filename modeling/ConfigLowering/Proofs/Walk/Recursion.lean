import ConfigLowering.Proofs.Graph.Recursion
import ConfigLowering.Walk

/-!
# Walks as recursions

What a walk does at a value hinges on what it does at the references in it. So a walk is a
recursion along references.
-/

namespace ConfigLowering

namespace Walk

variable {enter further : NodeId → Path → WalkM Unit}

theorem walkItems_congr {items : List Value}
    (h : ∀ item ∈ items, ∀ path, walkValue enter item path = walkValue further item path)
    (position : Nat) (path : Path) :
    walkItems enter items position path = walkItems further items position path := by
  induction items generalizing position with
  | nil => rfl
  | cons item items ih =>
      obtain ⟨hitem, hitems⟩ := List.forall_mem_cons.mp h
      rw [walkItems, walkItems, hitem, ih hitems]

theorem walkEntries_congr {entries : List (String × Value)}
    (h : ∀ item ∈ entries.map Prod.snd, ∀ path,
      walkValue enter item path = walkValue further item path)
    (step : String → PathStep) (path : Path) :
    walkEntries enter step entries path = walkEntries further step entries path := by
  induction entries with
  | nil => rfl
  | cons entry entries ih =>
      obtain ⟨name, item⟩ := entry
      obtain ⟨hitem, hentries⟩ := List.forall_mem_cons.mp h
      rw [walkEntries, walkEntries, hitem, ih hentries]

theorem walkValue_congr {value : Value} (h : ∀ id ∈ value.nodeReferences, enter id = further id)
    (path : Path) : walkValue enter value path = walkValue further value path := by
  induction value using Value.induction_children generalizing path with
  | step value ih =>
      have hchildren : ∀ child ∈ value.children, ∀ path,
          walkValue enter child path = walkValue further child path := fun child hchild =>
        ih child hchild fun id hid => h id (Value.mem_nodeReferences_of_mem_children hchild hid)
      cases value with
      | node id => exact congrFun (h id (by simp [Value.nodeReferences])) path
      | list items =>
          have hitems := walkItems_congr (show ∀ item ∈ items, _ from hchildren) 0 path
          rw [walkValue, walkValue, hitems]
      | tuple items =>
          have hitems := walkItems_congr (show ∀ item ∈ items, _ from hchildren) 0 path
          rw [walkValue, walkValue, hitems]
      | dict entries =>
          have hentries :=
            walkEntries_congr (show ∀ item ∈ entries.map Prod.snd, _ from hchildren) .key path
          rw [walkValue, walkValue, hentries]
      | call id callee positional named history =>
          have hpositional := walkItems_congr
            (fun item hitem => hchildren item (List.mem_append_left _ hitem)) 0 path
          have hnamed := walkEntries_congr
            (fun item hitem => hchildren item (List.mem_append_right _ hitem)) .field path
          rw [walkValue, walkValue, hpositional, hnamed]
      | tagged id tagNames item =>
          rw [walkValue, walkValue, hchildren item List.mem_cons_self]
      | _ => rfl

/-- What a walk does at a node, given what it does at the nodes referred to. -/
def enterNode (graph : ConfigGraph) (enter : NodeId → Path → WalkM Unit) (id : NodeId)
    (path : Path) : WalkM Unit := do
  if ← mark id then
    let buildable ← graph.node id
    record (.node id buildable) path
    walkEntries enter .field buildable.arguments.entries path

theorem walkNode_succ (graph : ConfigGraph) (depth : Nat) (id : NodeId) :
    walkNode graph (depth + 1) id = enterNode graph (walkNode graph depth) id := rfl

theorem follows_enterNode (graph : ConfigGraph) : graph.Follows (enterNode graph) := by
  intro id first second h
  funext path
  rw [enterNode, enterNode, graph.node_eq]
  cases hfound : graph.get? id with
  | none => rfl
  | some buildable =>
      have hsame : ∀ item ∈ buildable.arguments.values, ∀ path,
          walkValue first item path = walkValue second item path := by
        intro item hitem
        rw [← ConfigGraph.parts_node hfound] at hitem
        exact walkValue_congr fun child hchild =>
          h child (List.mem_flatMap.mpr ⟨item, hitem, hchild⟩)
      exact congrArg (fun below => do
        if ← mark id then
          record (.node id buildable) path
          below) (walkEntries_congr hsame .field path)

end Walk

namespace ConfigGraph

/-- The listing in which nodes are entered in the given way. -/
def iterateAllBy (enter : NodeId → Path → WalkM Unit) (roots : List (Value × Path)) :
    Except GraphError (List (Visit × Path)) := do
  let (_, walk) ← (roots.forM fun (root, base) => Walk.walkValue enter root base).run .empty
  return walk.entries.toList

theorem iterateAll_eq_by (graph : ConfigGraph) (roots : List (Value × Path)) :
    graph.iterateAll roots =
      iterateAllBy (Walk.walkNode graph (graph.nodeCount + 1)) roots := rfl

end ConfigGraph

end ConfigLowering
