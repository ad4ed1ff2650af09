import ConfigLowering.Proofs.Graph.Assignment
import ConfigLowering.Proofs.Graph.Completion
import ConfigLowering.Proofs.Graph.Exploration
import ConfigLowering.Proofs.Outcome

/-!
# The order of edges

Edges stand in the order in which they were added. An assignment lets the edges of its argument
come last, even where the argument keeps its place among the arguments. So only a graph in which
no argument was assigned twice has its edges in the order of the arguments.
-/

namespace ConfigLowering

open Relation

/-- The assignment would replace a value that the argument has in the graph. -/
def GraphOperation.Reassigns (graph : ConfigGraph) : GraphOperation → Prop
  | setArgument id name value =>
      ∃ old after, graph.setArgument id name value = (.ok (some old), after)
  | _ => False

def GraphOperation.Retags : GraphOperation → Prop
  | addTag .. | removeTag .. | clearTags .. => True
  | _ => False

theorem Buildable.references_assign_of_not_mem {buildable : Buildable} {name : String}
    (h : name ∉ buildable.arguments.names) (value : Value) :
    (buildable.assign name value).references =
      buildable.references ++ value.nodeReferences.map fun child => (name, child) := by
  simp only [references, assign, Arguments.insert]
  rw [Arguments.insertEntry_of_not_mem h value]
  simp

theorem Buildable.name_mem_of_mem_references {buildable : Buildable} {name : String}
    {child : NodeId} (h : (name, child) ∈ buildable.references) :
    name ∈ buildable.arguments.names := by
  obtain ⟨entry, hentry, hreference⟩ := List.mem_flatMap.mp h
  obtain ⟨_, -, hsame⟩ := List.mem_map.mp hreference
  exact (Prod.mk.inj hsame).1 ▸ List.mem_map_of_mem hentry

namespace ConfigGraph

/-- The graphs that operations lead to which assign no argument that has a value. -/
inductive BuiltOnce : ConfigGraph → Prop
  | empty : BuiltOnce .empty
  | perform {graph : ConfigGraph} (operation : GraphOperation) :
      BuiltOnce graph → operation.Admissible → ¬ operation.Reassigns graph →
      BuiltOnce (graph.perform operation)

/-- What the edges of a node refer to and for which argument, the oldest edge first. -/
def outgoing (graph : ConfigGraph) (parent : NodeId) : List (String × NodeId) :=
  (graph.edges.filter (·.parent = parent)).map fun edge => (edge.argument, edge.child)

theorem map_snd_outgoing (graph : ConfigGraph) (parent : NodeId) :
    (graph.outgoing parent).map Prod.snd = graph.children parent := by
  rw [outgoing, List.map_map]
  rfl

variable {graph after : ConfigGraph} {id : NodeId}

theorem BuiltOnce.built (h : graph.BuiltOnce) : graph.Built := by
  induction h with
  | empty => exact .empty
  | perform operation _ hadmissible _ ih => exact .perform operation ih hadmissible

/-! ## Edges after operations -/

theorem outgoing_append (nodes : List Buildable) (edges : List Edge)
    (references : List (String × NodeId)) (id parent : NodeId) :
    outgoing ⟨nodes, edges ++ references.map fun (argument, child) => ⟨id, child, argument⟩⟩
        parent =
      outgoing ⟨nodes, edges⟩ parent ++ if parent = id then references else [] := by
  simp only [outgoing, List.filter_append, List.map_append, List.filter_map, List.map_map]
  by_cases hparent : parent = id
  · simp [hparent, Function.comp_def]
  · simp [hparent, Ne.symm hparent, Function.comp_def]

theorem WellFormed.outgoing_new (h : graph.WellFormed) :
    graph.outgoing ⟨graph.nodeCount⟩ = [] := by
  have hlinks : graph.children ⟨graph.nodeCount⟩ = [] := by
    rw [List.eq_nil_iff_forall_not_mem]
    intro child hchild
    obtain ⟨buildable, hfound, -⟩ := (h.links_iff _ child).mp hchild
    simp [get?, nodeCount] at hfound
  rw [← map_snd_outgoing] at hlinks
  exact List.map_eq_nil_iff.mp hlinks

theorem WellFormed.outgoing_addNode (h : graph.WellFormed) {buildable : Buildable}
    (hadd : graph.addNode buildable = (.ok id, after)) (parent : NodeId) :
    after.outgoing parent = if parent = id then buildable.references else graph.outgoing parent := by
  obtain ⟨-, rfl, rfl⟩ := (graph.addNode_eq_ok_iff buildable id after).mp hadd
  rw [outgoing_append]
  by_cases hparent : parent = ⟨graph.nodeCount⟩
  · have hnone := h.outgoing_new
    rw [if_pos hparent, if_pos hparent, hparent]
    rw [outgoing] at hnone ⊢
    rw [hnone, List.nil_append]
  · rw [if_neg hparent, if_neg hparent, List.append_nil]
    rfl

theorem outgoing_assigned (graph : ConfigGraph) (id : NodeId) (buildable : Buildable)
    (name : String) (value : Value) (parent : NodeId) :
    (graph.assigned id buildable name value).outgoing parent =
      if parent = id then
        (graph.outgoing id).filter (·.1 ≠ name) ++
          value.nodeReferences.map fun child => (name, child)
      else graph.outgoing parent := by
  have hadded : (value.nodeReferences.map fun child => (⟨id, child, name⟩ : Edge)) =
      (value.nodeReferences.map fun child => (name, child)).map
        fun (argument, child) => ⟨id, child, argument⟩ := by
    rw [List.map_map]
    rfl
  rw [assigned, hadded, outgoing_append]
  by_cases hparent : parent = id
  · subst hparent
    rw [if_pos rfl, if_pos rfl]
    congr 1
    simp only [outgoing, List.filter_map, List.filter_filter]
    congr 1
    apply List.filter_congr
    grind
  · rw [if_neg hparent, if_neg hparent, List.append_nil]
    simp only [outgoing, List.filter_filter]
    congr 1
    apply List.filter_congr
    grind

/-- The edges of other arguments keep their order, and those of the assigned one come last. -/
theorem outgoing_setArgument {name : String} {value : Value} {displaced : Option Value}
    (hset : graph.setArgument id name value = (.ok displaced, after)) (parent : NodeId) :
    after.outgoing parent =
      if parent = id then
        (graph.outgoing id).filter (·.1 ≠ name) ++
          value.nodeReferences.map fun child => (name, child)
      else graph.outgoing parent := by
  obtain ⟨buildable, -, -, -, rfl⟩ :=
    (graph.setArgument_eq_ok_iff id name value displaced after).mp hset
  exact graph.outgoing_assigned id buildable name value parent

/-! ## Tags -/

/-- Nothing but tags differs. -/
structure Retagged (graph after : ConfigGraph) : Prop where
  edges : after.edges = graph.edges
  arguments : ∀ id, (after.get? id).map Buildable.arguments =
    (graph.get? id).map Buildable.arguments

theorem retagged_replaceNode {before buildable : Buildable} (hbefore : graph.get? id = some before)
    (harguments : buildable.arguments = before.arguments) :
    Retagged graph (graph.replaceNode id buildable) := by
  refine ⟨rfl, fun other => ?_⟩
  rw [get?_replaceNode ((graph.contains_iff id).mpr ⟨before, hbefore⟩)]
  by_cases hother : other = id
  · simp [hother, hbefore, harguments]
  · rw [if_neg hother]

theorem retagged_perform {operation : GraphOperation} (h : operation.Retags) :
    Retagged graph (graph.perform operation) := by
  obtain ⟨buildable, id, rfl, -⟩ | ⟨id, name, value, displaced, rfl, -⟩ |
    ⟨id, before, after, hbefore, -, harguments, hsame⟩ | hsame := graph.perform_cases operation
  · contradiction
  · contradiction
  · rw [hsame]
    exact retagged_replaceNode hbefore harguments
  · rw [hsame]
    exact ⟨rfl, fun _ => rfl⟩

/-! ## Arguments assigned once -/

/-- The edges of each node are the references of its arguments in their order. -/
def InArgumentOrder (graph : ConfigGraph) : Prop :=
  ∀ id, graph.outgoing id = (graph.get? id).elim [] Buildable.references

theorem InArgumentOrder.children (h : graph.InArgumentOrder) :
    graph.children = graph.nodeReferences := by
  funext id
  rw [← map_snd_outgoing, h id, nodeReferences]
  cases hfound : graph.get? id with
  | none => simp [parts, hfound]
  | some buildable =>
      simp [parts_node hfound, Buildable.references, Arguments.values, List.map_flatMap,
        List.flatMap_map, Function.comp_def]

theorem InArgumentOrder.addNode (h : graph.InArgumentOrder) (hgraph : graph.WellFormed)
    {buildable : Buildable} (hadd : graph.addNode buildable = (.ok id, after)) :
    after.InArgumentOrder := by
  intro parent
  rw [hgraph.outgoing_addNode hadd]
  obtain ⟨-, rfl, rfl⟩ := (graph.addNode_eq_ok_iff buildable id after).mp hadd
  rw [get?_append]
  split
  · rfl
  · exact h parent

theorem InArgumentOrder.setArgument (h : graph.InArgumentOrder) {name : String} {value : Value}
    (hset : graph.setArgument id name value = (.ok none, after)) : after.InArgumentOrder := by
  intro parent
  rw [outgoing_setArgument hset]
  obtain ⟨buildable, hbuildable, -, hnone, rfl⟩ :=
    (graph.setArgument_eq_ok_iff id name value none after).mp hset
  rw [get?_assigned ((graph.contains_iff id).mpr ⟨buildable, hbuildable⟩)]
  split
  · -- The argument is new, so it comes last among the arguments as its edges do.
    have hname := (buildable.arguments.get?_eq_none_iff name).mp hnone.symm
    rw [h id, hbuildable, Option.elim_some, Option.elim_some,
      Buildable.references_assign_of_not_mem hname]
    congr 1
    rw [List.filter_eq_self]
    intro reference hreference
    have hother := Buildable.name_mem_of_mem_references hreference
    simpa using fun hsame : reference.1 = name => hname (hsame ▸ hother)
  · exact h parent

theorem InArgumentOrder.retagged (h : graph.InArgumentOrder) (hretagged : Retagged graph after) :
    after.InArgumentOrder := by
  intro id
  have harguments := hretagged.arguments id
  rw [outgoing, hretagged.edges]
  refine (h id).trans ?_
  cases hbefore : graph.get? id <;> cases hafter : after.get? id <;>
    simp_all [Buildable.references]

theorem BuiltOnce.inArgumentOrder (h : graph.BuiltOnce) : graph.InArgumentOrder := by
  induction h with
  | empty => exact fun _ => rfl
  | @perform graph operation hbefore hadmissible honce ih =>
      obtain ⟨buildable, id, rfl, hadd⟩ | ⟨id, name, value, displaced, rfl, hset⟩ |
        ⟨id, before, after, hfound, -, harguments, hsame⟩ | hsame := graph.perform_cases operation
      · exact ih.addNode hbefore.built.wellFormed hadd
      · cases displaced with
        | none => exact ih.setArgument hset
        | some old => exact absurd ⟨old, _, hset⟩ honce
      · rw [hsame]
        exact ih.retagged (retagged_replaceNode hfound harguments)
      · rwa [hsame]

/-! ## The order of the search -/

/-- The nodes that can be reached come in the order of one recursive search that follows the
edges of each node from the oldest on, although every known reference starts a search anew.
A new node has an edge for each of its references, an assignment moves the edges of its
argument to the end, and tags change none. -/
theorem reachable_depth_first (h : graph.Built) (root : Value) :
    (∀ order, Explores (fun id => (graph.outgoing id).map Prod.snd) []
        (root.nodeReferences.filter graph.contains) order ↔ order = graph.reachable root) ∧
      (graph.reachable root).Nodup ∧
      (∀ id, id ∈ graph.reachable root ↔
        ∃ start ∈ root.nodeReferences, graph.contains start ∧
          ReflTransGen graph.Refers start id) ∧
      (∀ buildable id after, graph.addNode buildable = (.ok id, after) → ∀ parent,
        after.outgoing parent =
          if parent = id then buildable.references else graph.outgoing parent) ∧
      (∀ id name value displaced after,
        graph.setArgument id name value = (.ok displaced, after) → ∀ parent,
        after.outgoing parent =
          if parent = id then
            (graph.outgoing id).filter (·.1 ≠ name) ++
              value.nodeReferences.map fun child => (name, child)
          else graph.outgoing parent) ∧
      ∀ operation : GraphOperation, operation.Retags → ∀ parent,
        (graph.perform operation).outgoing parent = graph.outgoing parent := by
  have hwell := h.wellFormed
  have hexplores := graph.explores_reachable root
  have hnext : (fun id => (graph.outgoing id).map Prod.snd) = graph.children :=
    funext graph.map_snd_outgoing
  have hrefers : (fun parent child => child ∈ graph.children parent) = graph.Refers := by
    funext parent child
    exact propext (hwell.links_iff parent child)
  refine ⟨fun order => ?_, hexplores.nodup List.nodup_nil, fun id => ?_, ?_, ?_, ?_⟩
  · rw [hnext]
    constructor
    · exact fun horder => horder.unique hexplores
    · rintro rfl
      exact hexplores
  · rw [hexplores.mem_iff, hrefers]
    simp only [List.mem_filter, and_assoc]
  · exact fun _ _ _ hadd parent => hwell.outgoing_addNode hadd parent
  · exact fun _ _ _ _ _ hset parent => outgoing_setArgument hset parent
  · intro operation htags parent
    rw [outgoing, (retagged_perform htags).edges, outgoing]

/-- The chain with a node that refers to both of its nodes. -/
def pairOverChain : ConfigGraph :=
  twoNodeChain.perform (.addNode
    (((Buildable.ofCallable .config (.classType "models" "Pair")).assign "left"
      (.node ⟨0⟩)).assign "right" (.node ⟨1⟩)))

theorem builtOnce_pairOverChain : pairOverChain.BuiltOnce :=
  .perform _ (.perform _ (.perform _ .empty (.ofCallable _ _) id) (.assign _ _ (.ofCallable _ _))
    id) (.assign _ _ (.assign _ _ (.ofCallable _ _))) id

/-- Assigning its first argument the same value again makes it the last to be followed. -/
def reorderedPair : ConfigGraph :=
  pairOverChain.perform (.setArgument ⟨2⟩ "left" (.node ⟨0⟩))

theorem built_reorderedPair : reorderedPair.Built :=
  .perform _ builtOnce_pairOverChain.built trivial

theorem reachable_reorderedPair :
    reorderedPair.Built ∧ reorderedPair.reachable (.node ⟨2⟩) = [⟨2⟩, ⟨1⟩, ⟨0⟩] := by
  obtain ⟨horder, -⟩ := reachable_depth_first built_reorderedPair (.node ⟨2⟩)
  have hinner : Explores (fun id => (reorderedPair.outgoing id).map Prod.snd) [⟨2⟩, ⟨1⟩]
      [⟨0⟩] [⟨2⟩, ⟨1⟩, ⟨0⟩] := .fresh (by decide) (.nil _) (.nil _)
  have hpair : Explores (fun id => (reorderedPair.outgoing id).map Prod.snd) [⟨2⟩]
      [⟨1⟩, ⟨0⟩] [⟨2⟩, ⟨1⟩, ⟨0⟩] := .fresh (by decide) hinner (.known (by decide) (.nil _))
  refine ⟨built_reorderedPair, ((horder _).mp ?_).symm⟩
  exact .fresh (by decide) hpair (.nil _)

end ConfigGraph

end ConfigLowering
