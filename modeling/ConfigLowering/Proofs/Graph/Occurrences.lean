import Mathlib
import ConfigLowering.Proofs.Graph.Invariant

/-!
# Edges count occurrences

In a built graph there is one edge for each place where an argument mentions a node.
So the questions that edges answer, which nodes are parents of a node and whether it
is shared, are answered as the arguments would answer them.
-/

namespace ConfigLowering

/-! ## Occurrences in values -/

namespace Value

mutual

/-- The number of places of a value that hold a reference to a config node. -/
def occurrences (target : NodeId) : Value → Nat
  | node id => if id = target then 1 else 0
  | list items | tuple items => occurrencesInItems target items
  | dict entries => occurrencesInEntries target entries
  | call _ _ positional named _ =>
      occurrencesInItems target positional + occurrencesInEntries target named
  | tagged _ _ item => occurrences target item
  | _ => 0

def occurrencesInItems (target : NodeId) : List Value → Nat
  | [] => 0
  | item :: items => occurrences target item + occurrencesInItems target items

def occurrencesInEntries (target : NodeId) : List (String × Value) → Nat
  | [] => 0
  | (_, item) :: entries => occurrences target item + occurrencesInEntries target entries

end

mutual

theorem count_nodeReferences (target : NodeId) (value : Value) :
    value.nodeReferences.count target = value.occurrences target := by
  cases value with
  | node id => simp [nodeReferences, occurrences, List.count_singleton]
  | list items => exact count_nodeReferencesOfItems target items
  | tuple items => exact count_nodeReferencesOfItems target items
  | dict entries => exact count_nodeReferencesOfEntries target entries
  | call id callee positional named history =>
      rw [nodeReferences, List.count_append, count_nodeReferencesOfItems target positional,
        count_nodeReferencesOfEntries target named, occurrences]
  | tagged id tagNames item => exact count_nodeReferences target item
  | _ => rfl

theorem count_nodeReferencesOfItems (target : NodeId) (items : List Value) :
    (nodeReferencesOfItems items).count target = occurrencesInItems target items := by
  cases items with
  | nil => rfl
  | cons item items =>
      rw [nodeReferencesOfItems, List.count_append, count_nodeReferences target item,
        count_nodeReferencesOfItems target items, occurrencesInItems]

theorem count_nodeReferencesOfEntries (target : NodeId) (entries : List (String × Value)) :
    (nodeReferencesOfEntries entries).count target = occurrencesInEntries target entries := by
  cases entries with
  | nil => rfl
  | cons entry entries =>
      obtain ⟨name, item⟩ := entry
      rw [nodeReferencesOfEntries, List.count_append, count_nodeReferences target item,
        count_nodeReferencesOfEntries target entries, occurrencesInEntries]

end

end Value

/-! ## Occurrences in nodes -/

theorem Buildable.count_references {buildable : Buildable}
    (h : buildable.arguments.names.Nodup) (argument : String) (child : NodeId) :
    buildable.references.count (argument, child) =
      (buildable.arguments.get? argument).elim 0 (Value.occurrences child) := by
  have hcount : buildable.references.count (argument, child) =
      ((buildable.references.filter fun reference => reference.1 = argument).map
        Prod.snd).count child := by
    rw [List.count, List.count, List.countP_map, List.countP_filter]
    congr 1
    funext ⟨name, id⟩
    rw [Bool.eq_iff_iff]
    simp [and_comm]
  rw [hcount, references_at h]
  cases buildable.arguments.get? argument with
  | none => rfl
  | some value => exact value.count_nodeReferences child

theorem Buildable.countP_references (buildable : Buildable) (child : NodeId) :
    buildable.references.countP (fun reference => reference.2 = child) =
      (buildable.arguments.values.map (Value.occurrences child)).sum := by
  rw [references, List.countP_flatMap, Arguments.values, List.map_map]
  congr 1
  refine List.map_congr_left fun entry _ => ?_
  rw [Function.comp_apply, Function.comp_apply, List.countP_map,
    ← Value.count_nodeReferences]
  rfl

namespace ConfigGraph

/-! ## Occurrences in graphs -/

/-- How often an argument of a node mentions another node. -/
def occurrencesAt (graph : ConfigGraph) (parent : NodeId) (argument : String)
    (child : NodeId) : Nat :=
  ((graph.get? parent).bind fun buildable => buildable.arguments.get? argument).elim 0
    (Value.occurrences child)

/-- How often the arguments of all nodes mention a node. -/
def occurrences (graph : ConfigGraph) (child : NodeId) : Nat :=
  (graph.nodes.map fun buildable =>
    (buildable.arguments.values.map (Value.occurrences child)).sum).sum

/-- The edges that the arguments of all nodes call for. -/
def referenceEdges (graph : ConfigGraph) : List Edge :=
  graph.ids.flatMap fun parent =>
    ((graph.get? parent).elim [] Buildable.references).map fun (argument, child) =>
      ⟨parent, child, argument⟩

theorem nodup_ids (graph : ConfigGraph) : graph.ids.Nodup :=
  List.Nodup.map (fun _ _ h => NodeId.mk.inj h) List.nodup_range

theorem mem_ids_iff (graph : ConfigGraph) (id : NodeId) :
    id ∈ graph.ids ↔ graph.contains id := by
  obtain ⟨index⟩ := id
  simp [ids, contains]

theorem map_get?_ids (graph : ConfigGraph) : graph.ids.map graph.get? = graph.nodes.map some := by
  apply List.ext_getElem (by simp [ids, nodeCount])
  intro index hindex hindex'
  simp only [List.length_map] at hindex'
  simp [ids, get?, hindex']

theorem count_referenceEdges {graph : ConfigGraph}
    (h : ∀ id buildable, graph.get? id = some buildable → buildable.WellFormed)
    (parent child : NodeId) (argument : String) :
    graph.referenceEdges.count ⟨parent, child, argument⟩ =
      graph.occurrencesAt parent argument child := by
  rw [referenceEdges, List.count_flatMap, List.sum_map_eq_nsmul_single parent]
  · cases hparent : graph.get? parent with
    | none => simp [occurrencesAt, hparent]
    | some buildable =>
        have hmem := (graph.mem_ids_iff parent).mpr
          ((graph.contains_iff parent).mpr ⟨buildable, hparent⟩)
        have hinjective : Function.Injective fun reference : String × NodeId =>
            (⟨parent, reference.2, reference.1⟩ : Edge) := by
          rintro ⟨name, id⟩ ⟨name', id'⟩ heq
          simp_all
        have hown := List.count_map_of_injective buildable.references _ hinjective
          (argument, child)
        rw [List.nodup_iff_count_eq_one.mp graph.nodup_ids parent hmem]
        simp only [one_nsmul, Function.comp_apply, hparent, Option.elim_some, hown,
          occurrencesAt, Option.bind_some]
        exact Buildable.count_references (h parent buildable hparent).names_nodup argument child
  · intro other hother _
    rw [Function.comp_apply, List.count_eq_zero, List.mem_map]
    rintro ⟨reference, -, heq⟩
    exact hother (Edge.mk.inj heq).1

variable {graph : ConfigGraph}

theorem WellFormed.count_edges (h : graph.WellFormed) (parent child : NodeId)
    (argument : String) :
    graph.edges.count ⟨parent, child, argument⟩ =
      graph.occurrencesAt parent argument child := by
  have hcount : graph.edges.count ⟨parent, child, argument⟩ =
      ((graph.edgesAt parent argument).map Edge.child).count child := by
    rw [List.count, List.count, edgesAt, List.countP_map, List.countP_filter]
    congr 1
    funext edge
    obtain ⟨source, target, name⟩ := edge
    rw [Bool.eq_iff_iff]
    simp only [Function.comp_apply, beq_iff_eq, Edge.mk.injEq, Bool.and_eq_true,
      decide_eq_true_eq]
    tauto
  rw [hcount, h.mirrored, referencesAt, occurrencesAt]
  cases (graph.get? parent).bind fun buildable => buildable.arguments.get? argument with
  | none => rfl
  | some value => exact value.count_nodeReferences child

theorem WellFormed.perm_referenceEdges (h : graph.WellFormed) :
    graph.edges.Perm graph.referenceEdges := by
  rw [List.perm_iff_count]
  rintro ⟨parent, child, argument⟩
  rw [h.count_edges, count_referenceEdges h.nodes]

/-! ## What edges answer -/

theorem countP_referenceEdges (graph : ConfigGraph) (child : NodeId) :
    graph.referenceEdges.countP (·.child = child) = graph.occurrences child := by
  have hnodes := congrArg (List.map fun found : Option Buildable =>
    (found.elim [] Buildable.references).countP fun reference => reference.2 = child)
    graph.map_get?_ids
  simp only [List.map_map, Function.comp_def, Option.elim_some,
    Buildable.countP_references] at hnodes
  rw [referenceEdges, List.countP_flatMap, occurrences, ← hnodes]
  simp only [Function.comp_def, List.countP_map]

theorem WellFormed.isShared_iff (h : graph.WellFormed) (child : NodeId) :
    graph.isShared child ↔ 2 ≤ graph.occurrences child := by
  rw [isShared, decide_eq_true_iff, h.perm_referenceEdges.countP_eq, countP_referenceEdges]

theorem WellFormed.mem_parents_iff (h : graph.WellFormed) (parent child : NodeId) :
    parent ∈ graph.parents child ↔ ∃ argument, 0 < graph.occurrencesAt parent argument child := by
  simp only [parents, List.mem_filter, List.any_eq_true, Bool.and_eq_true, decide_eq_true_eq,
    ← h.count_edges, List.count_pos_iff]
  constructor
  · rintro ⟨-, ⟨source, target, argument⟩, hedge, rfl, rfl⟩
    exact ⟨argument, hedge⟩
  · rintro ⟨argument, hedge⟩
    refine ⟨?_, _, hedge, rfl, rfl⟩
    have hoccurs := List.count_pos_iff.mpr hedge
    rw [h.count_edges, occurrencesAt] at hoccurs
    rw [mem_ids_iff, contains_iff]
    cases hparent : graph.get? parent with
    | none => simp [hparent] at hoccurs
    | some buildable => exact ⟨buildable, rfl⟩

theorem parents_ascending (graph : ConfigGraph) (child : NodeId) :
    (graph.parents child).Pairwise fun first second => first.index < second.index := by
  apply List.Pairwise.filter
  rw [ids, List.pairwise_map]
  exact List.pairwise_lt_range

theorem WellFormed.contains_of_occurrences (h : graph.WellFormed) {parent child : NodeId}
    {argument : String} (hoccurs : 0 < graph.occurrencesAt parent argument child) :
    graph.contains child := by
  refine h.known parent child ((refers_iff_referencesAt h.nodes parent child).mpr ⟨argument, ?_⟩)
  rw [occurrencesAt] at hoccurs
  rw [referencesAt]
  cases hvalue : (graph.get? parent).bind fun buildable => buildable.arguments.get? argument with
  | none => simp [hvalue] at hoccurs
  | some value =>
      rw [hvalue, Option.elim_some, ← value.count_nodeReferences] at hoccurs
      exact List.count_pos_iff.mp hoccurs

/-- Whatever operations led to a graph, its edges are the occurrences of nodes in arguments,
each with the name of its argument. So all nodes that occur are known, the parents of a node
are those that mention it, in ascending order and once each, and a node is shared when it
occurs twice. -/
theorem edges_mirror_occurrences (h : graph.Built) :
    (∀ parent child argument, graph.edges.count ⟨parent, child, argument⟩ =
      graph.occurrencesAt parent argument child) ∧
    (∀ parent child argument, 0 < graph.occurrencesAt parent argument child →
      graph.contains child) ∧
    ∀ child,
      ((graph.parents child).Pairwise fun first second => first.index < second.index) ∧
      (∀ parent, parent ∈ graph.parents child ↔
        ∃ argument, 0 < graph.occurrencesAt parent argument child) ∧
      (graph.isShared child ↔ 2 ≤ graph.occurrences child) :=
  ⟨h.wellFormed.count_edges, fun _ _ _ => h.wellFormed.contains_of_occurrences, fun child =>
    ⟨graph.parents_ascending child, fun parent => h.wellFormed.mem_parents_iff parent child,
      h.wellFormed.isShared_iff child⟩⟩

/-- A node is mentioned twice by an argument that mentioned it once before, and an assignment
that would close a cycle is refused in between. -/
def reassignedPair : ConfigGraph :=
  ((((empty.perform (.addNode (.ofCallable .config (.classType "models" "Inner")))).perform
    (.addNode ((Buildable.ofCallable .config (.classType "models" "Outer")).assign "parts"
      (.node ⟨0⟩)))).perform
    (.setArgument ⟨0⟩ "outer" (.node ⟨1⟩))).perform
    (.setArgument ⟨1⟩ "parts" (.list [.node ⟨0⟩, .call ⟨0⟩ "wrap" [.node ⟨0⟩] [] []])))

theorem built_reassignedPair : reassignedPair.Built :=
  .perform _ (.perform _ (.perform _ (.perform _ .empty (.ofCallable _ _))
    (.assign _ _ (.ofCallable _ _))) trivial) trivial

theorem edges_mirror_occurrences_reassigned :
    reassignedPair.Built ∧ reassignedPair.edges.count ⟨⟨1⟩, ⟨0⟩, "parts"⟩ = 2 ∧
      reassignedPair.isShared ⟨0⟩ := by
  obtain ⟨hcount, -, hanswers⟩ := edges_mirror_occurrences built_reassignedPair
  obtain ⟨-, -, hshared⟩ := hanswers ⟨0⟩
  exact ⟨built_reassignedPair, (hcount ⟨1⟩ ⟨0⟩ "parts").trans (by decide),
    hshared.mpr (by decide)⟩

end ConfigGraph

end ConfigLowering
