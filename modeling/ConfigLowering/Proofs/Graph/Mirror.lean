import Mathlib.Logic.Relation
import ConfigLowering.Proofs.Checks
import ConfigLowering.Proofs.Graph.Building
import ConfigLowering.Proofs.Graph.Search

/-!
# Edges mirror arguments

In a graph that operations built, the edges of an argument are the references of
its value in their order, all of them are known, and no node refers to itself
through others.
-/

namespace ConfigLowering

open Relation

/-! ## References of a node -/

theorem Buildable.references_at {buildable : Buildable}
    (h : buildable.arguments.names.Nodup) (argument : String) :
    (buildable.references.filter fun reference => reference.1 = argument).map Prod.snd =
      (buildable.arguments.get? argument).elim [] Value.nodeReferences := by
  obtain ⟨kind, callable, ⟨entries⟩, tags⟩ := buildable
  simp only [references, Arguments.names, Arguments.get?] at h ⊢
  induction entries with
  | nil => rfl
  | cons entry entries ih =>
      obtain ⟨name, value⟩ := entry
      obtain ⟨hfresh, hrest⟩ := List.nodup_cons.mp h
      simp only [List.flatMap_cons, List.filter_append, List.map_append, ih hrest,
        Arguments.lookup_cons_ite]
      by_cases hname : argument = name
      · have habsent : entries.lookup name = none := by
          rw [List.lookup_eq_none_iff]
          intro other hother
          have hne : name ≠ other.1 := fun heq =>
            hfresh (List.mem_map.mpr ⟨other, hother, heq.symm⟩)
          simpa using hne
        subst hname
        simp [habsent, List.filter_map, Function.comp_def]
      · simp [hname, Ne.symm hname, List.filter_map, Function.comp_def]

namespace ConfigGraph

/-- The parent has an argument whose value mentions the child. -/
def Refers (graph : ConfigGraph) (parent child : NodeId) : Prop :=
  ∃ buildable, graph.get? parent = some buildable ∧
    ∃ argument, (argument, child) ∈ buildable.references

def Acyclic (graph : ConfigGraph) : Prop := ∀ id, ¬ TransGen graph.Refers id id

def edgesAt (graph : ConfigGraph) (parent : NodeId) (argument : String) : List Edge :=
  graph.edges.filter fun edge => edge.parent = parent && edge.argument = argument

def referencesAt (graph : ConfigGraph) (parent : NodeId) (argument : String) :
    List NodeId :=
  ((graph.get? parent).bind fun buildable => buildable.arguments.get? argument).elim []
    Value.nodeReferences

structure WellFormed (graph : ConfigGraph) : Prop where
  nodes : ∀ id buildable, graph.get? id = some buildable → buildable.WellFormed
  mirrored : ∀ parent argument,
    (graph.edgesAt parent argument).map Edge.child = graph.referencesAt parent argument
  known : ∀ parent child, graph.Refers parent child → graph.contains child
  acyclic : graph.Acyclic

/-! ## Known nodes -/

theorem contains_iff_lt (graph : ConfigGraph) (id : NodeId) :
    graph.contains id ↔ id.index < graph.nodeCount := by
  rw [contains, decide_eq_true_iff]

theorem contains_iff (graph : ConfigGraph) (id : NodeId) :
    graph.contains id ↔ ∃ buildable, graph.get? id = some buildable := by
  rw [contains_iff_lt, ← Option.isSome_iff_exists]
  simp [get?, nodeCount]

theorem not_contains_iff (graph : ConfigGraph) (id : NodeId) :
    graph.contains id = false ↔ graph.get? id = none := by
  rw [contains, decide_eq_false_iff_not]
  simp [get?, nodeCount]

theorem node_eq (graph : ConfigGraph) (id : NodeId) :
    graph.node id = (graph.get? id).elim (.error (.unknownNode id)) .ok := by
  cases h : graph.get? id <;> simp [node, h]

theorem checkContains_eq_ok_iff (graph : ConfigGraph) (id : NodeId) :
    graph.checkContains id = .ok () ↔ graph.contains id := by
  simp [checkContains]

/-! ## Edges and references -/

theorem refers_iff_referencesAt {graph : ConfigGraph}
    (h : ∀ id buildable, graph.get? id = some buildable → buildable.WellFormed)
    (parent child : NodeId) :
    graph.Refers parent child ↔ ∃ argument, child ∈ graph.referencesAt parent argument := by
  unfold Refers referencesAt
  cases hparent : graph.get? parent with
  | none => simp
  | some buildable =>
      simp only [Option.some.injEq, Option.bind_some, exists_eq_left',
        ← Buildable.references_at (h parent buildable hparent).names_nodup]
      simp

theorem WellFormed.links_iff {graph : ConfigGraph} (h : graph.WellFormed)
    (parent child : NodeId) : graph.Links parent child ↔ graph.Refers parent child := by
  rw [refers_iff_referencesAt h.nodes]
  simp only [Links, children, ← h.mirrored, edgesAt, List.mem_map, List.mem_filter]
  constructor
  · rintro ⟨edge, ⟨hedge, hparent⟩, hchild⟩
    exact ⟨edge.argument, edge, ⟨hedge, by simpa using hparent⟩, hchild⟩
  · rintro ⟨argument, edge, ⟨hedge, hat⟩, hchild⟩
    exact ⟨edge, ⟨hedge, by simp at hat; simpa using hat.1⟩, hchild⟩

theorem WellFormed.hasPath_iff {graph : ConfigGraph} (h : graph.WellFormed)
    (source target : NodeId) :
    graph.hasPath source target ↔ ReflTransGen graph.Refers source target := by
  have hrel : graph.Links = graph.Refers := by
    funext parent child
    exact propext (h.links_iff parent child)
  rw [ConfigGraph.hasPath_iff, hrel]

end ConfigGraph

end ConfigLowering
