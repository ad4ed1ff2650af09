import ConfigLowering.Graph
import ConfigLowering.Proofs.Arguments

/-!
# Building graphs

Graphs come from the empty graph by operations, each of which may fail. Their
nodes have distinct argument names and no empty set of tags.
-/

namespace ConfigLowering

/-! ## Nodes -/

namespace Buildable

def assign (buildable : Buildable) (name : String) (value : Value) : Buildable :=
  { buildable with arguments := (buildable.arguments.insert name value).2 }

/-- Nodes as they are made: from a callable, by arguments and tags. -/
inductive Constructed : Buildable → Prop
  | ofCallable (kind : BuildableKind) (callable : Symbol) :
      Constructed (ofCallable kind callable)
  | assign {buildable : Buildable} (name : String) (value : Value) :
      Constructed buildable → Constructed (buildable.assign name value)
  | addTag {buildable : Buildable} (field : String) (tag : Symbol) :
      Constructed buildable → Constructed (buildable.addTag field tag)

structure WellFormed (buildable : Buildable) : Prop where
  names_nodup : buildable.arguments.names.Nodup
  tags_nonempty : ∀ (field : String) (tags : TagSet),
    buildable.tags[field]? = some tags → tags ≠ ∅

theorem WellFormed.assign {buildable : Buildable} (h : buildable.WellFormed)
    (name : String) (value : Value) : (buildable.assign name value).WellFormed where
  names_nodup := buildable.arguments.nodup_names_insert name value h.names_nodup
  tags_nonempty := h.tags_nonempty

theorem WellFormed.addTag {buildable : Buildable} (h : buildable.WellFormed)
    (field : String) (tag : Symbol) : (buildable.addTag field tag).WellFormed where
  names_nodup := h.names_nodup
  tags_nonempty := by
    intro other tags htags
    simp only [Buildable.addTag, Std.ExtTreeMap.getElem?_insert] at htags
    split at htags
    · rw [← Option.some.inj htags]
      exact Std.ExtTreeSet.insert_ne_empty
    · exact h.tags_nonempty other tags htags

theorem WellFormed.removeTag {buildable : Buildable} (h : buildable.WellFormed)
    (field : String) (tag : Symbol) : (buildable.removeTag field tag).WellFormed where
  names_nodup := h.names_nodup
  tags_nonempty := by
    intro other tags htags
    simp only [Buildable.removeTag] at htags
    split at htags
    · rw [Std.ExtTreeMap.getElem?_erase] at htags
      split at htags
      · contradiction
      · exact h.tags_nonempty other tags htags
    · next hremaining =>
        rw [Std.ExtTreeMap.getElem?_insert] at htags
        split at htags
        · rw [← Option.some.inj htags]
          simpa using hremaining
        · exact h.tags_nonempty other tags htags

theorem WellFormed.clearTags {buildable : Buildable} (h : buildable.WellFormed) :
    buildable.clearTags.WellFormed where
  names_nodup := h.names_nodup
  tags_nonempty := by simp [Buildable.clearTags]

theorem Constructed.wellFormed {buildable : Buildable} (h : buildable.Constructed) :
    buildable.WellFormed := by
  induction h with
  | ofCallable kind callable =>
      exact ⟨List.nodup_nil, by simp [Buildable.ofCallable]⟩
  | assign name value _ ih => exact ih.assign name value
  | addTag field tag _ ih => exact ih.addTag field tag

end Buildable

/-! ## Operations -/

inductive GraphOperation where
  | addNode (buildable : Buildable)
  | setArgument (id : NodeId) (name : String) (value : Value)
  | addTag (id : NodeId) (field : String) (tag : Symbol)
  | removeTag (id : NodeId) (field : String) (tag : Symbol)
  | clearTags (id : NodeId)

/-- Only a node that comes from a callable can be added. -/
def GraphOperation.Admissible : GraphOperation → Prop
  | addNode buildable => buildable.Constructed
  | _ => True

namespace ConfigGraph

/-- The graph that an operation leaves, whether it fails or not. -/
def perform (graph : ConfigGraph) : GraphOperation → ConfigGraph
  | .addNode buildable => (graph.addNode buildable).2
  | .setArgument id name value => (graph.setArgument id name value).2
  | .addTag id field tag => (graph.addTag id field tag).2
  | .removeTag id field tag => (graph.removeTag id field tag).2
  | .clearTags id => (graph.clearTags id).2

/-- The graphs that operations lead to. -/
inductive Built : ConfigGraph → Prop
  | empty : Built .empty
  | perform {graph : ConfigGraph} (operation : GraphOperation) :
      Built graph → operation.Admissible → Built (graph.perform operation)

variable {graph after : ConfigGraph} {id : NodeId}

theorem Built.addNode (h : graph.Built) {buildable : Buildable}
    (hconstructed : buildable.Constructed) (hok : graph.addNode buildable = (.ok id, after)) :
    after.Built := by
  have hperformed := h.perform (.addNode buildable) hconstructed
  rwa [ConfigGraph.perform, hok] at hperformed

theorem Built.setArgument (h : graph.Built) {name : String} {value : Value}
    {displaced : Option Value} (hok : graph.setArgument id name value = (.ok displaced, after)) :
    after.Built := by
  have hperformed := h.perform (.setArgument id name value) trivial
  rwa [ConfigGraph.perform, hok] at hperformed

theorem Built.addTag (h : graph.Built) {field : String} {tag : Symbol} {new : Bool}
    (hok : graph.addTag id field tag = (.ok new, after)) : after.Built := by
  have hperformed := h.perform (.addTag id field tag) trivial
  rwa [ConfigGraph.perform, hok] at hperformed

end ConfigGraph

end ConfigLowering
