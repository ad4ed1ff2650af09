import ConfigLowering.Proofs.Document.References

/-!
# Nodes of documents

What becomes of one node of a document: its arguments in order, where a later value takes
the place of an earlier one of the same name, and the tags of its fields.
-/

namespace ConfigLowering

def ArgumentEntry.assignTo (place : String → NodeId) (buildable : Buildable)
    (argument : ArgumentEntry) : Buildable :=
  argument.tags.foldl (fun buildable tag => buildable.addTag argument.name tag)
    (argument.value.elim buildable fun value =>
      buildable.assign argument.name (value.toValue place))

namespace NodeEntry

def bare (node : NodeEntry) : Buildable := .ofCallable node.kind node.callable

def toBuildable (place : String → NodeId) (node : NodeEntry) : Buildable :=
  node.arguments.foldl (ArgumentEntry.assignTo place) node.bare

def valued (node : NodeEntry) : List (String × DocumentValue) :=
  node.arguments.filterMap fun argument => argument.value.map (argument.name, ·)

/-- The arguments that the node has in the end. -/
def settled (node : NodeEntry) : Arguments DocumentValue := .ofList node.valued

end NodeEntry

/-! ## Tags -/

namespace Buildable

variable {buildable : Buildable} {field : String} {tags : List Symbol}

@[simp] theorem arguments_addTags :
    (tags.foldl (fun buildable tag => buildable.addTag field tag) buildable).arguments =
      buildable.arguments := by
  induction tags generalizing buildable with
  | nil => rfl
  | cons tag tags ih => exact ih

theorem WellFormed.addTags (h : buildable.WellFormed) :
    (tags.foldl (fun buildable tag => buildable.addTag field tag) buildable).WellFormed :=
  List.foldlRecOn tags _ h fun _ hwell tag _ => hwell.addTag field tag

theorem rename_addTags (change : NodeId → NodeId) :
    (tags.foldl (fun buildable tag => buildable.addTag field tag) buildable).rename change =
      tags.foldl (fun buildable tag => buildable.addTag field tag) (buildable.rename change) :=
  (List.foldl_hom _ fun current tag => (rename_addTag change current field tag).symm).symm

end Buildable

/-! ## Arguments -/

variable {place : String → NodeId}

theorem ArgumentEntry.rename_assignTo (change : NodeId → NodeId) (buildable : Buildable)
    (argument : ArgumentEntry) :
    (argument.assignTo place buildable).rename change =
      argument.assignTo (change ∘ place) (buildable.rename change) := by
  rw [assignTo, assignTo, Buildable.rename_addTags]
  cases argument.value with
  | none => rfl
  | some value =>
      simp only [Option.elim_some, Buildable.rename_assign, DocumentValue.rename_toValue]

namespace NodeEntry

theorem rename_toBuildable (change : NodeId → NodeId) (place : String → NodeId)
    (node : NodeEntry) :
    (node.toBuildable place).rename change = node.toBuildable (change ∘ place) := by
  rw [toBuildable, toBuildable, ← List.foldl_hom (Buildable.rename change)
    fun buildable argument => (argument.rename_assignTo change buildable).symm]
  rfl

theorem arguments_toBuildable (place : String → NodeId) (node : NodeEntry) :
    (node.toBuildable place).arguments = node.settled.map (DocumentValue.toValue place) := by
  have hfold : ∀ (arguments : List ArgumentEntry) (settled : Arguments DocumentValue)
      (buildable : Buildable), buildable.arguments = settled.map (DocumentValue.toValue place) →
      (arguments.foldl (ArgumentEntry.assignTo place) buildable).arguments =
        (((arguments.filterMap fun argument => argument.value.map (argument.name, ·)).foldl
          (fun arguments entry => (arguments.insert entry.1 entry.2).2) settled).map
          (DocumentValue.toValue place)) := by
    intro arguments
    induction arguments with
    | nil => exact fun _ _ h => h
    | cons argument arguments ih =>
        intro settled buildable h
        rw [List.foldl_cons, List.filterMap_cons]
        cases hvalue : argument.value with
        | none => exact ih settled _ (by simp [ArgumentEntry.assignTo, hvalue, h])
        | some value =>
            refine ih (settled.insert argument.name value).2 _ ?_
            simp [ArgumentEntry.assignTo, hvalue, Buildable.assign, h, Arguments.insert_map]
  exact hfold node.arguments .empty node.bare rfl

theorem values_toBuildable (place : String → NodeId) (node : NodeEntry) :
    (node.toBuildable place).arguments.values =
      node.settled.values.map (DocumentValue.toValue place) := by
  rw [arguments_toBuildable, Arguments.values_map]

end NodeEntry

end ConfigLowering
