import ConfigLowering.Proofs.Graph.Building

/-!
# Renaming config nodes

Two graphs may number the same config nodes differently. Renaming changes the references
of a value and nothing else.
-/

namespace ConfigLowering

namespace Value

mutual

def rename (change : NodeId → NodeId) : Value → Value
  | .node id => .node (change id)
  | .list items => .list (renameItems change items)
  | .tuple items => .tuple (renameItems change items)
  | .dict entries => .dict (renameEntries change entries)
  | .call id callee positional named history =>
      .call id callee (renameItems change positional) (renameEntries change named) history
  | .tagged id tagNames item => .tagged id tagNames (item.rename change)
  | leaf => leaf

def renameItems (change : NodeId → NodeId) : List Value → List Value
  | [] => []
  | item :: items => item.rename change :: renameItems change items

def renameEntries (change : NodeId → NodeId) : List (String × Value) → List (String × Value)
  | [] => []
  | (name, item) :: entries => (name, item.rename change) :: renameEntries change entries

end

theorem renameEntries_eq (change : NodeId → NodeId) (entries : List (String × Value)) :
    renameEntries change entries = entries.map fun (name, item) => (name, item.rename change) := by
  induction entries with
  | nil => rfl
  | cons entry entries ih => rw [renameEntries, ih, List.map_cons]

mutual

/-- References that keep their numbers stay. -/
theorem rename_id (value : Value) : value.rename id = value := by
  cases value with
  | list items => rw [rename, renameItems_id items]
  | tuple items => rw [rename, renameItems_id items]
  | dict entries => rw [rename, renameEntries_id entries]
  | call code callee positional named history =>
      rw [rename, renameItems_id positional, renameEntries_id named]
  | tagged code tagNames item => rw [rename, rename_id item]
  | _ => rfl

theorem renameItems_id (items : List Value) : renameItems id items = items := by
  cases items with
  | nil => rfl
  | cons item items => rw [renameItems, rename_id item, renameItems_id items]

theorem renameEntries_id (entries : List (String × Value)) : renameEntries id entries = entries := by
  cases entries with
  | nil => rfl
  | cons entry entries =>
      obtain ⟨name, item⟩ := entry
      rw [renameEntries, rename_id item, renameEntries_id entries]

end

end Value

/-! ## Arguments -/

namespace Arguments

variable {α β : Type}

def map (change : α → β) (arguments : Arguments α) : Arguments β :=
  ⟨arguments.entries.map fun (name, value) => (name, change value)⟩

theorem insert_map (change : α → β) (arguments : Arguments α) (name : String) (value : α) :
    ((arguments.map change).insert name (change value)).2 =
      (arguments.insert name value).2.map change := by
  obtain ⟨entries⟩ := arguments
  simp only [insert, map, mk.injEq]
  induction entries with
  | nil => rfl
  | cons entry entries ih =>
      obtain ⟨other, current⟩ := entry
      by_cases hname : other = name
      · simp [insertEntry, hname]
      · simp [insertEntry, hname, ih]

theorem values_map (change : α → β) (arguments : Arguments α) :
    (arguments.map change).values = arguments.values.map change := by
  simp [values, map, Function.comp_def]

end Arguments

/-! ## Nodes -/

namespace Buildable

def rename (change : NodeId → NodeId) (buildable : Buildable) : Buildable :=
  { buildable with arguments := buildable.arguments.map (Value.rename change) }

theorem rename_id : rename id = id := by
  funext buildable
  simp [rename, Arguments.map, Value.rename_id]

variable (change : NodeId → NodeId)

theorem rename_assign (buildable : Buildable) (name : String) (value : Value) :
    (buildable.assign name value).rename change =
      (buildable.rename change).assign name (value.rename change) := by
  simp only [rename, assign, Arguments.insert_map]

theorem rename_addTag (buildable : Buildable) (field : String) (tag : Symbol) :
    (buildable.addTag field tag).rename change = (buildable.rename change).addTag field tag := rfl

end Buildable

end ConfigLowering
