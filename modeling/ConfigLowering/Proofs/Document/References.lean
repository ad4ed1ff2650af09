import ConfigLowering.Document.Building
import ConfigLowering.Proofs.Outcome
import ConfigLowering.Proofs.Value.Enclosing
import ConfigLowering.Proofs.Value.Renaming

/-!
# References in documents

A written value becomes a value by putting the places of its ids into it. That succeeds
when all of them are known, and the value that comes out holds no code.
-/

namespace ConfigLowering.DocumentValue

/-! ## Ids and places -/

mutual

/-- The ids that a value refers to, in its order. -/
def references : DocumentValue → List String
  | .node id => [id]
  | .list items | .tuple items => referencesOfItems items
  | .dict entries => referencesOfEntries entries
  | _ => []

def referencesOfItems : List DocumentValue → List String
  | [] => []
  | item :: items => item.references ++ referencesOfItems items

def referencesOfEntries : List (String × DocumentValue) → List String
  | [] => []
  | (_, item) :: entries => item.references ++ referencesOfEntries entries

end

mutual

/-- The value, given the place of each id. -/
def toValue (place : String → NodeId) : DocumentValue → Value
  | .none => .none
  | .bool value => .bool value
  | .int value => .int value
  | .float value => .float value
  | .str text => .str text
  | .list items => .list (itemsToValues place items)
  | .tuple items => .tuple (itemsToValues place items)
  | .dict entries => .dict (entriesToValues place entries)
  | .node id => .node (place id)
  | .symbol entity => .symbol entity

def itemsToValues (place : String → NodeId) : List DocumentValue → List Value
  | [] => []
  | item :: items => item.toValue place :: itemsToValues place items

def entriesToValues (place : String → NodeId) :
    List (String × DocumentValue) → List (String × Value)
  | [] => []
  | (name, item) :: entries => (name, item.toValue place) :: entriesToValues place entries

end

/-! ## Resolving -/

/-- The positions of exactly these ids are known, and they are their places. -/
def Places (positions : NodePositions) (ids : List String) (place : String → NodeId) : Prop :=
  ∀ id, positions.lookup id = if id ∈ ids then some (place id) else Option.none

variable {positions : NodePositions} {ids : List String} {place : String → NodeId}

theorem container_eq_ok_iff {parts : Type} {outcome : Except DocumentError parts}
    {make : parts → Value} {known : Prop} {expected : parts} {result : Value}
    (h : ∀ found, outcome = .ok found ↔ known ∧ found = expected) :
    (do return make (← outcome)) = Except.ok result ↔ known ∧ result = make expected := by
  rw [bind_eq_ok_iff]
  simp only [h]
  constructor
  · rintro ⟨_, ⟨hknown, rfl⟩, ⟨⟩⟩
    exact ⟨hknown, rfl⟩
  · rintro ⟨hknown, rfl⟩
    exact ⟨expected, ⟨hknown, rfl⟩, rfl⟩

mutual

theorem resolve_eq_ok_iff (hplaces : Places positions ids place) (value : DocumentValue)
    {result : Value} :
    value.resolve positions = .ok result ↔
      value.references ⊆ ids ∧ result = value.toValue place := by
  cases value with
  | node id =>
      rw [resolve, hplaces id, references, toValue, List.cons_subset]
      by_cases hid : id ∈ ids
      · simp [hid, pure, Except.pure, eq_comm]
      · simp [hid, throw, throwThe, MonadExceptOf.throw]
  | list items => exact container_eq_ok_iff fun _ => resolveItems_eq_ok_iff hplaces items
  | tuple items => exact container_eq_ok_iff fun _ => resolveItems_eq_ok_iff hplaces items
  | dict entries => exact container_eq_ok_iff fun _ => resolveEntries_eq_ok_iff hplaces entries
  | _ => simp [resolve, references, toValue, pure, Except.pure, eq_comm]

theorem resolveItems_eq_ok_iff (hplaces : Places positions ids place)
    (items : List DocumentValue) {results : List Value} :
    resolveItems positions items = .ok results ↔
      referencesOfItems items ⊆ ids ∧ results = itemsToValues place items := by
  cases items with
  | nil => simp [resolveItems, referencesOfItems, itemsToValues, pure, Except.pure, eq_comm]
  | cons item items =>
      simp only [resolveItems, bind_eq_ok_iff, resolve_eq_ok_iff hplaces item,
        resolveItems_eq_ok_iff hplaces items, referencesOfItems, itemsToValues,
        List.append_subset]
      constructor
      · rintro ⟨_, ⟨hitem, rfl⟩, _, ⟨hitems, rfl⟩, ⟨⟩⟩
        exact ⟨⟨hitem, hitems⟩, rfl⟩
      · rintro ⟨⟨hitem, hitems⟩, rfl⟩
        exact ⟨_, ⟨hitem, rfl⟩, _, ⟨hitems, rfl⟩, rfl⟩

theorem resolveEntries_eq_ok_iff (hplaces : Places positions ids place)
    (entries : List (String × DocumentValue)) {results : List (String × Value)} :
    resolveEntries positions entries = .ok results ↔
      referencesOfEntries entries ⊆ ids ∧ results = entriesToValues place entries := by
  cases entries with
  | nil => simp [resolveEntries, referencesOfEntries, entriesToValues, pure, Except.pure, eq_comm]
  | cons entry entries =>
      obtain ⟨name, item⟩ := entry
      simp only [resolveEntries, bind_eq_ok_iff, resolve_eq_ok_iff hplaces item,
        resolveEntries_eq_ok_iff hplaces entries, referencesOfEntries, entriesToValues,
        List.append_subset]
      constructor
      · rintro ⟨_, ⟨hitem, rfl⟩, _, ⟨hentries, rfl⟩, ⟨⟩⟩
        exact ⟨⟨hitem, hentries⟩, rfl⟩
      · rintro ⟨⟨hitem, hentries⟩, rfl⟩
        exact ⟨_, ⟨hitem, rfl⟩, _, ⟨hentries, rfl⟩, rfl⟩

end

/-! ## Resolved values -/

mutual

theorem nodeReferences_toValue (place : String → NodeId) (value : DocumentValue) :
    (value.toValue place).nodeReferences = value.references.map place := by
  cases value with
  | list items => exact nodeReferences_itemsToValues place items
  | tuple items => exact nodeReferences_itemsToValues place items
  | dict entries => exact nodeReferences_entriesToValues place entries
  | _ => rfl

theorem nodeReferences_itemsToValues (place : String → NodeId) (items : List DocumentValue) :
    Value.nodeReferencesOfItems (itemsToValues place items) =
      (referencesOfItems items).map place := by
  cases items with
  | nil => rfl
  | cons item items =>
      rw [itemsToValues, Value.nodeReferencesOfItems, nodeReferences_toValue place item,
        nodeReferences_itemsToValues place items, referencesOfItems, List.map_append]

theorem nodeReferences_entriesToValues (place : String → NodeId)
    (entries : List (String × DocumentValue)) :
    Value.nodeReferencesOfEntries (entriesToValues place entries) =
      (referencesOfEntries entries).map place := by
  cases entries with
  | nil => rfl
  | cons entry entries =>
      obtain ⟨name, item⟩ := entry
      rw [entriesToValues, Value.nodeReferencesOfEntries, nodeReferences_toValue place item,
        nodeReferences_entriesToValues place entries, referencesOfEntries, List.map_append]

end

mutual

theorem rename_toValue (change : NodeId → NodeId) (place : String → NodeId)
    (value : DocumentValue) :
    (value.toValue place).rename change = value.toValue (change ∘ place) := by
  cases value with
  | list items => exact congrArg Value.list (renameItems_itemsToValues change place items)
  | tuple items => exact congrArg Value.tuple (renameItems_itemsToValues change place items)
  | dict entries =>
      exact congrArg Value.dict (renameEntries_entriesToValues change place entries)
  | _ => rfl

theorem renameItems_itemsToValues (change : NodeId → NodeId) (place : String → NodeId)
    (items : List DocumentValue) :
    Value.renameItems change (itemsToValues place items) =
      itemsToValues (change ∘ place) items := by
  cases items with
  | nil => rfl
  | cons item items =>
      rw [itemsToValues, Value.renameItems, rename_toValue change place item,
        renameItems_itemsToValues change place items, itemsToValues]

theorem renameEntries_entriesToValues (change : NodeId → NodeId) (place : String → NodeId)
    (entries : List (String × DocumentValue)) :
    Value.renameEntries change (entriesToValues place entries) =
      entriesToValues (change ∘ place) entries := by
  cases entries with
  | nil => rfl
  | cons entry entries =>
      obtain ⟨name, item⟩ := entry
      rw [entriesToValues, Value.renameEntries, rename_toValue change place item,
        renameEntries_entriesToValues change place entries, entriesToValues]

end

mutual

theorem codeless_toValue (place : String → NodeId) (value : DocumentValue) :
    (value.toValue place).Everywhere fun part => part.isCode = false := by
  rw [Value.everywhere_iff]
  cases value with
  | list items => exact ⟨rfl, codeless_itemsToValues place items⟩
  | tuple items => exact ⟨rfl, codeless_itemsToValues place items⟩
  | dict entries => exact ⟨rfl, codeless_entriesToValues place entries⟩
  | _ => exact ⟨rfl, nofun⟩

theorem codeless_itemsToValues (place : String → NodeId) (items : List DocumentValue) :
    ∀ item ∈ itemsToValues place items, item.Everywhere fun part => part.isCode = false := by
  cases items with
  | nil => exact nofun
  | cons item items =>
      exact List.forall_mem_cons.mpr
        ⟨codeless_toValue place item, codeless_itemsToValues place items⟩

theorem codeless_entriesToValues (place : String → NodeId)
    (entries : List (String × DocumentValue)) :
    ∀ item ∈ (entriesToValues place entries).map Prod.snd,
      item.Everywhere fun part => part.isCode = false := by
  cases entries with
  | nil => exact nofun
  | cons entry entries =>
      exact List.forall_mem_cons.mpr
        ⟨codeless_toValue place entry.2, codeless_entriesToValues place entries⟩

end

end ConfigLowering.DocumentValue
