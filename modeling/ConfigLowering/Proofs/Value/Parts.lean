import Mathlib.Data.List.Basic
import ConfigLowering.Value

/-!
# Children of values

A value is its own node over the list of its children: leaves and references have
none, and any other value is rebuilt from as many children as it has.
-/

namespace ConfigLowering.Value

/-! ## Children -/

def children : Value → List Value
  | list items | tuple items => items
  | dict entries => entries.map Prod.snd
  | call _ _ positional named _ => positional ++ named.map Prod.snd
  | tagged _ _ item => [item]
  | _ => []

def codeId? : Value → Option CodeId
  | call id .. | tagged id .. => some id
  | _ => Option.none

/-- The same value over other children, and as another object if it is one. -/
def rebuild (id : CodeId) (items : List Value) : Value → Value
  | list _ => .list items
  | tuple _ => .tuple items
  | dict entries => .dict ((entries.map Prod.fst).zip items)
  | call _ callee positional named history =>
      .call id callee (items.take positional.length)
        ((named.map Prod.fst).zip (items.drop positional.length)) history
  | tagged _ tagNames item => .tagged id tagNames (items.headD item)
  | leaf => leaf

theorem sizeOf_lt_of_mem_values {entries : List (String × Value)} {item : Value}
    (h : item ∈ entries.map Prod.snd) : sizeOf item < sizeOf entries := by
  obtain ⟨⟨name, value⟩, hentry, rfl⟩ := List.mem_map.mp h
  have hsize := List.sizeOf_lt_of_mem hentry
  simp only [Prod.mk.sizeOf_spec] at hsize ⊢
  omega

theorem sizeOf_lt_of_mem_children {whole part : Value} (h : part ∈ whole.children) :
    sizeOf part < sizeOf whole := by
  cases whole <;> simp only [children, List.not_mem_nil] at h
  case list items =>
    have hsize := List.sizeOf_lt_of_mem h
    simp only [list.sizeOf_spec]
    omega
  case tuple items =>
    have hsize := List.sizeOf_lt_of_mem h
    simp only [tuple.sizeOf_spec]
    omega
  case dict entries =>
    have hsize := sizeOf_lt_of_mem_values h
    simp only [dict.sizeOf_spec]
    omega
  case call id callee positional named history =>
    simp only [call.sizeOf_spec]
    obtain h | h := List.mem_append.mp h
    · have hsize := List.sizeOf_lt_of_mem h
      omega
    · have hsize := sizeOf_lt_of_mem_values h
      omega
  case tagged id tagNames item =>
    rw [List.mem_singleton.mp h]
    simp only [tagged.sizeOf_spec]
    omega

theorem induction_children {motive : Value → Prop}
    (step : ∀ whole : Value, (∀ part ∈ whole.children, motive part) → motive whole)
    (value : Value) : motive value := by
  induction hsize : sizeOf value using Nat.strongRecOn generalizing value with
  | _ size ih =>
      subst hsize
      exact step value fun part hpart => ih _ (sizeOf_lt_of_mem_children hpart) part rfl

/-! ## References of children -/

theorem nodeReferencesOfItems_eq (items : List Value) :
    nodeReferencesOfItems items = items.flatMap nodeReferences := by
  induction items with
  | nil => rfl
  | cons item items ih => rw [nodeReferencesOfItems, ih, List.flatMap_cons]

theorem nodeReferencesOfEntries_eq (entries : List (String × Value)) :
    nodeReferencesOfEntries entries = (entries.map Prod.snd).flatMap nodeReferences := by
  induction entries with
  | nil => rfl
  | cons entry entries ih =>
      rw [nodeReferencesOfEntries, ih, List.map_cons, List.flatMap_cons]

theorem nodeReferences_eq_flatMap {value : Value} (h : value.asNode? = Option.none) :
    value.nodeReferences = value.children.flatMap nodeReferences := by
  cases value <;> simp_all [asNode?, nodeReferences, children, nodeReferencesOfItems_eq,
    nodeReferencesOfEntries_eq]

theorem mem_nodeReferences_of_mem_children {whole part : Value}
    (hpart : part ∈ whole.children) {id : NodeId} (hid : id ∈ part.nodeReferences) :
    id ∈ whole.nodeReferences := by
  have hnode : whole.asNode? = Option.none := by
    cases whole <;> simp_all [asNode?, children]
  rw [nodeReferences_eq_flatMap hnode]
  exact List.mem_flatMap.mpr ⟨part, hpart, hid⟩

end ConfigLowering.Value
