import Mathlib.Data.List.Basic
import ConfigLowering.Value

/-!
# Objects of a value

The calls and tagged items that stand in a value, place after place, and the value
with other identities for them.
-/

namespace ConfigLowering

/-! ## Consecutive identities -/

namespace CodeId

/-- As many identities as `count`, from `start` on. -/
def range (start : CodeId) (count : Nat) : List CodeId :=
  (List.range' start.index count).map CodeId.mk

theorem range_succ (start : CodeId) (count : Nat) :
    start.range (count + 1) = start :: (⟨start.index + 1⟩ : CodeId).range count := by
  simp [range, List.range'_succ]

theorem range_add (start : CodeId) (count more : Nat) :
    start.range (count + more) =
      start.range count ++ (⟨start.index + count⟩ : CodeId).range more := by
  simp [range, ← List.map_append]

@[simp] theorem length_range (start : CodeId) (count : Nat) :
    (start.range count).length = count := by
  simp [range]

/-- Consecutive identities of two lists are those of the first and then of the second. -/
theorem split_range {κ : Type} {identity : κ → CodeId} {first rest : List κ}
    {start : CodeId} (middle : CodeId) (hmiddle : middle.index = start.index + first.length)
    (h : (first ++ rest).map identity = start.range (first ++ rest).length) :
    first.map identity = start.range first.length ∧
      rest.map identity = middle.range rest.length := by
  obtain ⟨index⟩ := middle
  subst hmiddle
  rw [List.map_append, List.length_append, range_add] at h
  exact List.append_inj h (by simp)

end CodeId

namespace Value

/-! ## Identities by place -/

mutual

/-- The object at each place that holds one, outer places first. -/
def objects : Value → List CodeId
  | list items | tuple items => objectsOfItems items
  | dict entries => objectsOfEntries entries
  | call id _ positional named _ =>
      id :: (objectsOfItems positional ++ objectsOfEntries named)
  | tagged id _ item => id :: item.objects
  | _ => []

def objectsOfItems : List Value → List CodeId
  | [] => []
  | item :: items => item.objects ++ objectsOfItems items

def objectsOfEntries : List (String × Value) → List CodeId
  | [] => []
  | (_, item) :: entries => item.objects ++ objectsOfEntries entries

end

/-! ## Other identities -/

mutual

def relabel (change : CodeId → CodeId) : Value → Value
  | list items => .list (relabelItems change items)
  | tuple items => .tuple (relabelItems change items)
  | dict entries => .dict (relabelEntries change entries)
  | call id callee positional named history =>
      .call (change id) callee (relabelItems change positional)
        (relabelEntries change named) history
  | tagged id tagNames item => .tagged (change id) tagNames (relabel change item)
  | leaf => leaf

def relabelItems (change : CodeId → CodeId) : List Value → List Value
  | [] => []
  | item :: items => relabel change item :: relabelItems change items

def relabelEntries (change : CodeId → CodeId) :
    List (String × Value) → List (String × Value)
  | [] => []
  | (name, item) :: entries => (name, relabel change item) :: relabelEntries change entries

end

/-- The value as a structure: all objects count as one. -/
def contents (value : Value) : Value := value.relabel fun _ => ⟨0⟩

end Value

end ConfigLowering
