import ConfigLowering.Json.Record

/-!
# Nesting of JSON trees

The depth of a tree is the number of levels that its containers nest. A reader that is given
as many levels meets no container without a level left for it.
-/

namespace ConfigLowering.Json

mutual

def depth : Json → Nat
  | array items => depthOfItems items + 1
  | object fields => depthOfFields fields + 1
  | null | bool _ | integer _ | real _ | string _ | undefined => 0

def depthOfItems : List Json → Nat
  | [] => 0
  | item :: items => max item.depth (depthOfItems items)

def depthOfFields : List (String × Json) → Nat
  | [] => 0
  | (_, item) :: fields => max item.depth (depthOfFields fields)

end

theorem depthOfItems_le_iff {items : List Json} {levels : Nat} :
    depthOfItems items ≤ levels ↔ ∀ item ∈ items, item.depth ≤ levels := by
  induction items with
  | nil => simp [depthOfItems]
  | cons item items ih => rw [depthOfItems, Nat.max_le, ih, List.forall_mem_cons]

theorem depthOfFields_le_iff {fields : List (String × Json)} {levels : Nat} :
    depthOfFields fields ≤ levels ↔ ∀ field ∈ fields, field.2.depth ≤ levels := by
  induction fields with
  | nil => simp [depthOfFields]
  | cons field fields ih => rw [depthOfFields, Nat.max_le, ih, List.forall_mem_cons]

theorem depth_array_le_iff {items : List Json} {levels : Nat} :
    (array items).depth ≤ levels ↔
      ∃ below, levels = below + 1 ∧ ∀ item ∈ items, item.depth ≤ below := by
  simp only [depth, ← depthOfItems_le_iff]
  cases levels with
  | zero => simp
  | succ below => simp

theorem depth_object_le_iff {fields : List (String × Json)} {levels : Nat} :
    (object fields).depth ≤ levels ↔
      ∃ below, levels = below + 1 ∧ ∀ field ∈ fields, field.2.depth ≤ below := by
  simp only [depth, ← depthOfFields_le_iff]
  cases levels with
  | zero => simp
  | succ below => simp

theorem depth_variant_le_iff {name : String} {payload : Json} {levels : Nat} :
    (object [(name, payload)]).depth ≤ levels ↔
      ∃ below, levels = below + 1 ∧ payload.depth ≤ below := by
  simp [depth_object_le_iff]

/-! ## Lists -/

variable {α : Type}

theorem mapM_map_eq_some {decode : Json → Option α} {encode : α → Json} {items : List α}
    (h : ∀ item ∈ items, decode (encode item) = some item) :
    (items.map encode).mapM decode = some items := by
  induction items with
  | nil => rfl
  | cons item items ih =>
      have hfirst := h item List.mem_cons_self
      have hrest := ih fun other hother => h other (List.mem_cons_of_mem _ hother)
      simp [hfirst, hrest]

/-- A list that is written item by item is read back, if each item is. -/
theorem listField_ofList {decode : Nat → Json → Option α} {encode : α → Json} {items : List α}
    {levels : Nat} (hdepth : (ofList encode items).depth ≤ levels)
    (h : ∀ item ∈ items, ∀ below, (encode item).depth ≤ below →
      decode below (encode item) = some item) :
    listField levels decode (some (ofList encode items)) = some items := by
  obtain ⟨below, rfl, hitems⟩ := depth_array_le_iff.mp hdepth
  rw [List.forall_mem_map] at hitems
  exact mapM_map_eq_some fun item hitem => h item hitem below (hitems item hitem)

end ConfigLowering.Json
