import Mathlib.Data.List.Infix
import Mathlib.Data.List.Lex
import ConfigLowering.Proofs.Value.Places

/-!
# Unfoldings

Roots unfold into a forest, in which every reference to a config node has the arguments of the
node below it. An address leads to a place there: its numbers are the positions of a root and
then, again and again, of a place among those one step below. In pre-order the places come in
the lexicographic order of their addresses.
-/

namespace ConfigLowering

/-- The path that goes on from another one. -/
def Path.under (base path : Path) : Path := ⟨base.steps ++ path.steps⟩

theorem Path.under_root (base : Path) : base.under .root = base := by
  simp [under, root]

theorem Path.under_child (base path : Path) (step : PathStep) :
    base.under (path.child step) = (base.under path).child step := by
  simp [under, child]

theorem itemPlaces_under (base path : Path) (items : List Value) (position : Nat) :
    itemPlaces (base.under path) items position =
      (itemPlaces path items position).map (Prod.map id base.under) := by
  simp [itemPlaces, Path.under_child]

theorem entryPlaces_under (base path : Path) (step : String → PathStep)
    (entries : List (String × Value)) :
    entryPlaces (base.under path) step entries =
      (entryPlaces path step entries).map (Prod.map id base.under) := by
  simp [entryPlaces, Path.under_child]

namespace ConfigGraph

/-! ## Addresses -/

def placeBelow? (graph : ConfigGraph) : Value × Path → List Nat → Option (Value × Path)
  | place, [] => some place
  | place, index :: inner =>
      (graph.places place)[index]?.bind fun next => graph.placeBelow? next inner

def placeAt? (graph : ConfigGraph) (roots : List (Value × Path)) :
    List Nat → Option (Value × Path)
  | [] => none
  | index :: inner => roots[index]?.bind fun root => graph.placeBelow? root inner

/-- The config node that an address leads to, if it leads to one. -/
def nodeAt? (graph : ConfigGraph) (roots : List (Value × Path)) (address : List Nat) :
    Option NodeId :=
  (graph.placeAt? roots address).bind fun place => place.1.asNode?

/-- The node is not among the seen ones and does not occur at an earlier address. -/
def IsNew (graph : ConfigGraph) (seen : List NodeId) (roots : List (Value × Path))
    (address : List Nat) (id : NodeId) : Prop :=
  id ∉ seen ∧ ∀ earlier < address, graph.nodeAt? roots earlier ≠ some id

/-- The address leads to a place, and the nodes there and on the way are new. -/
def Kept (graph : ConfigGraph) (seen : List NodeId) (roots : List (Value × Path))
    (address : List Nat) : Prop :=
  (graph.placeAt? roots address).isSome ∧
    ∀ outer, outer <+: address → ∀ id, graph.nodeAt? roots outer = some id →
      graph.IsNew seen roots outer id

variable {graph : ConfigGraph} {seen : List NodeId} {place : Value × Path}
  {places : List (Value × Path)}

@[simp] theorem placeAt?_nil : graph.placeAt? places [] = none := rfl

@[simp] theorem placeAt?_zero (inner : List Nat) :
    graph.placeAt? (place :: places) (0 :: inner) = graph.placeBelow? place inner := rfl

@[simp] theorem placeAt?_succ (index : Nat) (inner : List Nat) :
    graph.placeAt? (place :: places) ((index + 1) :: inner) =
      graph.placeAt? places (index :: inner) := rfl

theorem placeAt?_of_singleton {address : List Nat} {found : Value × Path}
    (h : graph.placeAt? [place] address = some found) (places : List (Value × Path)) :
    graph.placeAt? (place :: places) address = some found := by
  match address with
  | 0 :: inner => exact h
  | (index + 1) :: inner => simp [placeAt?] at h

theorem placeBelow?_of_ne_nil {inner : List Nat} (h : inner ≠ []) :
    graph.placeBelow? place inner = graph.placeAt? (graph.places place) inner := by
  cases inner with
  | nil => contradiction
  | cons index inner => rfl

@[simp] theorem nodeAt?_nil : graph.nodeAt? places [] = none := rfl

@[simp] theorem nodeAt?_succ (index : Nat) (inner : List Nat) :
    graph.nodeAt? (place :: places) ((index + 1) :: inner) =
      graph.nodeAt? places (index :: inner) := rfl

theorem nodeAt?_root : graph.nodeAt? (place :: places) [0] = place.1.asNode? := rfl

theorem nodeAt?_zero {inner : List Nat} (h : inner ≠ []) :
    graph.nodeAt? (place :: places) (0 :: inner) = graph.nodeAt? (graph.places place) inner := by
  rw [nodeAt?, placeAt?_zero, placeBelow?_of_ne_nil h, nodeAt?]

/-! ## Paths -/

theorem places_under (graph : ConfigGraph) (base path : Path) (value : Value) :
    graph.places (value, base.under path) =
      (graph.places (value, path)).map (Prod.map id base.under) := by
  cases value with
  | node id => cases h : graph.get? id <;> simp [places, h, entryPlaces_under]
  | _ => simp [places, Value.places, itemPlaces_under, entryPlaces_under, Path.under_child]

theorem placeBelow?_under (graph : ConfigGraph) (base path : Path) (value : Value)
    (inner : List Nat) :
    graph.placeBelow? (value, base.under path) inner =
      (graph.placeBelow? (value, path) inner).map (Prod.map id base.under) := by
  induction inner generalizing value path with
  | nil => rfl
  | cons index inner ih =>
      rw [placeBelow?, placeBelow?, places_under, List.getElem?_map]
      cases (graph.places (value, path))[index]? with
      | none => rfl
      | some next => exact ih next.2 next.1

/-- The steps from a root are the same wherever the path of the root leads. -/
theorem placeBelow?_base (graph : ConfigGraph) (root : Value) (base : Path) (inner : List Nat) :
    graph.placeBelow? (root, base) inner =
      (graph.placeBelow? (root, .root) inner).map (Prod.map id base.under) := by
  rw [← placeBelow?_under, Path.under_root]

/-! ## What stands below -/

theorem exists_placeBelow?_iff (graph : ConfigGraph) (place : Value × Path) (value : Value) :
    (∃ inner path, graph.placeBelow? place inner = some (value, path)) ↔
      graph.Below place.1 value := by
  constructor
  · rintro ⟨inner, path, h⟩
    induction inner generalizing place with
    | nil =>
        rw [Option.some.inj h]
        exact .refl
    | cons index inner ih =>
        obtain ⟨next, hnext, hrest⟩ := Option.bind_eq_some_iff.mp h
        have hpart : next.1 ∈ graph.parts place.1 := by
          rw [← map_fst_places]
          exact List.mem_map_of_mem (List.mem_of_getElem? hnext)
        exact .head hpart (ih next hrest)
  · intro h
    obtain ⟨root, path⟩ := place
    change graph.Below root value at h
    induction h using Relation.ReflTransGen.head_induction_on generalizing path with
    | refl => exact ⟨[], path, rfl⟩
    | @head whole part hpart _ ih =>
        rw [← graph.map_fst_places (whole, path), List.mem_map] at hpart
        obtain ⟨next, hnext, rfl⟩ := hpart
        obtain ⟨index, hindex⟩ := List.mem_iff_getElem?.mp hnext
        obtain ⟨inner, last, hinner⟩ := ih next.2
        refine ⟨index :: inner, last, ?_⟩
        rw [placeBelow?, hindex]
        exact hinner

theorem exists_nodeAt?_zero_iff (id : NodeId) :
    (∃ inner, graph.nodeAt? (place :: places) (0 :: inner) = some id) ↔
      graph.Below place.1 (.node id) := by
  rw [← exists_placeBelow?_iff]
  refine exists_congr fun inner => ?_
  rw [nodeAt?, placeAt?_zero, Option.bind_eq_some_iff]
  constructor
  · rintro ⟨⟨value, path⟩, hplace, hnode⟩
    cases value <;> simp only [Value.asNode?, reduceCtorEq] at hnode
    exact ⟨path, Option.some.inj hnode ▸ hplace⟩
  · rintro ⟨path, hplace⟩
    exact ⟨_, hplace, rfl⟩

theorem exists_root_of_nodeAt? {address : List Nat} {id : NodeId}
    (h : graph.nodeAt? places address = some id) :
    ∃ root ∈ places, graph.Below root.1 (.node id) := by
  cases address with
  | nil => contradiction
  | cons index inner =>
      obtain ⟨place, hplace, hnode⟩ := Option.bind_eq_some_iff.mp h
      obtain ⟨root, hroot, hbelow⟩ := Option.bind_eq_some_iff.mp hplace
      refine ⟨root, List.mem_of_getElem? hroot,
        (@exists_nodeAt?_zero_iff graph root [] id).mp ⟨inner, ?_⟩⟩
      rw [nodeAt?, placeAt?_zero, hbelow]
      exact hnode

/-! ## Earlier addresses -/

theorem forall_lt_zero_iff {holds : List Nat → Prop} (inner : List Nat) :
    (∀ earlier < 0 :: inner, holds earlier) ↔
      holds [] ∧ ∀ earlier < inner, holds (0 :: earlier) := by
  constructor
  · intro h
    exact ⟨h [] (List.nil_lt_cons 0 inner),
      fun earlier hless => h _ (List.cons_lt_cons_iff.mpr (.inr ⟨rfl, hless⟩))⟩
  · rintro ⟨hnil, hzero⟩ earlier hless
    cases earlier with
    | nil => exact hnil
    | cons index earlier =>
        obtain hindex | ⟨rfl, hinner⟩ := List.cons_lt_cons_iff.mp hless
        · omega
        · exact hzero earlier hinner

theorem forall_lt_succ_iff {holds : List Nat → Prop} (index : Nat) (inner : List Nat) :
    (∀ earlier < (index + 1) :: inner, holds earlier) ↔
      (∀ earlier < index :: inner, holds (earlier.modifyHead (· + 1))) ∧
        ∀ earlier, holds (0 :: earlier) := by
  constructor
  · intro h
    refine ⟨fun earlier hless => h _ ?_, fun earlier => h _ (List.cons_lt_cons_iff.mpr (.inl ?_))⟩
    · cases earlier with
      | nil => exact List.nil_lt_cons _ _
      | cons other earlier =>
          simpa [List.cons_lt_cons_iff] using hless
    · omega
  · rintro ⟨hsucc, hzero⟩ earlier hless
    match earlier with
    | [] => exact hsucc [] (List.nil_lt_cons _ _)
    | 0 :: earlier => exact hzero earlier
    | (other + 1) :: earlier =>
        exact hsucc (other :: earlier) (by simpa [List.cons_lt_cons_iff] using hless)

theorem modifyHead_succ_lt {first second : List Nat} (h : first < second) :
    first.modifyHead (· + 1) < second.modifyHead (· + 1) := by
  cases second with
  | nil => exact absurd h (List.not_lt_nil first)
  | cons index second =>
      cases first with
      | nil => exact List.nil_lt_cons _ _
      | cons other first => simpa [List.cons_lt_cons_iff] using h

theorem succ_mem_map_modifyHead_iff (index : Nat) (inner : List Nat)
    (addresses : List (List Nat)) :
    (index + 1) :: inner ∈ addresses.map (List.modifyHead (· + 1)) ↔
      index :: inner ∈ addresses := by
  rw [List.mem_map]
  constructor
  · rintro ⟨_ | ⟨other, address⟩, haddress, hsame⟩
    · contradiction
    · obtain ⟨hindex, rfl⟩ := List.cons.inj hsame
      exact Nat.succ.inj hindex ▸ haddress
  · exact fun haddress => ⟨_, haddress, rfl⟩

theorem forall_prefix_cons_iff {holds : List Nat → Prop} (hnil : holds []) (index : Nat)
    (inner : List Nat) :
    (∀ outer, outer <+: index :: inner → holds outer) ↔
      ∀ outer, outer <+: inner → holds (index :: outer) := by
  simp only [List.prefix_cons_iff]
  constructor
  · exact fun h outer houter => h _ (.inr ⟨outer, rfl, houter⟩)
  · rintro h outer (rfl | ⟨rest, rfl, hrest⟩)
    · exact hnil
    · exact h rest hrest

/-! ## Kept addresses -/

theorem isNew_root_iff (id : NodeId) :
    graph.IsNew seen (place :: places) [0] id ↔ id ∉ seen := by
  simp [IsNew, forall_lt_zero_iff]

theorem isNew_zero_iff {inner : List Nat} (h : inner ≠ []) (id : NodeId) :
    graph.IsNew seen (place :: places) (0 :: inner) id ↔
      graph.IsNew (place.1.asNode?.toList ++ seen) (graph.places place) inner id := by
  obtain ⟨index, inner, rfl⟩ := List.exists_cons_of_ne_nil h
  -- The root itself comes before everything below it, so its node counts as seen there.
  have hearlier : (∀ earlier < index :: inner,
      graph.nodeAt? (place :: places) (0 :: earlier) ≠ some id) ↔
      place.1.asNode? ≠ some id ∧ ∀ earlier < index :: inner,
        graph.nodeAt? (graph.places place) earlier ≠ some id := by
    constructor
    · intro hnew
      refine ⟨hnew [] (List.nil_lt_cons _ _), fun earlier hless => ?_⟩
      by_cases hnil : earlier = []
      · simp [hnil]
      · rw [← nodeAt?_zero hnil]
        exact hnew earlier hless
    · rintro ⟨hroot, hnew⟩ earlier hless
      by_cases hnil : earlier = []
      · rwa [hnil, nodeAt?_root]
      · rw [nodeAt?_zero hnil]
        exact hnew earlier hless
  simp only [IsNew, forall_lt_zero_iff, hearlier, List.mem_append, Option.mem_toList, not_or,
    nodeAt?_nil, ne_eq, reduceCtorEq, not_false_eq_true, true_and]
  tauto

theorem isNew_succ_iff {after : List NodeId}
    (hafter : ∀ id, id ∈ after ↔ id ∈ seen ∨ graph.Below place.1 (.node id))
    (index : Nat) (inner : List Nat) (id : NodeId) :
    graph.IsNew seen (place :: places) ((index + 1) :: inner) id ↔
      graph.IsNew after places (index :: inner) id := by
  have hshift : ∀ earlier, graph.nodeAt? (place :: places) (earlier.modifyHead (· + 1)) =
      graph.nodeAt? places earlier := by
    rintro (_ | ⟨other, earlier⟩) <;> rfl
  rw [IsNew, forall_lt_succ_iff, IsNew, hafter, ← @exists_nodeAt?_zero_iff graph place places id]
  simp only [hshift, not_or, not_exists]
  tauto

theorem not_kept_nil : ¬ graph.Kept seen places [] := by
  simp [Kept]

theorem not_kept_of_nil (address : List Nat) : ¬ graph.Kept seen [] address := by
  cases address <;> simp [Kept, placeAt?]

theorem Kept.exists_cons {address : List Nat} (h : graph.Kept seen places address) :
    ∃ index inner, address = index :: inner := by
  cases address with
  | nil => exact absurd h not_kept_nil
  | cons index inner => exact ⟨index, inner, rfl⟩

theorem Kept.exists_zero {address : List Nat} (h : graph.Kept seen [place] address) :
    ∃ inner, address = 0 :: inner := by
  obtain ⟨index, inner, rfl⟩ := h.exists_cons
  cases index with
  | zero => exact ⟨inner, rfl⟩
  | succ index => exact absurd h.1 (by simp [placeAt?])

theorem kept_zero_iff (inner : List Nat) :
    graph.Kept seen (place :: places) (0 :: inner) ↔
      (∀ id, place.1.asNode? = some id → id ∉ seen) ∧
        (inner = [] ∨ graph.Kept (place.1.asNode?.toList ++ seen) (graph.places place) inner) := by
  rw [Kept, forall_prefix_cons_iff (by simp)]
  cases inner with
  | nil => simp [placeBelow?, nodeAt?_root, isNew_root_iff]
  | cons index inner =>
      constructor
      · rintro ⟨hplace, hnew⟩
        refine ⟨fun id hid => (isNew_root_iff id).mp (hnew [] List.nil_prefix id hid),
          .inr ⟨hplace, fun outer houter id hid => ?_⟩⟩
        by_cases hnil : outer = []
        · simp [hnil] at hid
        · rw [← @nodeAt?_zero graph place places outer hnil] at hid
          exact (isNew_zero_iff hnil id).mp (hnew outer houter id hid)
      · rintro ⟨hroot, hinner⟩
        obtain ⟨hplace, hnew⟩ := hinner.resolve_left (List.cons_ne_nil index inner)
        refine ⟨hplace, fun outer houter id hid => ?_⟩
        by_cases hnil : outer = []
        · subst hnil
          exact (isNew_root_iff id).mpr (hroot id hid)
        · rw [nodeAt?_zero hnil] at hid
          exact (isNew_zero_iff hnil id).mpr (hnew outer houter id hid)

theorem kept_succ_iff {after : List NodeId}
    (hafter : ∀ id, id ∈ after ↔ id ∈ seen ∨ graph.Below place.1 (.node id))
    (index : Nat) (inner : List Nat) :
    graph.Kept seen (place :: places) ((index + 1) :: inner) ↔
      graph.Kept after places (index :: inner) := by
  rw [Kept, Kept, forall_prefix_cons_iff (by simp), forall_prefix_cons_iff (by simp)]
  simp only [placeAt?_succ, nodeAt?_succ, isNew_succ_iff hafter]

end ConfigGraph

end ConfigLowering
