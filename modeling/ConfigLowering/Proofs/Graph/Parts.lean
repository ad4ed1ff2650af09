import Mathlib.Order.WellFounded
import ConfigLowering.Proofs.Graph.Mirror
import ConfigLowering.Proofs.Value.Parts

/-!
# Parts through config nodes

A reference stands for the arguments of its node. Without cycles nothing is a part
of itself, and a node's rank, the number of nodes it reaches, falls along
references.
-/

namespace ConfigLowering.ConfigGraph

open Relation

def parts (graph : ConfigGraph) : Value → List Value
  | .node id => (graph.get? id).elim [] fun buildable => buildable.arguments.values
  | value => value.children

/-- The second value is the first one or stands somewhere in it. -/
def Below (graph : ConfigGraph) : Value → Value → Prop :=
  ReflTransGen fun whole part => part ∈ graph.parts whole

def rank (graph : ConfigGraph) (id : NodeId) : Nat := (graph.search id).length

theorem parts_eq_children (graph : ConfigGraph) {value : Value}
    (h : value.asNode? = none) : graph.parts value = value.children := by
  cases value <;> simp_all [parts, Value.asNode?]

theorem parts_node {graph : ConfigGraph} {id : NodeId} {buildable : Buildable}
    (h : graph.get? id = some buildable) :
    graph.parts (.node id) = buildable.arguments.values := by
  simp [parts, h]

theorem refers_iff_parts (graph : ConfigGraph) (parent child : NodeId) :
    graph.Refers parent child ↔
      ∃ value ∈ graph.parts (.node parent), child ∈ value.nodeReferences := by
  cases hparent : graph.get? parent with
  | none => simp [Refers, parts, hparent]
  | some buildable =>
      simp only [Refers, parts, hparent, Buildable.references, Arguments.values,
        Option.some.injEq, exists_eq_left', List.mem_flatMap, List.mem_map,
        Option.elim_some, Prod.exists, Prod.mk.injEq]
      constructor
      · rintro ⟨argument, name, value, hentry, id, hid, -, rfl⟩
        exact ⟨value, ⟨name, value, hentry, rfl⟩, hid⟩
      · rintro ⟨value, ⟨name, _, hentry, rfl⟩, hid⟩
        exact ⟨name, name, _, hentry, child, hid, rfl, rfl⟩

variable {graph : ConfigGraph}

/-! ## Ranks -/

theorem WellFormed.mem_search_iff (h : graph.WellFormed) (source target : NodeId) :
    target ∈ graph.search source ↔ ReflTransGen graph.Refers source target := by
  rw [← h.hasPath_iff, hasPath, List.contains_iff_mem]

theorem WellFormed.rank_lt (h : graph.WellFormed) {parent child : NodeId}
    (hrefers : graph.Refers parent child) : graph.rank child < graph.rank parent := by
  have hfresh : parent ∉ graph.search child := by
    intro hback
    have hpath := (h.mem_search_iff child parent).mp hback
    exact h.acyclic parent (.head' hrefers hpath)
  -- The parent reaches itself besides everything that the child reaches.
  have hsubset : parent :: graph.search child ⊆ graph.search parent := by
    intro id hid
    rw [h.mem_search_iff]
    obtain rfl | hid := List.mem_cons.mp hid
    · exact .refl
    · exact .head hrefers ((h.mem_search_iff child id).mp hid)
  have hnodup : (parent :: graph.search child).Nodup :=
    List.nodup_cons.mpr ⟨hfresh, graph.search_nodup child⟩
  have hlength := hnodup.length_le_of_subset hsubset
  rw [List.length_cons] at hlength
  exact hlength

theorem rank_pos (graph : ConfigGraph) (id : NodeId) : 0 < graph.rank id :=
  List.length_pos_of_mem ((graph.mem_search_iff id id).mpr .refl)

/-- Unknown nodes count too: they reach only themselves. -/
theorem WellFormed.rank_le (h : graph.WellFormed) (id : NodeId) :
    graph.rank id ≤ graph.nodeCount + 1 := by
  have hsubset : graph.search id ⊆ id :: graph.ids := by
    intro target htarget
    obtain rfl | ⟨parent, -, hrefers⟩ := ((h.mem_search_iff id target).mp htarget).cases_tail
    · exact List.mem_cons_self
    · have hknown := h.known parent target hrefers
      rw [contains_iff_lt] at hknown
      exact List.mem_cons_of_mem _
        (List.mem_map.mpr ⟨target.index, List.mem_range.mpr hknown, rfl⟩)
  have hlength := (graph.search_nodup id).length_le_of_subset hsubset
  simpa [ids, rank] using hlength

/-- The depth suffices to follow every reference in a value. -/
def Covers (graph : ConfigGraph) (depth : Nat) (value : Value) : Prop :=
  ∀ id ∈ value.nodeReferences, graph.rank id ≤ depth

theorem Covers.children {depth : Nat} {whole part : Value} (h : graph.Covers depth whole)
    (hpart : part ∈ whole.children) : graph.Covers depth part :=
  fun id hid => h id (Value.mem_nodeReferences_of_mem_children hpart hid)

/-- References from the arguments of a node need one step less than the node. -/
theorem WellFormed.covers_argument (h : graph.WellFormed) {id : NodeId} {depth : Nat}
    (hdepth : graph.rank id ≤ depth + 1) {argument : Value}
    (hargument : argument ∈ graph.parts (.node id)) : graph.Covers depth argument := by
  intro child hchild
  have hrefers := (graph.refers_iff_parts id child).mpr ⟨argument, hargument, hchild⟩
  have hlt := h.rank_lt hrefers
  omega

/-! ## Nothing is a part of itself -/

theorem acc_of_references (graph : ConfigGraph) {value : Value}
    (hnodes : ∀ id ∈ value.nodeReferences,
      Acc (fun part whole => part ∈ graph.parts whole) (.node id)) :
    Acc (fun part whole => part ∈ graph.parts whole) value := by
  induction value using Value.induction_children with
  | step value ih =>
      cases hnode : value.asNode? with
      | none =>
          refine Acc.intro value fun part hpart => ?_
          rw [graph.parts_eq_children hnode] at hpart
          exact ih part hpart fun id hid =>
            hnodes id (Value.mem_nodeReferences_of_mem_children hpart hid)
      | some id =>
          -- A reference has no children; its node is one of the given ones.
          cases value <;> simp only [Value.asNode?, reduceCtorEq] at hnode
          exact hnodes _ (by simp [Value.nodeReferences])

theorem WellFormed.acc_node (h : graph.WellFormed) (id : NodeId) :
    Acc (fun part whole => part ∈ graph.parts whole) (.node id) := by
  induction hrank : graph.rank id using Nat.strongRecOn generalizing id with
  | _ bound ih =>
      subst hrank
      refine Acc.intro _ fun part hpart => graph.acc_of_references fun child hchild => ?_
      have hrefers := (graph.refers_iff_parts id child).mpr ⟨part, hpart, hchild⟩
      exact ih _ (h.rank_lt hrefers) child rfl

theorem WellFormed.wellFounded_parts (h : graph.WellFormed) :
    WellFounded fun part whole => part ∈ graph.parts whole :=
  ⟨fun _ => graph.acc_of_references fun id _ => h.acc_node id⟩

theorem WellFormed.not_below_part (h : graph.WellFormed) {value part : Value}
    (hpart : part ∈ graph.parts value) : ¬ graph.Below part value := by
  intro hback
  have hloop : TransGen (fun whole part => part ∈ graph.parts whole) value value :=
    .head' hpart hback
  rw [← transGen_swap] at hloop
  exact h.wellFounded_parts.transGen.irrefl.irrefl value hloop

end ConfigLowering.ConfigGraph

namespace ConfigLowering

/-! ## Values with their parts -/

/-- Values that come with their parts and in which one identity is one object. -/
structure Heap (graph : ConfigGraph) (holds : Value → Prop) : Prop where
  parts : ∀ whole, holds whole → ∀ part ∈ graph.parts whole, holds part
  coherent : ∀ first second id, holds first → holds second →
    first.codeId? = some id → second.codeId? = some id → first = second

theorem Heap.below {graph : ConfigGraph} {holds : Value → Prop} (h : Heap graph holds)
    {whole part : Value} (hwhole : holds whole) (hbelow : graph.Below whole part) :
    holds part := by
  induction hbelow with
  | refl => exact hwhole
  | tail _ hpart ih => exact h.parts _ ih _ hpart

end ConfigLowering
