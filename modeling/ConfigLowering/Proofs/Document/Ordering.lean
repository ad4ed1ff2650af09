import Mathlib.Data.List.Perm.Basic
import ConfigLowering.Proofs.Document.Acceptance

/-!
# The order of nodes

Documents with the same nodes in another order have the same graph up to the numbers of its
nodes. Whether they have one can depend on the order, but only through values that another
value of the same argument replaces.
-/

namespace ConfigLowering.GraphDocument

open Relation

variable {document other : GraphDocument}

/-! ## Documents with the same nodes -/

theorem mentions_of_perm (h : document.nodes.Perm other.nodes) {parent child : String} :
    document.Mentions parent child ↔ other.Mentions parent child := by
  simp only [Mentions, h.mem_iff]

theorem refers_of_perm (h : document.nodes.Perm other.nodes) :
    document.Refers = other.Refers := by
  funext parent child
  simp only [Refers, h.mem_iff]

theorem ids_perm (h : document.nodes.Perm other.nodes) : document.ids.Perm other.ids :=
  h.map NodeEntry.id

theorem repeatsHarmlessly_of_perm (h : document.nodes.Perm other.nodes)
    (hharmless : document.RepeatsHarmlessly) : other.RepeatsHarmlessly := by
  intro parent child hmentions hback
  rw [← refers_of_perm h] at hback ⊢
  exact hharmless parent child ((mentions_of_perm h).mpr hmentions) hback

theorem exists_buildGraph_of_perm (h : document.nodes.Perm other.nodes)
    (hharmless : document.RepeatsHarmlessly)
    (hbuilt : ∃ result, document.buildGraph = .ok result) :
    ∃ result, other.buildGraph = .ok result := by
  obtain ⟨hnodup, hmentions⟩ := (exists_buildGraph_iff hharmless).mp hbuilt
  refine exists_buildGraph ((ids_perm h).nodup_iff.mp hnodup) fun parent child hchild => ?_
  obtain ⟨hknown, hback⟩ := hmentions parent child ((mentions_of_perm h).mpr hchild)
  rw [← refers_of_perm h]
  exact ⟨(ids_perm h).mem_iff.mp hknown, hback⟩

/-! ## Renumbering -/

/-- The place in the other document of the id that has a place in this one. -/
def renumber (document other : GraphDocument) (id : NodeId) : NodeId :=
  (document.ids[id.index]?).elim id other.place

theorem renumber_place (h : document.ids.Perm other.ids) (id : String) :
    document.renumber other (document.place id) = other.place id := by
  rw [renumber, place, placeIn]
  by_cases hid : id ∈ document.ids
  · simp [List.idxOf_lt_length_of_mem hid]
  · have hother : id ∉ other.ids := fun hmem => hid (h.mem_iff.mpr hmem)
    rw [List.idxOf_of_notMem hid, List.getElem?_eq_none (Nat.le_refl _), Option.elim_none, place,
      placeIn, List.idxOf_of_notMem hother, h.length_eq]

theorem renumber_renumber (h : document.ids.Perm other.ids) (hnodup : document.ids.Nodup)
    (id : NodeId) : other.renumber document (document.renumber other id) = id := by
  cases hname : document.ids[id.index]? with
  | none =>
      -- Numbers that are no places stay in both directions.
      have hother : other.ids[id.index]? = none := by
        rw [List.getElem?_eq_none_iff] at hname ⊢
        rwa [← h.length_eq]
      have hsame : document.renumber other id = id := by rw [renumber, hname]; rfl
      rw [hsame, renumber, hother]
      rfl
  | some name =>
      have hplace : document.place name = id := place_of_id hnodup hname
      rw [← hplace, renumber_place h, renumber_place h.symm]

theorem renumber_bijective (h : document.ids.Perm other.ids) (hnodup : document.ids.Nodup) :
    Function.Bijective (document.renumber other) :=
  Function.bijective_iff_has_inverse.mpr ⟨other.renumber document,
    renumber_renumber h hnodup, renumber_renumber h.symm (h.nodup_iff.mp hnodup)⟩

/-- The same node stands at both places. -/
theorem nodes_renumber (h : document.nodes.Perm other.nodes) (hnodup : document.ids.Nodup)
    (id : NodeId) :
    other.nodes[(document.renumber other id).index]? = document.nodes[id.index]? := by
  cases hnode : document.nodes[id.index]? with
  | none =>
      have hid : document.ids[id.index]? = none := by rw [ids, List.getElem?_map, hnode]; rfl
      have hsame : document.renumber other id = id := by rw [renumber, hid]; rfl
      rw [hsame, List.getElem?_eq_none_iff, ← h.length_eq]
      exact List.getElem?_eq_none_iff.mp hnode
  | some node =>
      have hplace := renumber_place (ids_perm h) node.id
      rw [place_of_node hnodup hnode] at hplace
      rw [hplace]
      exact getElem?_place ((ids_perm h).nodup_iff.mp hnodup)
        (h.mem_iff.mp (List.mem_of_getElem? hnode))

theorem get?_renumber (h : document.nodes.Perm other.nodes) {graph graph' : ConfigGraph}
    {positions positions' : NodePositions} (hok : document.buildGraph = .ok (graph, positions))
    (hok' : other.buildGraph = .ok (graph', positions')) (id : NodeId) :
    graph'.get? (document.renumber other id) =
      (graph.get? id).map (Buildable.rename (document.renumber other)) := by
  obtain ⟨hnodup, -, -, hnodes⟩ := of_buildGraph hok
  obtain ⟨-, -, -, hnodes'⟩ := of_buildGraph hok'
  have hchange : document.renumber other ∘ document.place = other.place :=
    funext (renumber_place (ids_perm h))
  rw [ConfigGraph.get?, ConfigGraph.get?, hnodes, hnodes', List.getElem?_map, List.getElem?_map,
    nodes_renumber h hnodup, Option.map_map]
  refine Option.map_congr fun node _ => ?_
  rw [Function.comp_apply, NodeEntry.rename_toBuildable, hchange]

/-- The order of the nodes decides nothing but their numbers: two documents that differ in it
have the same graph up to these, if both have one. Whether they have one does not depend on
the order either, unless a value that another one replaces leads back to its node. -/
theorem buildGraph_of_perm (h : document.nodes.Perm other.nodes) :
    (document.RepeatsHarmlessly →
      ((∃ result, document.buildGraph = .ok result) ↔
        ∃ result, other.buildGraph = .ok result)) ∧
    ∀ graph positions graph' positions', document.buildGraph = .ok (graph, positions) →
      other.buildGraph = .ok (graph', positions') →
        ∃ rename : NodeId → NodeId, Function.Bijective rename ∧
          (∀ id, positions'.lookup id = (positions.lookup id).map rename) ∧
          ∀ id, graph'.get? (rename id) = (graph.get? id).map (Buildable.rename rename) := by
  constructor
  · intro hharmless
    exact ⟨exists_buildGraph_of_perm h hharmless,
      exists_buildGraph_of_perm h.symm (repeatsHarmlessly_of_perm h hharmless)⟩
  · intro graph positions graph' positions' hok hok'
    have hids := ids_perm h
    obtain ⟨hnodup, rfl, -, -⟩ := of_buildGraph hok
    obtain ⟨-, rfl, -, -⟩ := of_buildGraph hok'
    refine ⟨document.renumber other, renumber_bijective hids hnodup, fun id => ?_,
      get?_renumber h hok hok'⟩
    rw [places_positionsOf document.ids id, places_positionsOf other.ids id]
    by_cases hid : id ∈ document.ids
    · rw [if_pos hid, if_pos (hids.mem_iff.mp hid), Option.map_some]
      exact congrArg some (renumber_place hids id).symm
    · rw [if_neg hid, if_neg fun hmem => hid (hids.mem_iff.mpr hmem)]
      rfl

def nodeWith (id : String) (values : List (String × DocumentValue)) : NodeEntry :=
  ⟨id, .config, .classType "models" id, values.map fun (name, value) => ⟨name, some value, []⟩⟩

def documentOf (nodes : List NodeEntry) : GraphDocument := ⟨nodes, .entry "build" [] [] .none []⟩

def outerFirst : GraphDocument :=
  documentOf [nodeWith "outer" [("inner", .node "inner")], nodeWith "inner" []]

def innerFirst : GraphDocument :=
  documentOf [nodeWith "inner" [], nodeWith "outer" [("inner", .node "inner")]]

theorem buildGraph_of_perm_innerFirst :
    outerFirst.nodes.Perm innerFirst.nodes ∧ outerFirst.RepeatsHarmlessly ∧
      (∃ result, innerFirst.buildGraph = .ok result) ∧
      ∃ graph positions graph' positions', outerFirst.buildGraph = .ok (graph, positions) ∧
        innerFirst.buildGraph = .ok (graph', positions') ∧
        ∃ rename : NodeId → NodeId, Function.Bijective rename ∧ rename ⟨0⟩ = ⟨1⟩ ∧
          graph'.get? ⟨1⟩ = (graph.get? ⟨0⟩).map (Buildable.rename rename) := by
  have hperm : outerFirst.nodes.Perm innerFirst.nodes := .swap ..
  have hharmless : outerFirst.RepeatsHarmlessly := repeatsHarmlessly_of_nodup (by decide)
  obtain ⟨hbuilt, hsame⟩ := buildGraph_of_perm hperm
  obtain ⟨rename, hbijective, hpositions, hnodes⟩ := hsame _ _ _ _ rfl rfl
  have houter : some (⟨1⟩ : NodeId) = some (rename ⟨0⟩) := hpositions "outer"
  have hrename : rename ⟨0⟩ = ⟨1⟩ := (Option.some.inj houter).symm
  refine ⟨hperm, hharmless, (hbuilt hharmless).mp ⟨_, rfl⟩, _, _, _, _, rfl, rfl, rename, hbijective,
    hrename, ?_⟩
  rw [← hrename]
  exact hnodes ⟨0⟩

/-! ## Replaced values -/

/-- The first node has a reference to the second one only for a while. -/
def replacedFirst : GraphDocument :=
  documentOf [nodeWith "a" [("x", .node "b"), ("x", .int 1)], nodeWith "b" [("y", .node "a")]]

def replacedLast : GraphDocument :=
  documentOf [nodeWith "b" [("y", .node "a")], nodeWith "a" [("x", .node "b"), ("x", .int 1)]]

/-- Where it counts, the order decides: the reference that is replaced closes a cycle when the
other node has its arguments already. -/
theorem buildGraph_replaced_depends_on_order :
    replacedFirst.nodes.Perm replacedLast.nodes ∧
      (∃ result, replacedFirst.buildGraph = .ok result) ∧
      replacedLast.buildGraph = .error (.graphFailed (.cycle ⟨1⟩ ⟨0⟩ "x")) := by
  refine ⟨.swap .., ?_, ?_⟩
  · exact ⟨_, rfl⟩
  · rfl

end ConfigLowering.GraphDocument
