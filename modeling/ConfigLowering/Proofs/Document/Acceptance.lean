import ConfigLowering.Proofs.Document.Building
import ConfigLowering.Proofs.Graph.Parts

/-!
# Which documents have a graph

The graph of a document, when there is one, holds the nodes of the document in their order.
There is one when no id comes twice and no reference is unknown or leads back to its node.
-/

namespace ConfigLowering

open Relation

/-- Some value that the node gives to an argument refers to the id, also one that a later
value replaces. -/
def NodeEntry.Mentions (node : NodeEntry) (child : String) : Prop :=
  ∃ argument ∈ node.arguments, ∃ value, argument.value = some value ∧ child ∈ value.references

namespace GraphDocument

/-! ## References between ids -/

def ids (document : GraphDocument) : List String := document.nodes.map NodeEntry.id

def place (document : GraphDocument) : String → NodeId := placeIn document.ids

def Mentions (document : GraphDocument) (parent child : String) : Prop :=
  ∃ node ∈ document.nodes, node.id = parent ∧ node.Mentions child

/-- An argument that the parent has in the end refers to the child. -/
def Refers (document : GraphDocument) (parent child : String) : Prop :=
  ∃ node ∈ document.nodes, node.id = parent ∧
    ∃ value ∈ node.settled.values, child ∈ value.references

variable {document : GraphDocument} {graph after : ConfigGraph}

theorem Refers.mentions {parent child : String} (h : document.Refers parent child) :
    document.Mentions parent child := by
  obtain ⟨node, hnode, hid, value, hvalue, hchild⟩ := h
  obtain ⟨entry, hentry, rfl⟩ := List.mem_map.mp (Arguments.mem_values_ofList hvalue)
  obtain ⟨argument, hargument, hentry⟩ := List.mem_filterMap.mp hentry
  obtain ⟨value, hgiven, rfl⟩ := Option.map_eq_some_iff.mp hentry
  exact ⟨node, hnode, hid, argument, hargument, value, hgiven, hchild⟩

theorem place_of_id (hnodup : document.ids.Nodup) {index : Nat} {id : String}
    (h : document.ids[index]? = some id) : document.place id = ⟨index⟩ := by
  obtain ⟨hlt, hid⟩ := List.getElem?_eq_some_iff.mp h
  rw [place, placeIn, ← hid, hnodup.idxOf_getElem]

theorem place_of_node (hnodup : document.ids.Nodup) {index : Nat} {node : NodeEntry}
    (h : document.nodes[index]? = some node) : document.place node.id = ⟨index⟩ := by
  refine place_of_id hnodup ?_
  rw [ids, List.getElem?_map, h]
  rfl

theorem getElem?_place (hnodup : document.ids.Nodup) {node : NodeEntry}
    (h : node ∈ document.nodes) : document.nodes[(document.place node.id).index]? = some node := by
  obtain ⟨index, hindex⟩ := List.mem_iff_getElem?.mp h
  rw [place_of_node hnodup hindex]
  exact hindex

/-! ## The arguments of all nodes -/

/-- The nodes that come first have their arguments, the others have none yet. -/
structure Filled (document : GraphDocument) (done rest : List NodeEntry) (graph : ConfigGraph) :
    Prop where
  split : done ++ rest = document.nodes
  nodes : graph.nodes =
    done.map (NodeEntry.toBuildable document.place) ++ rest.map NodeEntry.bare
  wellFormed : graph.WellFormed

variable {done rest : List NodeEntry}

theorem Filled.contains (h : Filled document done rest graph) {id : String}
    (hid : id ∈ document.ids) : graph.contains (document.place id) := by
  have hlength : graph.nodeCount = document.ids.length := by
    rw [ConfigGraph.nodeCount, h.nodes, ids, ← h.split]
    simp
  rw [ConfigGraph.contains_iff_lt, hlength]
  exact List.idxOf_lt_length_of_mem hid

theorem Filled.refers (h : Filled document done rest graph) (hnodup : document.ids.Nodup)
    {parent child : NodeId} (hrefers : graph.Refers parent child) :
    ∃ source target, document.Refers source target ∧ parent = document.place source ∧
      child = document.place target := by
  obtain ⟨argument, hargument, hchild⟩ := (graph.refers_iff_parts parent child).mp hrefers
  obtain ⟨buildable, hbuildable, -⟩ := hrefers
  rw [ConfigGraph.parts_node hbuildable] at hargument
  rw [ConfigGraph.get?, h.nodes, List.getElem?_append] at hbuildable
  split at hbuildable
  · rw [List.getElem?_map, Option.map_eq_some_iff] at hbuildable
    obtain ⟨node, hnode, rfl⟩ := hbuildable
    have hposition : document.nodes[parent.index]? = some node := by
      rw [← h.split, List.getElem?_append_left (List.getElem?_eq_some_iff.mp hnode).1, hnode]
    rw [NodeEntry.values_toBuildable] at hargument
    obtain ⟨value, hvalue, rfl⟩ := List.mem_map.mp hargument
    rw [DocumentValue.nodeReferences_toValue] at hchild
    obtain ⟨target, htarget, rfl⟩ := List.mem_map.mp hchild
    exact ⟨node.id, target, ⟨node, List.mem_of_getElem? hposition, rfl, value, hvalue, htarget⟩,
      (place_of_node hnodup hposition).symm, rfl⟩
  · rw [List.getElem?_map, Option.map_eq_some_iff] at hbuildable
    obtain ⟨node, -, rfl⟩ := hbuildable
    contradiction

theorem Filled.reaches (h : Filled document done rest graph) (hnodup : document.ids.Nodup)
    (hknown : ∀ parent child, document.Refers parent child → child ∈ document.ids)
    {start goal : String} (hstart : start ∈ document.ids) (hgoal : goal ∈ document.ids)
    (hpath : ReflTransGen graph.Refers (document.place start) (document.place goal)) :
    ReflTransGen document.Refers start goal := by
  have hreached : ∀ id, ReflTransGen graph.Refers (document.place start) id →
      ∃ name ∈ document.ids, id = document.place name ∧
        ReflTransGen document.Refers start name := by
    intro id hid
    induction hid with
    | refl => exact ⟨start, hstart, rfl, .refl⟩
    | tail _ hstep ih =>
        obtain ⟨name, hname, rfl, hpath⟩ := ih
        obtain ⟨source, target, hrefers, hsource, rfl⟩ := h.refers hnodup hstep
        obtain rfl := placeIn_injective hname hsource
        exact ⟨target, hknown _ _ hrefers, rfl, hpath.tail hrefers⟩
  obtain ⟨name, hname, hplace, hpath⟩ := hreached _ hpath
  obtain rfl := placeIn_injective hgoal hplace
  exact hpath

theorem Filled.assignArguments {node : NodeEntry}
    (h : Filled document done (node :: rest) graph) (hnodup : document.ids.Nodup) :
    ((∃ after, GraphDocument.assignArguments (positionsOf document.ids) graph node = .ok after) ↔
      ∀ child, node.Mentions child → child ∈ document.ids ∧
        ¬ ReflTransGen graph.Refers (document.place child) (document.place node.id)) ∧
    ∀ after, GraphDocument.assignArguments (positionsOf document.ids) graph node = .ok after →
      Filled document (done ++ [node]) rest after := by
  have hnode : document.nodes[done.length]? = some node := by rw [← h.split]; simp
  have hplace := place_of_node hnodup hnode
  have hid : node.id ∈ document.ids := List.mem_map_of_mem (List.mem_of_getElem? hnode)
  have hlookup : (positionsOf document.ids).lookup node.id = some (document.place node.id) := by
    rw [places_positionsOf document.ids node.id, if_pos hid]
    rfl
  have hbare : graph.get? (document.place node.id) = some node.bare := by
    rw [hplace, ConfigGraph.get?, h.nodes]
    simp
  obtain ⟨haccepts, hafter⟩ := foldlM_assignArgument h.wellFormed hbare
    (places_positionsOf document.ids) (fun _ => h.contains) node.arguments
  rw [GraphDocument.assignArguments, hlookup]
  refine ⟨haccepts.trans ⟨?_, ?_⟩, fun after hok => ?_⟩
  · rintro hfits child ⟨argument, hargument, value, hvalue, hchild⟩
    rw [ConfigGraph.reaches_iff_past]
    exact hfits argument hargument value hvalue child hchild
  · intro hmentions argument hargument value hvalue child hchild
    rw [← ConfigGraph.reaches_iff_past]
    exact hmentions child ⟨argument, hargument, value, hvalue, hchild⟩
  · obtain ⟨hwell, hnodes⟩ := hafter after hok
    refine ⟨by rw [List.append_assoc, List.singleton_append, h.split], ?_, hwell⟩
    rw [hnodes, hplace, h.nodes]
    simp [NodeEntry.toBuildable, place]

theorem Filled.exists_foldlM (h : Filled document done rest graph) (hnodup : document.ids.Nodup)
    (hmentions : ∀ parent child, document.Mentions parent child →
      child ∈ document.ids ∧ ¬ ReflTransGen document.Refers child parent) :
    ∃ after, rest.foldlM (GraphDocument.assignArguments (positionsOf document.ids)) graph =
      .ok after := by
  induction rest generalizing done graph with
  | nil => exact ⟨graph, rfl⟩
  | cons node rest ih =>
      have hnode : node ∈ document.nodes := by rw [← h.split]; simp
      have hid : node.id ∈ document.ids := List.mem_map_of_mem hnode
      obtain ⟨haccepts, hafter⟩ := h.assignArguments hnodup
      -- The graph so far refers as the document does, so a way back in it is one there.
      have hchildren : ∀ child, node.Mentions child → child ∈ document.ids ∧
          ¬ ReflTransGen graph.Refers (document.place child) (document.place node.id) := by
        intro child hchild
        obtain ⟨hknown, hback⟩ := hmentions node.id child ⟨node, hnode, rfl, hchild⟩
        refine ⟨hknown, fun hpath => hback (h.reaches hnodup ?_ hknown hid hpath)⟩
        exact fun parent child hrefers => (hmentions parent child hrefers.mentions).1
      obtain ⟨middle, hmiddle⟩ := haccepts.mpr hchildren
      obtain ⟨after, hrest⟩ := ih (hafter middle hmiddle)
      refine ⟨after, ?_⟩
      rw [List.foldlM_cons, hmiddle]
      exact hrest

theorem Filled.of_foldlM (h : Filled document done rest graph) (hnodup : document.ids.Nodup)
    (hok : rest.foldlM (GraphDocument.assignArguments (positionsOf document.ids)) graph =
      .ok after) :
    Filled document document.nodes [] after ∧
      ∀ node ∈ rest, ∀ child, node.Mentions child → child ∈ document.ids ∧ child ≠ node.id := by
  induction rest generalizing done graph with
  | nil =>
      obtain rfl := Except.ok.inj hok
      rw [← h.split, List.append_nil]
      exact ⟨h, nofun⟩
  | cons node rest ih =>
      rw [List.foldlM_cons, bind_eq_ok_iff] at hok
      obtain ⟨middle, hmiddle, hrest⟩ := hok
      obtain ⟨haccepts, hafter⟩ := h.assignArguments hnodup
      obtain ⟨hfilled, hothers⟩ := ih (hafter middle hmiddle) hrest
      refine ⟨hfilled, List.forall_mem_cons.mpr ⟨fun child hchild => ?_, hothers⟩⟩
      obtain ⟨hknown, hback⟩ := haccepts.mp ⟨middle, hmiddle⟩ child hchild
      refine ⟨hknown, ?_⟩
      rintro rfl
      exact hback .refl

/-! ## The whole graph -/

theorem filled_listed (document : GraphDocument) :
    Filled document [] document.nodes (listed document.nodes).1 := by
  have hbare : ∀ id buildable, (listed document.nodes).1.get? id = some buildable →
      ∃ node : NodeEntry, buildable = node.bare := by
    intro id buildable hbuildable
    obtain ⟨node, -, rfl⟩ := List.mem_map.mp (List.mem_of_getElem? hbuildable)
    exact ⟨node, rfl⟩
  have hrefers : ∀ parent child, ¬ (listed document.nodes).1.Refers parent child := by
    rintro parent child ⟨buildable, hbuildable, argument, hreference⟩
    obtain ⟨node, rfl⟩ := hbare parent buildable hbuildable
    contradiction
  refine ⟨rfl, rfl, ?_, ?_, fun parent child h => absurd h (hrefers parent child), ?_⟩
  · intro id buildable hbuildable
    obtain ⟨node, rfl⟩ := hbare id buildable hbuildable
    exact (Buildable.Constructed.ofCallable _ _).wellFormed
  · intro parent argument
    rw [ConfigGraph.referencesAt]
    cases hbuildable : (listed document.nodes).1.get? parent with
    | none => rfl
    | some buildable =>
        obtain ⟨node, rfl⟩ := hbare parent buildable hbuildable
        rfl
  · intro id hcycle
    obtain ⟨child, hstep, -⟩ := TransGen.head'_iff.mp hcycle
    exact hrefers id child hstep

theorem buildGraph_eq_ok_iff (document : GraphDocument) {positions : NodePositions} :
    document.buildGraph = .ok (graph, positions) ↔
      document.ids.Nodup ∧ positions = positionsOf document.ids ∧
        document.nodes.foldlM (assignArguments (positionsOf document.ids))
          (listed document.nodes).1 = .ok graph := by
  have hadded := @foldlM_addNode_eq_ok_iff [] document.nodes List.nodup_nil
  rw [buildGraph, bind_eq_ok_iff]
  constructor
  · rintro ⟨⟨bare, _⟩, hbare, hok⟩
    obtain ⟨hnodup, hlisted⟩ := hadded.mp hbare
    obtain ⟨rfl, rfl⟩ := Prod.mk.inj hlisted
    obtain ⟨after, hafter, hpure⟩ := (bind_eq_ok_iff _ _).mp hok
    obtain ⟨rfl, rfl⟩ := Prod.mk.inj (Except.ok.inj hpure)
    exact ⟨hnodup, rfl, hafter⟩
  · rintro ⟨hnodup, rfl, hafter⟩
    refine ⟨listed document.nodes, hadded.mpr ⟨hnodup, rfl⟩, ?_⟩
    exact (bind_eq_ok_iff _ _).mpr ⟨graph, hafter, rfl⟩

theorem of_buildGraph {positions : NodePositions}
    (h : document.buildGraph = .ok (graph, positions)) :
    document.ids.Nodup ∧ positions = positionsOf document.ids ∧ graph.WellFormed ∧
      graph.nodes = document.nodes.map (NodeEntry.toBuildable document.place) := by
  obtain ⟨hnodup, hpositions, hok⟩ := document.buildGraph_eq_ok_iff.mp h
  obtain ⟨hfilled, -⟩ := document.filled_listed.of_foldlM hnodup hok
  exact ⟨hnodup, hpositions, hfilled.wellFormed, by simpa using hfilled.nodes⟩

theorem mentions_known {positions : NodePositions}
    (h : document.buildGraph = .ok (graph, positions)) {node : NodeEntry}
    (hnode : node ∈ document.nodes) {child : String} (hchild : node.Mentions child) :
    child ∈ document.ids := by
  obtain ⟨hnodup, -, hok⟩ := document.buildGraph_eq_ok_iff.mp h
  obtain ⟨-, hknown⟩ := document.filled_listed.of_foldlM hnodup hok
  exact (hknown node hnode child hchild).1

theorem contains_place {positions : NodePositions}
    (h : document.buildGraph = .ok (graph, positions)) {id : String} (hid : id ∈ document.ids) :
    graph.contains (document.place id) := by
  obtain ⟨hnodup, -, hok⟩ := document.buildGraph_eq_ok_iff.mp h
  exact (document.filled_listed.of_foldlM hnodup hok).1.contains hid

/-- No value that another one of its node replaces leads back to the node. -/
def RepeatsHarmlessly (document : GraphDocument) : Prop :=
  ∀ parent child, document.Mentions parent child →
    ReflTransGen document.Refers child parent → child = parent ∨ document.Refers parent child

theorem repeatsHarmlessly_of_nodup
    (h : ∀ node ∈ document.nodes, (node.valued.map Prod.fst).Nodup) :
    document.RepeatsHarmlessly := by
  rintro parent child ⟨node, hnode, rfl, argument, hargument, value, hvalue, hchild⟩ -
  refine .inr ⟨node, hnode, rfl, value, ?_, hchild⟩
  rw [Arguments.values, NodeEntry.settled, Arguments.entries_ofList (h node hnode)]
  refine List.mem_map.mpr ⟨(argument.name, value), ?_, rfl⟩
  exact List.mem_filterMap.mpr ⟨argument, hargument, by rw [hvalue]; rfl⟩

theorem exists_buildGraph (hnodup : document.ids.Nodup)
    (hmentions : ∀ parent child, document.Mentions parent child →
      child ∈ document.ids ∧ ¬ ReflTransGen document.Refers child parent) :
    ∃ result, document.buildGraph = .ok result := by
  obtain ⟨graph, hok⟩ := document.filled_listed.exists_foldlM hnodup hmentions
  exact ⟨(graph, _), document.buildGraph_eq_ok_iff.mpr ⟨hnodup, rfl, hok⟩⟩

theorem Filled.refers_place (h : Filled document document.nodes [] graph)
    (hnodup : document.ids.Nodup) {parent child : String}
    (hrefers : document.Refers parent child) :
    graph.Refers (document.place parent) (document.place child) := by
  obtain ⟨node, hnode, rfl, value, hvalue, hchild⟩ := hrefers
  have hbuildable : graph.get? (document.place node.id) =
      some (node.toBuildable document.place) := by
    simp [ConfigGraph.get?, h.nodes, getElem?_place hnodup hnode]
  refine (graph.refers_iff_parts _ _).mpr ⟨value.toValue document.place, ?_, ?_⟩
  · rw [ConfigGraph.parts_node hbuildable, NodeEntry.values_toBuildable]
    exact List.mem_map_of_mem hvalue
  · rw [DocumentValue.nodeReferences_toValue]
    exact List.mem_map_of_mem hchild

/-- A document whose repeated arguments do no harm has a graph exactly when no id comes twice
and no reference is unknown or leads back to its node. -/
theorem exists_buildGraph_iff (hharmless : document.RepeatsHarmlessly) :
    (∃ result, document.buildGraph = .ok result) ↔
      document.ids.Nodup ∧ ∀ parent child, document.Mentions parent child →
        child ∈ document.ids ∧ ¬ ReflTransGen document.Refers child parent := by
  constructor
  · rintro ⟨⟨graph, positions⟩, hok⟩
    obtain ⟨hnodup, -, hok⟩ := document.buildGraph_eq_ok_iff.mp hok
    obtain ⟨hfilled, hchildren⟩ := document.filled_listed.of_foldlM hnodup hok
    refine ⟨hnodup, fun parent child hmentions => ?_⟩
    obtain ⟨node, hnode, rfl, hchild⟩ := hmentions
    obtain ⟨hknown, hself⟩ := hchildren node hnode child hchild
    refine ⟨hknown, fun hback => ?_⟩
    obtain rfl | hrefers := hharmless node.id child ⟨node, hnode, rfl, hchild⟩ hback
    · exact hself rfl
    · -- The final graph has no cycle, and this reference is one of its own.
      have hcycle : TransGen document.Refers node.id node.id := .head' hrefers hback
      exact hfilled.wellFormed.acyclic _ (hcycle.lift document.place
        fun _ _ hstep => hfilled.refers_place hnodup hstep)
  · rintro ⟨hnodup, hmentions⟩
    exact exists_buildGraph hnodup hmentions

end GraphDocument

end ConfigLowering
