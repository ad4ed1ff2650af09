import Mathlib.Data.List.Nodup
import ConfigLowering.Proofs.Document.Nodes
import ConfigLowering.Proofs.Graph.Assignment

/-!
# Building the graph of a document

The nodes are added bare, in the order of the document, when no id comes twice. Then each
of them gets its arguments; its own references never count against it, only a way back
to it through the nodes that have their arguments already.
-/

namespace ConfigLowering

open Relation

/-! ## Positions -/

namespace GraphDocument

/-- Ids stand where they come first. -/
def placeIn (ids : List String) (id : String) : NodeId := ⟨ids.idxOf id⟩

def positionsOf (ids : List String) : NodePositions :=
  ids.zipIdx.map fun (id, index) => (id, ⟨index⟩)

theorem places_positionsOf (ids : List String) :
    DocumentValue.Places (positionsOf ids) ids (placeIn ids) := by
  intro id
  have hfrom : ∀ start, ((ids.zipIdx start).map fun (id, index) => (id, NodeId.mk index)).lookup
      id = if id ∈ ids then some ⟨start + ids.idxOf id⟩ else none := by
    induction ids with
    | nil => exact fun _ => rfl
    | cons other ids ih =>
        intro start
        rw [List.zipIdx_cons, List.map_cons, Arguments.lookup_cons_ite, ih (start + 1)]
        by_cases hid : id = other
        · simp [hid]
        · simp only [hid, List.mem_cons, false_or, if_false, List.idxOf_cons_ne ids (Ne.symm hid)]
          split
          · congr 2
            omega
          · rfl
  have hstart := hfrom 0
  rw [Nat.zero_add] at hstart
  exact hstart

theorem placeIn_injective {ids : List String} {first second : String} (hfirst : first ∈ ids)
    (h : placeIn ids first = placeIn ids second) : first = second :=
  (List.idxOf_inj hfirst).mp (NodeId.mk.inj h)

/-! ## Bare nodes -/

/-- The nodes of a document without their arguments. -/
def listed (nodes : List NodeEntry) : ConfigGraph × NodePositions :=
  (⟨nodes.map NodeEntry.bare, []⟩, positionsOf (nodes.map NodeEntry.id))

theorem addNode_listed (nodes : List NodeEntry) (node : NodeEntry) :
    addNode (listed nodes) node =
      if node.id ∈ nodes.map NodeEntry.id then .error (.duplicateNode node.id)
      else .ok (listed (nodes ++ [node])) := by
  have hadd : (listed nodes).1.addNode node.bare =
      (.ok ⟨nodes.length⟩, (listed (nodes ++ [node])).1) := by
    rw [ConfigGraph.addNode_eq_ok_iff]
    simp [listed, NodeEntry.bare, Buildable.references, Buildable.ofCallable, Arguments.empty,
      ConfigGraph.nodeCount]
  have hlookup := places_positionsOf (nodes.map NodeEntry.id) node.id
  change addNode ((listed nodes).1, positionsOf (nodes.map NodeEntry.id)) node = _
  by_cases hid : node.id ∈ nodes.map NodeEntry.id
  · rw [if_pos hid] at hlookup ⊢
    simp [addNode, hlookup, bind, Except.bind, throw, throwThe, MonadExceptOf.throw]
  · rw [if_neg hid] at hlookup ⊢
    rw [NodeEntry.bare] at hadd
    have hpositions : (listed (nodes ++ [node])).2 =
        positionsOf (nodes.map NodeEntry.id) ++ [(node.id, ⟨nodes.length⟩)] := by
      simp [listed, positionsOf, List.zipIdx_append]
    simp [addNode, hlookup, hadd, liftGraph, bind, Except.bind, pure, Except.pure, ← hpositions]

theorem foldlM_addNode_eq_ok_iff {nodes : List NodeEntry} (rest : List NodeEntry)
    (hnodes : (nodes.map NodeEntry.id).Nodup) {state : ConfigGraph × NodePositions} :
    rest.foldlM addNode (listed nodes) = .ok state ↔
      ((nodes ++ rest).map NodeEntry.id).Nodup ∧ state = listed (nodes ++ rest) := by
  induction rest generalizing nodes with
  | nil => simp [hnodes, pure, Except.pure, eq_comm]
  | cons node rest ih =>
      rw [List.foldlM_cons, addNode_listed]
      by_cases hid : node.id ∈ nodes.map NodeEntry.id
      · have hrepeated : ¬ ((nodes ++ node :: rest).map NodeEntry.id).Nodup := by
          simp only [List.map_append, List.map_cons, List.nodup_append]
          rintro ⟨-, -, hdisjoint⟩
          exact hdisjoint _ hid _ List.mem_cons_self rfl
        rw [if_pos hid, bind_eq_ok_iff]
        constructor
        · rintro ⟨_, hrefused, _⟩
          contradiction
        · rintro ⟨hdistinct, -⟩
          exact absurd hdistinct hrepeated
      · have hlonger : ((nodes ++ [node]).map NodeEntry.id).Nodup := by
          rw [List.map_append, List.nodup_append]
          refine ⟨hnodes, List.nodup_singleton _, ?_⟩
          rintro id hmem _ hother rfl
          exact hid (List.mem_singleton.mp hother ▸ hmem)
        have hrest := ih hlonger
        rw [List.append_assoc, List.singleton_append] at hrest
        rw [if_neg hid]
        exact hrest

end GraphDocument

/-! ## Replaced nodes -/

namespace ConfigGraph

variable {graph : ConfigGraph} {id : NodeId} {buildable : Buildable}

theorem replaceNode_self (h : graph.get? id = some buildable) :
    graph.replaceNode id buildable = graph := by
  obtain ⟨hlt, rfl⟩ := List.getElem?_eq_some_iff.mp h
  simp [replaceNode]

theorem replaceNode_replaceNode (first second : Buildable) :
    (graph.replaceNode id first).replaceNode id second = graph.replaceNode id second := by
  simp [replaceNode]

theorem addTag_eq_ok (h : graph.get? id = some buildable) (field : String) (tag : Symbol) :
    graph.addTag id field tag =
      (.ok (!buildable.hasTag field tag), graph.replaceNode id (buildable.addTag field tag)) := by
  rw [addTag, update_eq, h]

/-- References from other nodes than this one. -/
def RefersPast (graph : ConfigGraph) (id parent child : NodeId) : Prop :=
  graph.Refers parent child ∧ parent ≠ id

theorem reaches_iff_past (graph : ConfigGraph) (id child : NodeId) :
    ReflTransGen graph.Refers child id ↔ ReflTransGen (graph.RefersPast id) child id :=
  ⟨path_to_first_arrival, ReflTransGen.mono (fun _ _ h => h.1) child id⟩

theorem refersPast_of_set {after : ConfigGraph} (h : after.nodes = graph.nodes.set id.index buildable) :
    after.RefersPast id = graph.RefersPast id := by
  funext parent child
  have hsame : parent ≠ id → after.get? parent = graph.get? parent := by
    intro hparent
    have hindex : id.index ≠ parent.index := fun heq => hparent (by cases parent; cases id; simp_all)
    rw [get?, get?, h, List.getElem?_set_ne hindex]
  simp only [RefersPast, Refers]
  grind

end ConfigGraph

namespace GraphDocument

open DocumentValue (Places)

variable {graph after : ConfigGraph} {ids : List String} {positions : NodePositions}
  {place : String → NodeId} {id : NodeId} {buildable : Buildable} {argument : ArgumentEntry}

theorem liftGraph_eq_ok_iff {α : Type} {outcome : Except GraphError α × ConfigGraph} {answer : α} :
    liftGraph outcome = .ok (answer, after) ↔ outcome = (.ok answer, after) := by
  rcases outcome with ⟨error | answer, graph⟩ <;> simp [liftGraph]

theorem foldlM_addTag (h : graph.get? id = some buildable) (field : String)
    (tags : List Symbol) :
    (tags.foldlM (fun graph tag => do
      let (_, graph) ← liftGraph (graph.addTag id field tag)
      return graph) graph : Except DocumentError ConfigGraph) =
      .ok (graph.replaceNode id
        (tags.foldl (fun buildable tag => buildable.addTag field tag) buildable)) := by
  induction tags generalizing graph buildable with
  | nil =>
      rw [List.foldl_nil, ConfigGraph.replaceNode_self h]
      rfl
  | cons tag tags ih =>
      have hid : graph.contains id := (graph.contains_iff id).mpr ⟨buildable, h⟩
      have htagged : (graph.replaceNode id (buildable.addTag field tag)).get? id =
          some (buildable.addTag field tag) := by
        rw [ConfigGraph.get?_replaceNode hid, if_pos rfl]
      have hnext := ih htagged
      rw [ConfigGraph.replaceNode_replaceNode] at hnext
      rw [List.foldlM_cons, ConfigGraph.addTag_eq_ok h]
      exact hnext

/-! ## One argument -/

/-- The references of an argument are known, and none leads to the node through others. -/
def Fits (graph : ConfigGraph) (ids : List String) (place : String → NodeId) (id : NodeId)
    (argument : ArgumentEntry) : Prop :=
  ∀ value, argument.value = some value → ∀ child ∈ value.references,
    child ∈ ids ∧ ¬ ReflTransGen (graph.RefersPast id) (place child) id

/-- The graph in which one node has an argument more. -/
def extended (graph : ConfigGraph) (place : String → NodeId) (id : NodeId)
    (buildable : Buildable) (argument : ArgumentEntry) : ConfigGraph :=
  (argument.value.elim graph fun value =>
    graph.assigned id buildable argument.name (value.toValue place)).replaceNode id
      (argument.assignTo place buildable)

theorem setArgument_eq_ok_iff_fits (hgraph : graph.WellFormed)
    (hbuildable : graph.get? id = some buildable) (hknown : ∀ id ∈ ids, graph.contains (place id))
    {value : DocumentValue} (hvalue : argument.value = some value)
    {displaced : Option Value} :
    value.references ⊆ ids ∧
        graph.setArgument id argument.name (value.toValue place) = (.ok displaced, after) ↔
      Fits graph ids place id argument ∧ displaced = buildable.arguments.get? argument.name ∧
        after = graph.assigned id buildable argument.name (value.toValue place) := by
  rw [graph.setArgument_eq_ok_iff]
  simp only [hbuildable, Option.some.injEq, exists_eq_left', hgraph.checkReference_eq_ok_iff,
    DocumentValue.nodeReferences_toValue, List.forall_mem_map, Fits, hvalue, forall_eq',
    ConfigGraph.reaches_iff_past]
  grind

theorem assignValue_eq_ok_iff (hgraph : graph.WellFormed)
    (hbuildable : graph.get? id = some buildable) (hplaces : Places positions ids place)
    (hknown : ∀ id ∈ ids, graph.contains (place id)) :
    assignValue positions id argument graph = .ok after ↔
      Fits graph ids place id argument ∧
        after = argument.value.elim graph fun value =>
          graph.assigned id buildable argument.name (value.toValue place) := by
  rw [assignValue]
  cases hvalue : argument.value with
  | none => simp [Fits, hvalue, pure, Except.pure, eq_comm]
  | some value =>
      simp only [bind_eq_ok_iff, DocumentValue.resolve_eq_ok_iff hplaces, Option.elim_some]
      constructor
      · rintro ⟨_, ⟨hreferences, rfl⟩, ⟨displaced, _⟩, hset, ⟨⟩⟩
        have hfits := (setArgument_eq_ok_iff_fits hgraph hbuildable hknown hvalue).mp
          ⟨hreferences, liftGraph_eq_ok_iff.mp hset⟩
        exact ⟨hfits.1, hfits.2.2⟩
      · rintro ⟨hfits, rfl⟩
        obtain ⟨hreferences, hset⟩ := (setArgument_eq_ok_iff_fits hgraph hbuildable hknown
          hvalue).mpr ⟨hfits, rfl, rfl⟩
        exact ⟨_, ⟨hreferences, rfl⟩, _, liftGraph_eq_ok_iff.mpr hset, rfl⟩

theorem assignArgument_eq_ok_iff (hgraph : graph.WellFormed)
    (hbuildable : graph.get? id = some buildable) (hplaces : Places positions ids place)
    (hknown : ∀ id ∈ ids, graph.contains (place id)) :
    assignArgument positions id graph argument = .ok after ↔
      Fits graph ids place id argument ∧ after = extended graph place id buildable argument := by
  have hassigned : ∀ assigned, assignValue positions id argument graph = .ok assigned →
      assigned.get? id = some (argument.value.elim buildable fun value =>
        buildable.assign argument.name (value.toValue place)) := by
    intro assigned hassigned
    rw [((assignValue_eq_ok_iff hgraph hbuildable hplaces hknown).mp hassigned).2]
    cases argument.value with
    | none => exact hbuildable
    | some value =>
        have hid : graph.contains id := (graph.contains_iff id).mpr ⟨buildable, hbuildable⟩
        rw [Option.elim_some, Option.elim_some, ConfigGraph.get?_assigned hid, if_pos rfl]
  rw [assignArgument, bind_eq_ok_iff]
  constructor
  · rintro ⟨assigned, hvalue, htags⟩
    rw [foldlM_addTag (hassigned assigned hvalue)] at htags
    obtain ⟨hfits, rfl⟩ := (assignValue_eq_ok_iff hgraph hbuildable hplaces hknown).mp hvalue
    exact ⟨hfits, (Except.ok.inj htags).symm⟩
  · rintro ⟨hfits, rfl⟩
    have hvalue := (assignValue_eq_ok_iff hgraph hbuildable hplaces hknown).mpr ⟨hfits, rfl⟩
    exact ⟨_, hvalue, foldlM_addTag (hassigned _ hvalue) _ _⟩

theorem nodes_extended (graph : ConfigGraph) (place : String → NodeId) (id : NodeId)
    (buildable : Buildable) (argument : ArgumentEntry) :
    (extended graph place id buildable argument).nodes =
      graph.nodes.set id.index (argument.assignTo place buildable) := by
  rw [extended]
  cases argument.value with
  | none => rfl
  | some value => simp [ConfigGraph.replaceNode, ConfigGraph.assigned]

theorem wellFormed_extended (hgraph : graph.WellFormed)
    (hbuildable : graph.get? id = some buildable) (hknown : ∀ id ∈ ids, graph.contains (place id))
    (hfits : Fits graph ids place id argument) :
    (extended graph place id buildable argument).WellFormed := by
  have hwell := hgraph.nodes id buildable hbuildable
  rw [extended, ArgumentEntry.assignTo]
  cases hvalue : argument.value with
  | none => exact hgraph.replaceNode hbuildable hwell.addTags Buildable.arguments_addTags
  | some value =>
      have hid : graph.contains id := (graph.contains_iff id).mpr ⟨buildable, hbuildable⟩
      obtain ⟨-, hset⟩ := (setArgument_eq_ok_iff_fits hgraph hbuildable hknown hvalue).mpr
        ⟨hfits, rfl, rfl⟩
      refine (hgraph.setArgument hset).replaceNode ?_ (hwell.assign _ _).addTags
        Buildable.arguments_addTags
      rw [ConfigGraph.get?_assigned hid, if_pos rfl]
      rfl

/-! ## The arguments of one node -/

theorem fits_extended (graph : ConfigGraph) (ids : List String) (place : String → NodeId)
    (id : NodeId) (buildable : Buildable) (argument other : ArgumentEntry) :
    Fits (extended graph place id buildable argument) ids place id other ↔
      Fits graph ids place id other := by
  rw [Fits, Fits, ConfigGraph.refersPast_of_set (nodes_extended ..)]

theorem foldlM_assignArgument (hgraph : graph.WellFormed)
    (hbuildable : graph.get? id = some buildable) (hplaces : Places positions ids place)
    (hknown : ∀ id ∈ ids, graph.contains (place id)) (arguments : List ArgumentEntry) :
    ((∃ after, arguments.foldlM (assignArgument positions id) graph = .ok after) ↔
      ∀ argument ∈ arguments, Fits graph ids place id argument) ∧
    ∀ after, arguments.foldlM (assignArgument positions id) graph = .ok after →
      after.WellFormed ∧ after.nodes = graph.nodes.set id.index
        (arguments.foldl (ArgumentEntry.assignTo place) buildable) := by
  induction arguments generalizing graph buildable with
  | nil =>
      refine ⟨⟨fun _ => nofun, fun _ => ⟨graph, rfl⟩⟩, ?_⟩
      intro after hafter
      obtain rfl := Except.ok.inj hafter
      exact ⟨hgraph, (congrArg ConfigGraph.nodes (ConfigGraph.replaceNode_self hbuildable)).symm⟩
  | cons argument arguments ih =>
      rw [List.foldlM_cons]
      by_cases hfits : Fits graph ids place id argument
      · have hstep := (assignArgument_eq_ok_iff hgraph hbuildable hplaces hknown).mpr ⟨hfits, rfl⟩
        have hnodes := nodes_extended graph place id buildable argument
        obtain ⟨hlt, -⟩ := List.getElem?_eq_some_iff.mp hbuildable
        obtain ⟨haccepts, hafter⟩ := ih (wellFormed_extended hgraph hbuildable hknown hfits)
          (by rw [ConfigGraph.get?, hnodes, List.getElem?_set_self hlt])
          (by simpa [ConfigGraph.contains_iff_lt, ConfigGraph.nodeCount, hnodes] using hknown)
        rw [hstep, List.forall_mem_cons]
        -- Which arguments fit does not depend on those that the node has got before.
        simp only [fits_extended, hnodes, List.set_set] at haccepts hafter
        exact ⟨haccepts.trans (and_iff_right hfits).symm, hafter⟩
      · have hstep : ∀ after, assignArgument positions id graph argument ≠ .ok after := fun _ h =>
          hfits ((assignArgument_eq_ok_iff hgraph hbuildable hplaces hknown).mp h).1
        simp only [bind_eq_ok_iff, hstep, false_and, exists_false, List.forall_mem_cons, hfits,
          false_implies, implies_true, and_true]

end GraphDocument

end ConfigLowering
