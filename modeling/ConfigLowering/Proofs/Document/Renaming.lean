import ConfigLowering.Proofs.Document.Ordering
import ConfigLowering.Proofs.Document.Tasks
import ConfigLowering.Proofs.Registration.Renaming
import ConfigLowering.Proofs.Substitution.Renaming

/-!
# Documents with other ids

Documents whose nodes have other ids and stand in another order have the same graph up to the
numbers of its nodes. What is generated from them is the same.
-/

namespace ConfigLowering

/-! ## Documents under other ids -/

namespace DocumentValue

mutual

def rename (change : String → String) : DocumentValue → DocumentValue
  | .node id => .node (change id)
  | .list items => .list (renameItems change items)
  | .tuple items => .tuple (renameItems change items)
  | .dict entries => .dict (renameEntries change entries)
  | leaf => leaf

def renameItems (change : String → String) : List DocumentValue → List DocumentValue
  | [] => []
  | item :: items => item.rename change :: renameItems change items

def renameEntries (change : String → String) :
    List (String × DocumentValue) → List (String × DocumentValue)
  | [] => []
  | (name, item) :: entries => (name, item.rename change) :: renameEntries change entries

end

end DocumentValue

variable (change : String → String)

def ArgumentEntry.rename (argument : ArgumentEntry) : ArgumentEntry :=
  { argument with value := argument.value.map (DocumentValue.rename change) }

def NodeEntry.rename (node : NodeEntry) : NodeEntry :=
  { node with id := change node.id, arguments := node.arguments.map (ArgumentEntry.rename change) }

def VariableEntry.rename (declaration : VariableEntry) : VariableEntry :=
  { declaration with value := declaration.value.rename change }

namespace FixtureEntry

mutual

def rename (change : String → String) : FixtureEntry → FixtureEntry
  | .entry name parameters declarations output children =>
      .entry name parameters (declarations.map (VariableEntry.rename change))
        (output.rename change) (renameChildren change children)

def renameChildren (change : String → String) : List FixtureEntry → List FixtureEntry
  | [] => []
  | child :: children => child.rename change :: renameChildren change children

end

end FixtureEntry

def GraphDocument.rename (document : GraphDocument) : GraphDocument where
  nodes := document.nodes.map (NodeEntry.rename change)
  fixture := document.fixture.rename change

variable {change} {place further : String → NodeId} {renumber : NodeId → NodeId}

/-! ## Values -/

namespace DocumentValue

mutual

theorem toValue_rename (value : DocumentValue)
    (h : ∀ id ∈ value.references, further (change id) = renumber (place id)) :
    (value.rename change).toValue further = (value.toValue place).rename renumber := by
  cases value with
  | node id => exact congrArg Value.node (h id List.mem_cons_self)
  | list items => exact congrArg Value.list (itemsToValues_rename items h)
  | tuple items => exact congrArg Value.tuple (itemsToValues_rename items h)
  | dict entries => exact congrArg Value.dict (entriesToValues_rename entries h)
  | _ => rfl

theorem itemsToValues_rename (items : List DocumentValue)
    (h : ∀ id ∈ referencesOfItems items, further (change id) = renumber (place id)) :
    itemsToValues further (renameItems change items) =
      Value.renameItems renumber (itemsToValues place items) := by
  cases items with
  | nil => rfl
  | cons item items =>
      obtain ⟨hitem, hitems⟩ := List.forall_mem_append.mp h
      rw [renameItems, itemsToValues, itemsToValues, Value.renameItems, toValue_rename item hitem,
        itemsToValues_rename items hitems]

theorem entriesToValues_rename (entries : List (String × DocumentValue))
    (h : ∀ id ∈ referencesOfEntries entries, further (change id) = renumber (place id)) :
    entriesToValues further (renameEntries change entries) =
      Value.renameEntries renumber (entriesToValues place entries) := by
  cases entries with
  | nil => rfl
  | cons entry entries =>
      obtain ⟨name, item⟩ := entry
      obtain ⟨hitem, hentries⟩ := List.forall_mem_append.mp h
      rw [renameEntries, entriesToValues, entriesToValues, Value.renameEntries,
        toValue_rename item hitem, entriesToValues_rename entries hentries]

end

end DocumentValue

/-! ## Nodes -/

theorem ArgumentEntry.assignTo_rename (argument : ArgumentEntry) (buildable : Buildable)
    (h : ∀ value, argument.value = some value → ∀ id ∈ value.references,
      further (change id) = renumber (place id)) :
    (argument.rename change).assignTo further (buildable.rename renumber) =
      (argument.assignTo place buildable).rename renumber := by
  rw [assignTo, assignTo, Buildable.rename_addTags]
  cases hvalue : argument.value with
  | none => simp [rename, hvalue]
  | some value =>
      simp [rename, hvalue, Buildable.rename_assign,
        DocumentValue.toValue_rename value (h value hvalue)]

theorem NodeEntry.toBuildable_rename (node : NodeEntry)
    (h : ∀ id, node.Mentions id → further (change id) = renumber (place id)) :
    (node.rename change).toBuildable further = (node.toBuildable place).rename renumber := by
  have hfold : ∀ (arguments : List ArgumentEntry) (buildable : Buildable),
      (∀ argument ∈ arguments, argument ∈ node.arguments) →
      (arguments.map (ArgumentEntry.rename change)).foldl (ArgumentEntry.assignTo further)
          (buildable.rename renumber) =
        (arguments.foldl (ArgumentEntry.assignTo place) buildable).rename renumber := by
    intro arguments
    induction arguments with
    | nil => exact fun _ _ => rfl
    | cons argument arguments ih =>
        intro buildable hmem
        obtain ⟨hargument, hothers⟩ := List.forall_mem_cons.mp hmem
        have hreferences : ∀ value, argument.value = some value → ∀ id ∈ value.references,
            further (change id) = renumber (place id) :=
          fun value hvalue id hid => h id ⟨argument, hargument, value, hvalue, hid⟩
        rw [List.map_cons, List.foldl_cons, List.foldl_cons,
          argument.assignTo_rename buildable hreferences]
        exact ih _ hothers
  exact hfold node.arguments node.bare fun _ hmem => hmem

/-! ## Fixtures -/

namespace FixtureEntry

mutual

theorem toTree_rename (entry : FixtureEntry)
    (h : ∀ id ∈ entry.references, further (change id) = renumber (place id)) :
    (entry.rename change).toTree further = (entry.toTree place).map (Value.rename renumber) := by
  obtain ⟨name, parameters, declarations, output, children⟩ := entry
  obtain ⟨hbody, hchildren⟩ := List.forall_mem_append.mp h
  obtain ⟨houtput, hdeclarations⟩ := List.forall_mem_append.mp hbody
  have hvariables : (declarations.map (VariableEntry.rename change)).map
      (VariableEntry.toVariable further) = (declarations.map (VariableEntry.toVariable place)).map
        fun declaration =>
          { declaration with expression := declaration.expression.rename renumber } := by
    rw [List.map_map, List.map_map]
    refine List.map_congr_left fun declaration hmem => ?_
    have hvalue := declaration.value.toValue_rename fun id hid =>
      hdeclarations id (List.mem_flatMap_of_mem hmem hid)
    simp [VariableEntry.rename, VariableEntry.toVariable, hvalue]
  simp only [rename, toTree, CallTree.map, Fixture.map, output.toValue_rename houtput, hvariables,
    childrenToTrees_rename children hchildren]

theorem childrenToTrees_rename (children : List FixtureEntry)
    (h : ∀ id ∈ referencesOfChildren children, further (change id) = renumber (place id)) :
    childrenToTrees further (renameChildren change children) =
      CallTree.mapAll (Value.rename renumber) (childrenToTrees place children) := by
  cases children with
  | nil => rfl
  | cons child children =>
      obtain ⟨hchild, hchildren⟩ := List.forall_mem_append.mp h
      rw [renameChildren, childrenToTrees, childrenToTrees, CallTree.mapAll,
        toTree_rename child hchild, childrenToTrees_rename children hchildren]

end

mutual

theorem references_toTree (place : String → NodeId) (entry : FixtureEntry) :
    ∀ fixture ∈ (entry.toTree place).fixtures, ∀ value ∈ fixture.values,
      value.nodeReferences ⊆ entry.references.map place := by
  obtain ⟨name, parameters, declarations, output, children⟩ := entry
  rw [toTree, CallTree.fixtures, references, List.map_append, List.map_append]
  refine List.forall_mem_cons.mpr ⟨fun value hvalue => ?_, fun fixture hfixture value hvalue => ?_⟩
  · refine List.subset_append_of_subset_left _ ?_
    rw [Fixture.values_eq, List.map_map] at hvalue
    obtain hvalue | hvalue := List.mem_append.mp hvalue
    · obtain ⟨declaration, hmem, rfl⟩ := List.mem_map.mp hvalue
      refine List.subset_append_of_subset_right _ ?_
      rw [Function.comp_apply, VariableEntry.toVariable, DocumentValue.nodeReferences_toValue]
      exact List.map_subset place fun id hid => List.mem_flatMap_of_mem hmem hid
    · rw [List.mem_singleton.mp hvalue, DocumentValue.nodeReferences_toValue]
      exact List.subset_append_left _ _
  · exact List.subset_append_of_subset_right _
      (references_childrenToTrees place children fixture hfixture value hvalue)

theorem references_childrenToTrees (place : String → NodeId) (children : List FixtureEntry) :
    ∀ fixture ∈ CallTree.fixturesOfAll (childrenToTrees place children),
      ∀ value ∈ fixture.values,
        value.nodeReferences ⊆ (referencesOfChildren children).map place := by
  cases children with
  | nil => exact nofun
  | cons child children =>
      rw [referencesOfChildren, List.map_append]
      refine List.forall_mem_append.mpr ⟨fun fixture hfixture value hvalue => ?_,
        fun fixture hfixture value hvalue => ?_⟩
      · exact List.subset_append_of_subset_left _
          (references_toTree place child fixture hfixture value hvalue)
      · exact List.subset_append_of_subset_right _
          (references_childrenToTrees place children fixture hfixture value hvalue)

end

end FixtureEntry

/-! ## Graphs -/

namespace GraphDocument

variable {document other : GraphDocument} {graph renamed : ConfigGraph}
  {positions otherPositions : NodePositions}

theorem ids_rename (change : String → String) (document : GraphDocument) :
    (document.rename change).ids = document.ids.map change := by
  simp [ids, rename, NodeEntry.rename]

/-- What has the other ids stands where it stood before. -/
theorem place_rename (hnodup : document.ids.Nodup) (hrenamed : (document.rename change).ids.Nodup)
    {id : String} (hid : id ∈ document.ids) :
    (document.rename change).place (change id) = document.place id := by
  obtain ⟨index, hindex⟩ := List.mem_iff_getElem?.mp hid
  rw [place_of_id hnodup hindex]
  refine place_of_id hrenamed ?_
  rw [ids_rename, List.getElem?_map, hindex]
  rfl

theorem renames_of_perm (h : (document.rename change).nodes.Perm other.nodes)
    (hok : document.buildGraph = .ok (graph, positions))
    (hok' : other.buildGraph = .ok (renamed, otherPositions)) :
    graph.Renames renamed ((document.rename change).renumber other) ∧
      ∀ id ∈ document.ids, other.place (change id) =
        (document.rename change).renumber other (document.place id) := by
  obtain ⟨hnodup, -, -, hnodes⟩ := of_buildGraph hok
  obtain ⟨hnodup', -, -, hnodes'⟩ := of_buildGraph hok'
  have hids := ids_perm h
  have hrenamed := hids.nodup_iff.mpr hnodup'
  have hplaces : ∀ id ∈ document.ids, other.place (change id) =
      (document.rename change).renumber other (document.place id) := by
    intro id hid
    rw [← place_rename hnodup hrenamed hid, renumber_place hids]
  refine ⟨⟨(renumber_bijective hids hrenamed).injective, fun id => ?_, ?_⟩, hplaces⟩
  · rw [ConfigGraph.get?, ConfigGraph.get?, hnodes, hnodes', List.getElem?_map, List.getElem?_map,
      nodes_renumber h hrenamed, rename, List.getElem?_map, Option.map_map, Option.map_map]
    refine Option.map_congr fun node hnode => ?_
    refine node.toBuildable_rename fun child hchild => hplaces child ?_
    exact mentions_known hok (List.mem_of_getElem? hnode) hchild
  · rw [ConfigGraph.nodeCount, ConfigGraph.nodeCount, hnodes, hnodes', List.length_map,
      List.length_map, ← h.length_eq, rename, List.length_map]

/-! ## Tasks -/

variable {settings : ImportSettings} {task renamedTask : Task}

theorem grounded_toTask (h : document.toTask settings = .ok (task, positions)) :
    task.Grounded := by
  obtain ⟨graph, hgraph, hknown, rfl⟩ := toTask_eq_ok h
  obtain ⟨-, -, hwell, -⟩ := of_buildGraph hgraph
  refine ⟨hwell, fun fixture hfixture value hvalue id hid => ?_⟩
  have hmem := FixtureEntry.references_toTree document.place document.fixture fixture hfixture value
    hvalue hid
  obtain ⟨name, hname, rfl⟩ := List.mem_map.mp hmem
  exact contains_place hgraph (hknown hname)

/-- What is generated from a document depends on its nodes only up to their order and their ids.
If two documents that differ in these have tasks, both give the same error, or the same
summary, imports and fixtures. Two nodes never get one id, or there would be no task. -/
theorem generated_up_to_names (hnodes : (document.rename change).nodes.Perm other.nodes)
    (hfixture : other.fixture = (document.rename change).fixture)
    (h : document.toTask settings = .ok (task, positions))
    (h' : other.toTask settings = .ok (renamedTask, otherPositions))
    {history : Buildable → History} (hhistory : History.Blind history) :
    renamedTask.generated history = task.generated history := by
  have hground := grounded_toTask h
  obtain ⟨graph, hgraph, hknown, rfl⟩ := toTask_eq_ok h
  obtain ⟨renamed, hrenamed, -, rfl⟩ := toTask_eq_ok h'
  obtain ⟨hrenames, hplaces⟩ := renames_of_perm hnodes hgraph hrenamed
  have htree : other.fixture.toTree other.place = (document.fixture.toTree document.place).map
      (Value.rename ((document.rename change).renumber other)) := by
    rw [hfixture]
    exact document.fixture.toTree_rename fun id hid => hplaces id (hknown hid)
  exact Task.Renames.generated ⟨hrenames, rfl, htree, rfl, rfl⟩ hground hhistory

def outerAndInner : GraphDocument where
  nodes := [⟨"outer", .config, .classType "models" "Outer", [⟨"inner", some (.node "inner"), []⟩]⟩,
    ⟨"inner", .config, .classType "models" "Inner",
      [⟨"size", some (.int 1), [.classType "tags" "Size"]⟩]⟩]
  fixture := .entry "build" [] [] (.node "outer") []

/-- The same document with other ids, and the inner node first. -/
def secondAndFirst : GraphDocument where
  nodes := [⟨"second", .config, .classType "models" "Inner",
      [⟨"size", some (.int 1), [.classType "tags" "Size"]⟩]⟩,
    ⟨"first", .config, .classType "models" "Outer", [⟨"inner", some (.node "second"), []⟩]⟩]
  fixture := .entry "build" [] [] (.node "first") []

def firstOrSecond (id : String) : String := if id = "outer" then "first" else "second"

theorem generated_up_to_names_secondAndFirst :
    (outerAndInner.rename firstOrSecond).nodes.Perm secondAndFirst.nodes ∧
      ∃ task renamed positions otherPositions,
        outerAndInner.toTask .default = .ok (task, positions) ∧
        secondAndFirst.toTask .default = .ok (renamed, otherPositions) ∧
        (task.generated argumentHistory).isOk ∧
        renamed.generated argumentHistory = task.generated argumentHistory := by
  have hnodes : (outerAndInner.rename firstOrSecond).nodes.Perm secondAndFirst.nodes := by
    simp only [outerAndInner, secondAndFirst, GraphDocument.rename, NodeEntry.rename,
      ArgumentEntry.rename, DocumentValue.rename, firstOrSecond, List.map_cons, List.map_nil,
      Option.map_some]
    exact .swap ..
  have hfixture : secondAndFirst.fixture = (outerAndInner.rename firstOrSecond).fixture := rfl
  refine ⟨hnodes, _, _, _, _, rfl, rfl, by decide +kernel, ?_⟩
  exact generated_up_to_names hnodes hfixture rfl rfl blind_argumentHistory

end GraphDocument

end ConfigLowering
