import ConfigLowering.Proofs.Document.Acceptance
import ConfigLowering.Proofs.Substitution.Tasks

/-!
# Tasks of documents

The fixtures of a document become a call tree when all their references are known. A task
that comes from a document holds no code.
-/

namespace ConfigLowering

/-! ## Fixtures -/

def VariableEntry.toVariable (place : String → NodeId) (declaration : VariableEntry) : Variable :=
  ⟨declaration.name, declaration.value.toValue place⟩

namespace FixtureEntry

mutual

def references : FixtureEntry → List String
  | .entry _ _ declarations output children =>
      output.references ++ declarations.flatMap (·.value.references) ++
        referencesOfChildren children

def referencesOfChildren : List FixtureEntry → List String
  | [] => []
  | child :: children => child.references ++ referencesOfChildren children

end

mutual

/-- The call tree, given the place of each id. -/
def toTree (place : String → NodeId) : FixtureEntry → CallTree
  | .entry name parameters declarations output children =>
      .node ⟨name, parameters, declarations.map (·.toVariable place), output.toValue place⟩
        (childrenToTrees place children)

def childrenToTrees (place : String → NodeId) : List FixtureEntry → List CallTree
  | [] => []
  | child :: children => child.toTree place :: childrenToTrees place children

end

open DocumentValue (Places)

variable {positions : NodePositions} {ids : List String} {place : String → NodeId}

theorem resolveVariable_eq_ok_iff (hplaces : Places positions ids place)
    (declaration : VariableEntry) (result : Variable) :
    resolveVariable positions declaration = .ok result ↔
      declaration.value.references ⊆ ids ∧ result = declaration.toVariable place := by
  simp only [resolveVariable, bind_eq_ok_iff, DocumentValue.resolve_eq_ok_iff hplaces]
  constructor
  · rintro ⟨_, ⟨hknown, rfl⟩, ⟨⟩⟩
    exact ⟨hknown, rfl⟩
  · rintro ⟨hknown, rfl⟩
    exact ⟨_, ⟨hknown, rfl⟩, rfl⟩

mutual

theorem toCallTree_eq_ok_iff (hplaces : Places positions ids place) (fixture : FixtureEntry)
    {tree : CallTree} :
    fixture.toCallTree positions = .ok tree ↔
      fixture.references ⊆ ids ∧ tree = fixture.toTree place := by
  obtain ⟨name, parameters, declarations, output, children⟩ := fixture
  have hvariables : declarations.flatMap (·.value.references) ⊆ ids ↔
      ∀ declaration ∈ declarations, declaration.value.references ⊆ ids := by
    simp only [List.subset_def, List.mem_flatMap]
    grind
  simp only [toCallTree, references, toTree, bind_eq_ok_iff,
    DocumentValue.resolve_eq_ok_iff hplaces,
    mapM_eq_ok_iff (resolveVariable_eq_ok_iff hplaces) declarations,
    toCallTrees_eq_ok_iff hplaces children, List.append_subset, hvariables]
  constructor
  · rintro ⟨_, ⟨houtput, rfl⟩, _, ⟨hdeclarations, rfl⟩, _, ⟨hchildren, rfl⟩, ⟨⟩⟩
    exact ⟨⟨⟨houtput, hdeclarations⟩, hchildren⟩, rfl⟩
  · rintro ⟨⟨⟨houtput, hdeclarations⟩, hchildren⟩, rfl⟩
    exact ⟨_, ⟨houtput, rfl⟩, _, ⟨hdeclarations, rfl⟩, _, ⟨hchildren, rfl⟩, rfl⟩

theorem toCallTrees_eq_ok_iff (hplaces : Places positions ids place)
    (children : List FixtureEntry) {trees : List CallTree} :
    toCallTrees positions children = .ok trees ↔
      referencesOfChildren children ⊆ ids ∧ trees = childrenToTrees place children := by
  cases children with
  | nil =>
      simp [toCallTrees, referencesOfChildren, childrenToTrees, pure, Except.pure, eq_comm]
  | cons child children =>
      simp only [toCallTrees, bind_eq_ok_iff, toCallTree_eq_ok_iff hplaces child,
        toCallTrees_eq_ok_iff hplaces children, referencesOfChildren, childrenToTrees,
        List.append_subset]
      constructor
      · rintro ⟨_, ⟨hchild, rfl⟩, _, ⟨hchildren, rfl⟩, ⟨⟩⟩
        exact ⟨⟨hchild, hchildren⟩, rfl⟩
      · rintro ⟨⟨hchild, hchildren⟩, rfl⟩
        exact ⟨_, ⟨hchild, rfl⟩, _, ⟨hchildren, rfl⟩, rfl⟩

end

mutual

theorem codeless_toTree (place : String → NodeId) (entry : FixtureEntry) :
    ∀ fixture ∈ (entry.toTree place).fixtures, ∀ value ∈ fixture.values,
      value.Everywhere fun part => part.isCode = false := by
  obtain ⟨name, parameters, declarations, output, children⟩ := entry
  rw [toTree, CallTree.fixtures]
  refine List.forall_mem_cons.mpr ⟨fun value hvalue => ?_, codeless_childrenToTrees place children⟩
  rw [Fixture.values_eq] at hvalue
  obtain hvalue | hvalue := List.mem_append.mp hvalue
  · rw [List.map_map] at hvalue
    obtain ⟨declaration, -, rfl⟩ := List.mem_map.mp hvalue
    exact DocumentValue.codeless_toValue place declaration.value
  · rw [List.mem_singleton.mp hvalue]
    exact DocumentValue.codeless_toValue place output

theorem codeless_childrenToTrees (place : String → NodeId) (children : List FixtureEntry) :
    ∀ fixture ∈ CallTree.fixturesOfAll (childrenToTrees place children),
      ∀ value ∈ fixture.values, value.Everywhere fun part => part.isCode = false := by
  cases children with
  | nil => exact nofun
  | cons child children =>
      exact List.forall_mem_append.mpr
        ⟨codeless_toTree place child, codeless_childrenToTrees place children⟩

end

end FixtureEntry

/-! ## Tasks -/

/-- A part is a child, or an argument of the node that a reference stands for. -/
theorem ConfigGraph.mem_parts {graph : ConfigGraph} {whole part : Value}
    (h : part ∈ graph.parts whole) :
    part ∈ whole.children ∨ ∃ id buildable, graph.get? id = some buildable ∧
      part ∈ buildable.arguments.values := by
  cases whole with
  | node id =>
      rw [parts] at h
      cases hbuildable : graph.get? id with
      | none =>
          rw [hbuildable] at h
          contradiction
      | some buildable =>
          rw [hbuildable] at h
          exact .inr ⟨id, buildable, hbuildable, h⟩
  | _ => exact .inl h

theorem ConfigGraph.everywhere_below {graph : ConfigGraph} {fine : Value → Prop}
    (hnodes : ∀ id buildable, graph.get? id = some buildable →
      ∀ argument ∈ buildable.arguments.values, argument.Everywhere fine)
    {value part : Value} (hvalue : value.Everywhere fine) (hbelow : graph.Below value part) :
    part.Everywhere fine := by
  induction hbelow with
  | refl => exact hvalue
  | @tail whole part _ hpart ih =>
      obtain hpart | ⟨id, buildable, hbuildable, hpart⟩ := mem_parts hpart
      · exact ((Value.everywhere_iff whole).mp ih).2 part hpart
      · exact hnodes id buildable hbuildable part hpart

/-- No code stands in a body or below it. -/
def Task.Codeless (task : Task) : Prop :=
  ∀ fixture ∈ task.fixtures, ∀ value ∈ fixture.values, ∀ part,
    task.graph.Below value part → part.isCode = false

namespace GraphDocument

variable {document : GraphDocument} {settings : ImportSettings} {task : Task}
  {positions : NodePositions}

theorem toTask_eq_ok (h : document.toTask settings = .ok (task, positions)) :
    ∃ graph, document.buildGraph = .ok (graph, positions) ∧
      document.fixture.references ⊆ document.ids ∧
      task = .create graph (document.fixture.toTree document.place) settings ⟨0⟩ := by
  obtain ⟨⟨graph, _⟩, hgraph, h⟩ := (bind_eq_ok_iff _ _).mp h
  obtain ⟨tree, htree, h⟩ := (bind_eq_ok_iff _ _).mp h
  obtain ⟨rfl, rfl⟩ := Prod.mk.inj (Except.ok.inj h)
  obtain ⟨-, rfl, -, -⟩ := of_buildGraph hgraph
  obtain ⟨hknown, rfl⟩ := (FixtureEntry.toCallTree_eq_ok_iff (places_positionsOf document.ids)
    document.fixture).mp htree
  exact ⟨graph, hgraph, hknown, rfl⟩

theorem codeless_arguments {graph : ConfigGraph}
    (h : document.buildGraph = .ok (graph, positions)) :
    ∀ id buildable, graph.get? id = some buildable → ∀ argument ∈ buildable.arguments.values,
      argument.Everywhere fun part => part.isCode = false := by
  obtain ⟨-, -, -, hnodes⟩ := of_buildGraph h
  intro id buildable hbuildable argument hargument
  rw [ConfigGraph.get?, hnodes] at hbuildable
  obtain ⟨node, -, rfl⟩ := List.mem_map.mp (List.mem_of_getElem? hbuildable)
  rw [NodeEntry.values_toBuildable] at hargument
  obtain ⟨value, -, rfl⟩ := List.mem_map.mp hargument
  exact DocumentValue.codeless_toValue _ value

theorem codeless_toTask (h : document.toTask settings = .ok (task, positions)) :
    task.Codeless ∧ task.imports = .ofSettings settings := by
  obtain ⟨graph, hgraph, -, rfl⟩ := toTask_eq_ok h
  refine ⟨fun fixture hfixture value hvalue part hbelow => ?_, rfl⟩
  exact graph.everywhere_below (codeless_arguments hgraph)
    (FixtureEntry.codeless_toTree _ _ fixture hfixture value hvalue) hbelow part .refl

end GraphDocument

end ConfigLowering
