import ConfigLowering.Proofs.Fixture.Refilling
import ConfigLowering.Proofs.Registration.Renaming
import ConfigLowering.Proofs.Substitution.Runs
import ConfigLowering.Proofs.Transformer.Renaming

/-!
# Substitution with other numbers

The substitution takes names, tags and comments from the nodes and nothing from their numbers.
So bodies that differ in the numbers only become the same code, or fail with the same error.
-/

namespace ConfigLowering

/-! ## Nodes -/

/-- The comments of a node do not depend on the numbers that its arguments refer to. -/
def History.Blind (history : Buildable → History) : Prop :=
  ∀ (change : NodeId → NodeId) (buildable : Buildable),
    history (buildable.rename change) = history buildable

@[simp] theorem Arguments.names_map {α β : Type} (change : α → β) (arguments : Arguments α) :
    (arguments.map change).names = arguments.names := by
  simp [names, map, Function.comp_def]

namespace Buildable

variable (change : NodeId → NodeId) (buildable : Buildable)

@[simp] theorem names_rename :
    (buildable.rename change).arguments.names = buildable.arguments.names :=
  buildable.arguments.names_map _

@[simp] theorem display_rename : (buildable.rename change).display = buildable.display := by
  rw [display, names_rename]
  rfl

end Buildable

theorem blind_noHistory : History.Blind noHistory := fun _ _ => rfl

theorem blind_argumentHistory : History.Blind argumentHistory := by
  intro change buildable
  rw [argumentHistory, argumentHistory, Buildable.names_rename, Buildable.display_rename]
  rfl

namespace Substitution

open TransformM
open TransformState (renumber shows_renumber)

variable {graph other : ConfigGraph} {change : NodeId → NodeId} {baseModule : String}
  {history : Buildable → History}

theorem finishNode_rename (hhistory : History.Blind history) (buildable : Buildable)
    (callee : String) (arguments : Arguments Value) :
    finishNode history (buildable.rename change) callee arguments =
      finishNode history buildable callee arguments := by
  unfold finishNode attachTags
  rw [hhistory, Buildable.display_rename]
  rfl

theorem mirrors_nameOf (symbol : Symbol) :
    Mirrors (renumber change) (nameOf symbol) (nameOf symbol) := by
  refine mirrors_get_bind fun before => ?_
  rw [before.context_renumber]
  rcases before.context.add symbol with ⟨error | name, imports⟩ <;> rfl

theorem mirrors_attachTags (buildable : Buildable) (arguments : Arguments Value)
    (field : String) (tags : TagSet) :
    Mirrors (renumber change) (attachTags buildable arguments field tags)
      (attachTags buildable arguments field tags) := by
  rw [attachTags]
  cases arguments.get? field with
  | none =>
      exact (mirrors_currentPath (shows_renumber change)).bind fun path => mirrors_throw _
  | some argument =>
      exact (mirrors_mapM fun tag _ => mirrors_nameOf tag).bind fun _ =>
        (mirrors_freshCode (shows_renumber change)).bind fun _ => mirrors_pure _

theorem mirrors_finishNode (buildable : Buildable) (callee : String)
    (arguments : Arguments Value) :
    Mirrors (renumber change) (finishNode history buildable callee arguments)
      (finishNode history buildable callee arguments) := by
  rw [finishNode]
  refine Mirrors.bind ?_ fun _ =>
    (mirrors_freshCode (shows_renumber change)).bind fun _ => mirrors_pure _
  exact mirrors_foldlM
    (fun arguments entry => mirrors_attachTags buildable arguments entry.1 entry.2)
    buildable.tags.toList arguments

theorem blind_transformer (hhistory : History.Blind history) (baseModule : String)
    (change : NodeId → NodeId) : (transformer baseModule history).Blind change where
  onNode := by
    intro id buildable transformed renamed htransformed
    simp only [transformer, bind_assoc, pure_bind]
    refine (mirrors_nameOf _).bind fun callee => (mirrors_nameOf _).bind fun _ => ?_
    refine htransformed.bind fun arguments => ?_
    rw [finishNode_rename hhistory]
    exact mirrors_finishNode buildable callee arguments
  onValue := by
    intro value transformed renamed htransformed
    cases value with
    | symbol symbol =>
        by_cases hrole : (Value.symbol symbol).role = .importableSymbol
        · simp only [transformer, Value.rename, hrole, if_true, bind_assoc, pure_bind]
          exact (mirrors_nameOf symbol).bind fun _ => mirrors_pure _
        · simp only [transformer, Value.rename, hrole, if_false, pure_bind]
          exact mirrors_pure _
    | _ => exact htransformed.bind fun _ => mirrors_pure _

/-! ## Fixtures -/

theorem mirrors_substituteBody {transformer : Transformer ImportManager LoweringError}
    (h : transformer.Blind change) (hgraph : graph.WellFormed)
    (hrenames : graph.Renames other change) {fixture : Fixture}
    (hknown : ∀ value ∈ fixture.values, ∀ id ∈ value.nodeReferences, graph.contains id) :
    Mirrors (renumber change) (substituteBody graph transformer fixture)
      (substituteBody other transformer (fixture.map (Value.rename change))) := by
  rw [Fixture.values_eq] at hknown
  obtain ⟨hexpressions, houtput⟩ := List.forall_mem_append.mp hknown
  unfold substituteBody
  simp only [Fixture.map, List.zipIdx_map, List.mapM_map]
  refine (mirrors_mapM fun declaration hmem => ?_).bind fun _ => ?_
  · have hexpression := hexpressions _ (List.mem_map_of_mem (List.fst_mem_of_mem_zipIdx hmem))
    exact (Transformer.mirrors_runAt h hgraph hrenames hexpression _).bind fun _ => mirrors_pure _
  · exact (Transformer.mirrors_runAt h hgraph hrenames (houtput _ List.mem_cons_self) _).bind
      fun _ => mirrors_pure _

theorem substituteFixture_rename (hhistory : History.Blind history) (hgraph : graph.WellFormed)
    (hrenames : graph.Renames other change) {fixture : Fixture}
    (hknown : ∀ value ∈ fixture.values, ∀ id ∈ value.nodeReferences, graph.contains id)
    (progress : Progress) :
    substituteFixture other baseModule history (fixture.map (Value.rename change)) progress =
      substituteFixture graph baseModule history fixture progress := by
  have hbody := mirrors_substituteBody (blind_transformer hhistory baseModule change) hgraph
    hrenames hknown (.start progress.imports progress.nextCode)
  -- Nothing is kept at the start, so there is nothing to renumber.
  have hstart : (TransformState.start progress.imports progress.nextCode).renumber change =
      .start progress.imports progress.nextCode := rfl
  rw [hstart] at hbody
  rw [substituteFixture, hbody]
  rfl

/-- Outcome and imports are the same, and so are the fixtures when all are substituted. -/
theorem substituteFixtures_rename (hhistory : History.Blind history) (hgraph : graph.WellFormed)
    (hrenames : graph.Renames other change) (baseModule : String) {fixtures : List Fixture}
    (hknown : ∀ fixture ∈ fixtures, ∀ value ∈ fixture.values,
      ∀ id ∈ value.nodeReferences, graph.contains id) (progress : Progress) :
    ∃ outcome results renamed after, results.length = fixtures.length ∧
      substituteFixtures graph baseModule history fixtures progress = (outcome, results, after) ∧
      substituteFixtures other baseModule history
        (fixtures.map (Fixture.map (Value.rename change))) progress =
          (outcome, renamed, after) ∧
      (outcome = .ok () → renamed = results) := by
  induction fixtures generalizing progress with
  | nil => exact ⟨.ok (), [], [], progress, rfl, rfl, rfl, fun _ => rfl⟩
  | cons fixture fixtures ih =>
      obtain ⟨hfixture, hothers⟩ := List.forall_mem_cons.mp hknown
      rw [List.map_cons, substituteFixtures, substituteFixtures,
        substituteFixture_rename hhistory hgraph hrenames hfixture]
      rcases substituteFixture graph baseModule history fixture progress with ⟨outcome, middle⟩
      cases outcome with
      | error error => exact ⟨.error error, _, _, middle, rfl, rfl, rfl, nofun⟩
      | ok transformed =>
          obtain ⟨outcome, results, renamed, after, hlength, hresults, hrenamed, hsame⟩ :=
            ih hothers middle
          simp only [hresults, hrenamed]
          exact ⟨outcome, _, _, after, by simp [hlength], rfl, rfl, fun hok => by rw [hsame hok]⟩

end Substitution

/-! ## Tasks -/

namespace Task

/-- Registration and then substitution: the summary, the imports and the fixtures that come out,
or the first error. -/
def generated (task : Task) (history : Buildable → History) :
    Except LoweringError (ImportSummary × List Import × List Fixture) :=
  match task.registerImports with
  | (.error error, _) => .error error
  | (.ok summary, registered) =>
      match registered.substituteWith history with
      | (.error error, _) => .error error
      | (.ok (), lowered) => .ok (summary, lowered.imports.imports, lowered.fixtures)

/-- The other task differs in the numbers of the nodes only. -/
structure Renames (task other : Task) (change : NodeId → NodeId) : Prop where
  graph : task.graph.Renames other.graph change
  imports : other.imports = task.imports
  callTree : other.callTree = task.callTree.map (Value.rename change)
  baseModule : other.baseModule = task.baseModule
  nextCode : other.nextCode = task.nextCode

/-- The references in the bodies are known, and those in the graph are sound. -/
structure Grounded (task : Task) : Prop where
  graph : task.graph.WellFormed
  known : ∀ fixture ∈ task.fixtures, ∀ value ∈ fixture.values, ∀ id ∈ value.nodeReferences,
    task.graph.contains id

variable {task other : Task} {change : NodeId → NodeId} {history : Buildable → History}

theorem Renames.fixtures (h : task.Renames other change) :
    other.fixtures = task.fixtures.map (Fixture.map (Value.rename change)) := by
  rw [Task.fixtures, h.callTree, CallTree.fixtures_map]
  rfl

theorem Renames.registerImports (h : task.Renames other change) (hground : task.Grounded) :
    ∃ outcome imports, task.registerImports = (outcome, { task with imports }) ∧
      other.registerImports = (outcome, { other with imports }) := by
  refine ⟨_, _, rfl, ?_⟩
  rw [Task.registerImports, h.fixtures, h.baseModule, h.imports,
    Registration.registerFixtures_rename hground.graph h.graph task.baseModule hground.known]
  rfl

theorem Renames.substituteWith (h : task.Renames other change) (hground : task.Grounded)
    (hhistory : History.Blind history) :
    ∃ outcome lowered renamed, task.substituteWith history = (outcome, lowered) ∧
      other.substituteWith history = (outcome, renamed) ∧ renamed.imports = lowered.imports ∧
      (outcome = .ok () → renamed.fixtures = lowered.fixtures) := by
  obtain ⟨outcome, results, renamed, after, hlength, hresults, hrenamed, hsame⟩ :=
    Substitution.substituteFixtures_rename hhistory hground.graph h.graph task.baseModule
      hground.known ⟨task.imports, task.nextCode⟩
  have hother : other.fixtures.length = results.length := by
    rw [h.fixtures, List.length_map, hlength]
  rw [← h.fixtures, ← h.baseModule, ← h.imports, ← h.nextCode] at hrenamed
  rw [Task.substituteWith, Task.substituteWith, hresults, hrenamed]
  refine ⟨outcome, _, _, rfl, rfl, rfl, fun hok => ?_⟩
  obtain rfl := hsame hok
  exact (other.callTree.fixtures_withFixtures hother.symm).trans
    (task.callTree.fixtures_withFixtures hlength).symm

theorem Renames.generated (h : task.Renames other change) (hground : task.Grounded)
    (hhistory : History.Blind history) : other.generated history = task.generated history := by
  obtain ⟨outcome, imports, htask, hother⟩ := h.registerImports hground
  rw [Task.generated, Task.generated, htask, hother]
  cases outcome with
  | error error => rfl
  | ok summary =>
      have hregistered : Renames { task with imports } { other with imports } change :=
        ⟨h.graph, rfl, h.callTree, h.baseModule, h.nextCode⟩
      obtain ⟨outcome, lowered, renamed, hlowered, hrenamed, himports, hfixtures⟩ :=
        hregistered.substituteWith ⟨hground.graph, hground.known⟩ hhistory
      simp only [hlowered, hrenamed]
      cases outcome with
      | error error => rfl
      | ok answer => simp only [himports, hfixtures rfl]

end Task

end ConfigLowering
