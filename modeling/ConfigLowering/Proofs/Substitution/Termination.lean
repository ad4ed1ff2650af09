import ConfigLowering.Proofs.Substitution.Faithful
import ConfigLowering.Proofs.Transformer.Recursion
import ConfigLowering.Proofs.Walk.Recursion

/-!
# Traversals end

Listings, transformations and the substitution are recursions along references, and on a built
graph such a recursion ends without coming back to an open node.
-/

namespace ConfigLowering

namespace Substitution

/-! ## The pass over given runs -/

/-- The body of a fixture whose slots become what the runs make of them. -/
def bodyBy (run : Value → Path → SubstitutionM Value) (fixture : Fixture) :
    SubstitutionM Fixture := do
  let declarations ← fixture.declarations.zipIdx.mapM fun (declaration, position) => do
    let expression ← run declaration.expression (Fixture.variablePath position)
    return { declaration with expression }
  let output ← run fixture.output Fixture.outputPath
  return fixture.replaceBody declarations output

def fixtureBy (run : Value → Path → SubstitutionM Value) (fixture : Fixture)
    (progress : Progress) : Except LoweringError Fixture × Progress :=
  let (outcome, state) :=
    (bodyBy run fixture).run.run (.start progress.imports progress.nextCode)
  (outcome, ⟨state.context, state.nextCode⟩)

def fixturesBy (run : Value → Path → SubstitutionM Value) :
    List Fixture → Progress → Except LoweringError Unit × List Fixture × Progress
  | [], progress => (.ok (), [], progress)
  | fixture :: fixtures, progress =>
      match fixtureBy run fixture progress with
      | (.error error, progress) => (.error error, fixture :: fixtures, progress)
      | (.ok transformed, progress) =>
          let (outcome, fixtures, progress) := fixturesBy run fixtures progress
          (outcome, transformed :: fixtures, progress)

theorem substituteFixtures_eq_by (graph : ConfigGraph) (baseModule : String)
    (history : Buildable → History) (fixtures : List Fixture) (progress : Progress) :
    substituteFixtures graph baseModule history fixtures progress =
      fixturesBy ((transformer baseModule history).runAt graph) fixtures progress := by
  induction fixtures generalizing progress with
  | nil => rfl
  | cons fixture fixtures ih =>
      have hfixture : substituteFixture graph baseModule history fixture progress =
          fixtureBy ((transformer baseModule history).runAt graph) fixture progress := rfl
      rw [substituteFixtures, fixturesBy, hfixture]
      obtain ⟨outcome, progress⟩ :=
        fixtureBy ((transformer baseModule history).runAt graph) fixture progress
      cases outcome with
      | error error => rfl
      | ok transformed => simp only [ih]

end Substitution

/-- The substitution in which values of the bodies become what the runs make of them. -/
def Task.substituteBy (task : Task) (run : Value → Path → Substitution.SubstitutionM Value) :
    Except LoweringError Unit × Task :=
  let (outcome, fixtures, progress) :=
    Substitution.fixturesBy run task.fixtures ⟨task.imports, task.nextCode⟩
  (outcome, { task with
    imports := progress.imports
    nextCode := progress.nextCode
    callTree := task.callTree.withFixtures fixtures })

theorem Task.substituteWith_eq_by (task : Task) (history : Buildable → History) :
    task.substituteWith history =
      task.substituteBy ((Substitution.transformer task.baseModule history).runAt task.graph) := by
  rw [substituteWith, substituteBy, Substitution.substituteFixtures_eq_by]

/-! ## All traversals -/

/-- On a built graph, listings of any roots, transformations by any transformer and
substitutions of any fixtures are what recursions make of them that end and enter no open node.
A transformer follows a `Plan` for each value: it has the parts transformed at most once, and
their errors are not its to handle. -/
theorem ConfigGraph.traversals_terminate {graph : ConfigGraph} (h : graph.Built) :
    (∃ enter, graph.Terminates (Walk.enterNode graph) enter ∧
      ∀ roots, graph.iterateAll roots = iterateAllBy enter roots) ∧
    (∀ (σ ε : Type) (transformer : Transformer σ ε),
      ∃ enter, graph.Terminates (transformer.enterNode graph) enter ∧
        ∀ root base, transformer.runAt graph root base = transformer.runAtBy enter root base) ∧
    ∀ (task : Task) (history : Buildable → History), task.graph = graph →
      ∃ enter, graph.Terminates
          ((Substitution.transformer task.baseModule history).enterNode graph) enter ∧
        task.substituteWith history = task.substituteBy
          ((Substitution.transformer task.baseModule history).runAtBy enter) := by
  have hwell := h.wellFormed
  have htransform := fun (σ ε : Type) (transformer : Transformer σ ε) =>
    hwell.terminates (transformer.follows_enterNode graph) (transformer.transformNode_succ graph)
  refine ⟨⟨_, ?_, graph.iterateAll_eq_by⟩, fun σ ε transformer => ?_, fun task history hgraph => ?_⟩
  · exact hwell.terminates (Walk.follows_enterNode graph) (Walk.walkNode_succ graph)
  · exact ⟨_, htransform σ ε transformer, fun _ _ => rfl⟩
  · refine ⟨_, htransform _ _ (Substitution.transformer task.baseModule history), ?_⟩
    rw [task.substituteWith_eq_by, hgraph, Transformer.runAt_eq_by]

/-- The second node of the example holds the first one twice, and neither is entered while it is
open. -/
theorem Task.traversals_terminate_sharedBody :
    taggedPair.Built ∧
      taggedPair.iterate (.node ⟨1⟩) = ConfigGraph.iterateAllBy
        (taggedPair.guarded (Walk.enterNode taggedPair) (fun id _ => throw (.reentered id)) [])
        [(.node ⟨1⟩, .root)] ∧
      (sharedBody.substituteBy ((Substitution.transformer sharedBody.baseModule noHistory).runAtBy
        (taggedPair.guarded
          ((Substitution.transformer sharedBody.baseModule noHistory).enterNode taggedPair)
          (fun id => throw (.graphFailed (.reentered id))) []))).1 = .ok () := by
  obtain ⟨⟨walk, hwalk, hlisted⟩, -, hpass⟩ := ConfigGraph.traversals_terminate built_taggedPair
  obtain ⟨enter, henter, hsubstituted⟩ := hpass sharedBody noHistory rfl
  refine ⟨built_taggedPair, ?_, ?_⟩
  · rw [hwalk.guarded]
    exact hlisted [(.node ⟨1⟩, .root)]
  · rw [henter.guarded, ← hsubstituted]
    exact substituteWith_sharedBody

end ConfigLowering
