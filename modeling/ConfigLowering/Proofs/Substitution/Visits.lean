import ConfigLowering.Proofs.Registration.Tasks
import ConfigLowering.Proofs.Substitution.Closed
import ConfigLowering.Proofs.Substitution.Faithful
import ConfigLowering.Proofs.Transformer.Observing

/-!
# Which nodes are rewritten, and in which order

The substitution keeps what becomes of nodes and of objects, and a walk knows only the nodes it
has seen. Both come to the same nodes in the same order: the substitution begins the nodes of a
body in the order in which a walk lists them, and asks once for the comments on each of them.
-/

namespace ConfigLowering

namespace Substitution

open TransformM (beside note freshCode)

/-! ## An observed substitution -/

/-- The comments on a node, with a note that they were asked for. -/
def askFor (history : Buildable → History) (id : NodeId) (buildable : Buildable) :
    TransformM (ImportManager × Trace) LoweringError History := do
  note (·.finish id)
  return history buildable

/-- The substitution, with a note where it begins a node and where it asks for comments. -/
def observed (baseModule : String) (history : Buildable → History) :
    Transformer (ImportManager × Trace) LoweringError where
  ofGraphError := .graphFailed
  onNode id buildable := do
    note (·.enter id)
    let callee ← beside (nameOf (buildable.kind.wrapper baseModule))
    let _ ← beside (nameOf buildable.callable)
    return .rebuild fun arguments => do
      let arguments ← beside (buildable.tags.toList.foldlM
        (fun arguments (field, tags) => attachTags buildable arguments field tags) arguments)
      let code ← freshCode
      let comments ← askFor history id buildable
      return .call code callee [.reference buildable.callable] arguments.entries comments
  onValue value := do
    match value with
    | .symbol symbol =>
        if value.role = .importableSymbol then
          let _ ← beside (nameOf symbol)
          return .replace (.reference symbol)
        else return .replace value
    | _ => return .rebuild pure

variable {baseModule : String} {history : Buildable → History} {graph : ConfigGraph}
  {holds : Value → Prop}

open TransformM (Mirrors mirrors_pure mirrors_beside mirrors_freshCode) in
theorem observes_transformer (baseModule : String) (history : Buildable → History) :
    (observed baseModule history).Observes (transformer baseModule history) where
  ofGraphError _ := rfl
  same.onNode := by
    intro id buildable transformed further htransformed
    simp only [observed, transformer, bind_assoc, pure_bind, Transformer.follow,
      Buildable.rename_id, id_eq]
    refine Mirrors.note_bind ?_ _
    refine (mirrors_beside _).bind fun callee => (mirrors_beside _).bind fun _ => ?_
    refine htransformed.bind fun arguments => ?_
    rw [finishNode]
    refine (mirrors_beside _).bind fun attached => ?_
    refine (mirrors_freshCode TransformState.shows_forget).bind fun code => ?_
    rw [askFor, bind_assoc]
    refine Mirrors.note_bind ?_ _
    exact mirrors_pure _
  same.onValue := by
    intro value transformed further htransformed
    rw [Value.rename_id]
    cases value with
    | symbol symbol =>
        by_cases hrole : (Value.symbol symbol).role = .importableSymbol
        · simp only [observed, transformer, hrole, if_true, bind_assoc, pure_bind]
          exact (mirrors_beside _).bind fun _ => mirrors_pure _
        · simp only [observed, transformer, hrole, if_false, pure_bind]
          exact mirrors_pure _
    | _ => exact htransformed.bind fun _ => mirrors_pure _

theorem leavesKept_nameOf (symbol : Symbol) : (nameOf symbol).LeavesKept := by
  intro before name after h
  obtain ⟨imports, -, rfl⟩ := (yields_nameOf symbol).mp h
  exact ⟨rfl, rfl⟩

theorem leavesKept_attachTags (buildable : Buildable) (fields : List (String × TagSet))
    (arguments : Arguments Value) :
    (fields.foldlM (fun arguments (field, tags) =>
      attachTags buildable arguments field tags) arguments).LeavesKept := by
  intro before attached after h
  obtain ⟨⟨imports, nextCode, -, rfl⟩, -⟩ :=
    @wrapped_of_foldlM before after (fun _ => True) _ _ _ _ h
  exact ⟨rfl, rfl⟩

open TransformM (notes_pure notes_freshCode notes_note) in
theorem records_observed (baseModule : String) (history : Buildable → History) :
    (observed baseModule history).Records where
  onNode id buildable :=
    (notes_note _).before_quiet fun _ => (leavesKept_nameOf _).notes.after_quiet fun _ =>
      (leavesKept_nameOf _).notes.after_quiet fun _ => notes_pure _
  planNode := by
    intro id buildable before plan after h
    obtain ⟨_, _, -, h⟩ := h.of_bind
    obtain ⟨_, _, -, h⟩ := h.of_bind
    obtain ⟨_, _, -, h⟩ := h.of_bind
    obtain ⟨rfl, -⟩ := h.of_pure
    refine ⟨_, rfl, fun arguments => ?_⟩
    refine (leavesKept_attachTags _ _ _).notes.after_quiet fun attached => ?_
    refine notes_freshCode.after_quiet fun code => ?_
    have hask : TransformM.Notes (·.finish id) (askFor history id buildable) :=
      (notes_note _).before_quiet fun _ => notes_pure _
    exact hask.before_quiet fun comments => notes_pure _
  onValue value := by
    cases value with
    | symbol symbol =>
        by_cases hrole : (Value.symbol symbol).role = .importableSymbol
        · simp only [observed, hrole, if_true]
          exact (leavesKept_nameOf symbol).notes.after_quiet fun _ => notes_pure _
        · simp only [observed, hrole, if_false]
          exact notes_pure _
    | _ => exact notes_pure _
  planValue := by
    intro value before plan after h
    cases value with
    | symbol symbol =>
        left
        refine ⟨rfl, ?_⟩
        by_cases hrole : (Value.symbol symbol).role = .importableSymbol
        · simp only [observed, hrole, if_true] at h
          obtain ⟨_, _, -, h⟩ := h.of_bind
          exact ⟨_, h.of_pure.1⟩
        · simp only [observed, hrole, if_false] at h
          exact ⟨_, h.of_pure.1⟩
    | _ =>
        right
        obtain ⟨rfl, -⟩ := h.of_pure
        exact ⟨pure, rfl, fun parts => notes_pure parts⟩

/-! ## Bodies -/

/-- The body of a fixture with its slots transformed, by any transformer. -/
def transformBody {σ ε : Type} (graph : ConfigGraph) (transformer : Transformer σ ε)
    (fixture : Fixture) : TransformM σ ε Fixture := do
  let declarations ← fixture.declarations.zipIdx.mapM fun (declaration, position) => do
    let expression ← transformer.runAt graph declaration.expression
      (Fixture.variablePath position)
    return { declaration with expression }
  let output ← transformer.runAt graph fixture.output Fixture.outputPath
  return fixture.replaceBody declarations output

theorem substituteBody_eq (graph : ConfigGraph)
    (transformer : Transformer ImportManager LoweringError) (fixture : Fixture) :
    substituteBody graph transformer fixture = transformBody graph transformer fixture := rfl

open TransformM (Mirrors mirrors_pure mirrors_mapM) in
theorem mirrors_transformBody (graph : ConfigGraph) (baseModule : String)
    (history : Buildable → History) (fixture : Fixture) :
    Mirrors TransformState.forget (transformBody graph (observed baseModule history) fixture)
      (transformBody graph (transformer baseModule history) fixture) := by
  have hrun := (observes_transformer baseModule history).mirrors_runAt graph
  refine (mirrors_mapM fun declaration _ => ?_).bind fun declarations => ?_
  · exact (hrun _ _).bind fun _ => mirrors_pure _
  · exact (hrun _ _).bind fun _ => mirrors_pure _

open TransformM (Discovers notes_pure) in
theorem discovers_transformBody (hgraph : graph.WellFormed) (hheap : Heap graph holds)
    {fixture : Fixture} (hvalues : ∀ value ∈ fixture.values, holds value) :
    Discovers graph holds (transformBody graph (observed baseModule history) fixture)
      (fixture.values.flatMap Value.nodeReferences) := by
  have hrun := fun value hvalue base => Transformer.discovers_runAt
    (records_observed baseModule history) hgraph hheap (hvalues value hvalue) base
  rw [Fixture.values_eq] at hrun ⊢
  have hdeclarations : Discovers graph holds
      (fixture.declarations.zipIdx.mapM fun ((declaration, position) : Variable × Nat) => do
        let expression ← (observed baseModule history).runAt graph declaration.expression
          (Fixture.variablePath position)
        return ({ declaration with expression } : Variable))
      (fixture.declarations.zipIdx.flatMap fun declaration =>
        declaration.1.expression.nodeReferences) := by
    refine Discovers.mapM fun declaration hmem => ?_
    have hexpression : declaration.1.expression ∈ fixture.declarations.map Variable.expression :=
      List.mem_map_of_mem (List.fst_mem_of_mem_zipIdx hmem)
    exact (hrun _ (List.mem_append_left _ hexpression) _).bind_notes fun _ => notes_pure _
  have houtput := hrun fixture.output (List.mem_append_right _ List.mem_cons_self)
    Fixture.outputPath
  have hrefs : (fixture.declarations.map Variable.expression).flatMap Value.nodeReferences =
      fixture.declarations.zipIdx.flatMap fun declaration =>
        declaration.1.expression.nodeReferences := by
    have hfirsts := List.zipIdx_map_fst 0 fixture.declarations
    rw [List.flatMap_map, ← hfirsts, List.flatMap_map, hfirsts]
  rw [List.flatMap_append, List.flatMap_singleton, hrefs]
  exact hdeclarations.bind fun _ declarations _ _ =>
    houtput.bind_notes fun output => notes_pure (fixture.replaceBody declarations output)

/-- Transforms one fixture and tells besides what happened to the nodes. -/
def observeFixture (graph : ConfigGraph) (baseModule : String) (history : Buildable → History)
    (fixture : Fixture) (progress : Progress) :
    Except LoweringError Fixture × Progress × Trace :=
  let (outcome, state) := (transformBody graph (observed baseModule history) fixture).run.run
    (.start (progress.imports, .empty) progress.nextCode)
  (outcome, ⟨state.context.1, state.nextCode⟩, state.context.2)

/-- The observed fixture is the fixture that is substituted. -/
theorem substituteFixture_eq (graph : ConfigGraph) (baseModule : String)
    (history : Buildable → History) (fixture : Fixture) (progress : Progress) :
    substituteFixture graph baseModule history fixture progress =
      ((observeFixture graph baseModule history fixture progress).1,
        (observeFixture graph baseModule history fixture progress).2.1) := by
  have hmirrors := mirrors_transformBody graph baseModule history fixture
    (.start (progress.imports, .empty) progress.nextCode)
  have hstart : (TransformState.start (progress.imports, Trace.empty) progress.nextCode).forget =
      .start progress.imports progress.nextCode := rfl
  rw [hstart] at hmirrors
  rw [substituteFixture, substituteBody_eq, hmirrors]
  rfl

/-- A walk over the body lists the nodes that are begun, in the same order, and all of them are
finished. -/
structure Agrees (graph : ConfigGraph) (fixture : Fixture) (trace : Trace) : Prop where
  listed : ∃ entries, graph.iterateAll fixture.bodySlots = .ok entries ∧
    trace.entered = ConfigGraph.listedNodes entries
  once : trace.entered.Nodup
  finished : trace.finished.Perm trace.entered

theorem agrees_of_observeFixture (hgraph : graph.WellFormed) (hheap : Heap graph holds)
    {fixture transformed : Fixture} (hvalues : ∀ value ∈ fixture.values, holds value)
    {before after : Progress} {trace : Trace}
    (h : observeFixture graph baseModule history fixture before =
      (.ok transformed, after, trace)) : Agrees graph fixture trace := by
  rw [observeFixture] at h
  rcases hbody : (transformBody graph (observed baseModule history) fixture).run.run
    (.start (before.imports, .empty) before.nextCode) with ⟨outcome, last⟩
  simp only [hbody, Prod.mk.injEq] at h
  obtain ⟨rfl, -, rfl⟩ := h
  obtain ⟨htracked, hadvances⟩ := discovers_transformBody hgraph hheap hvalues _ _ _ hbody
    (tracked_start _ _) nofun
  have hknown : ∀ root ∈ fixture.bodySlots.map Prod.fst, ∀ id ∈ root.nodeReferences,
      graph.contains id := fun root hroot id hid =>
    htracked.known id (hadvances.finishes (List.mem_flatMap.mpr ⟨root, hroot, hid⟩))
  obtain ⟨entries, hentries⟩ := (ConfigGraph.exists_iterateAll_iff hgraph _).mpr hknown
  have hlisted : last.context.2.entered = ConfigGraph.listedNodes entries := by
    rw [ConfigGraph.listedNodes_eq_discoveryOrder hgraph hentries]
    exact hadvances.order (graph.nodeCount + 1) fun id _ => hgraph.rank_le id
  have honce : last.context.2.entered.Nodup := hlisted ▸ ConfigGraph.nodup_listedNodes hentries
  refine ⟨⟨entries, hentries, hlisted⟩, honce, ?_⟩
  rw [List.perm_ext_iff_of_nodup htracked.once honce]
  refine fun id => ⟨fun hid => htracked.entered hid, fun hid => ?_⟩
  exact (hadvances.closes id hid).elim nofun fun hid => hid

/-- What happened to the nodes in each fixture, up to the first fixture that fails. -/
def traces (graph : ConfigGraph) (baseModule : String) (history : Buildable → History) :
    List Fixture → Progress → List Trace
  | [], _ => []
  | fixture :: fixtures, progress =>
      match observeFixture graph baseModule history fixture progress with
      | (.error _, _, trace) => [trace]
      | (.ok _, progress, trace) => trace :: traces graph baseModule history fixtures progress

theorem agrees_of_substituteFixtures (hgraph : graph.WellFormed) (hheap : Heap graph holds)
    {fixtures : List Fixture} (hvalues : ∀ fixture ∈ fixtures, ∀ value ∈ fixture.values, holds value)
    {progress : Progress}
    (h : (substituteFixtures graph baseModule history fixtures progress).1 = .ok ()) :
    List.Forall₂ (Agrees graph) fixtures (traces graph baseModule history fixtures progress) := by
  induction fixtures generalizing progress with
  | nil => exact .nil
  | cons fixture fixtures ih =>
      obtain ⟨hfixture, hothers⟩ := List.forall_mem_cons.mp hvalues
      rw [substituteFixtures, substituteFixture_eq] at h
      rw [traces]
      rcases hobserved : observeFixture graph baseModule history fixture progress with
        ⟨outcome, middle, trace⟩
      rw [hobserved] at h
      cases outcome with
      | error error => contradiction
      | ok transformed =>
          exact .cons (agrees_of_observeFixture hgraph hheap hfixture hobserved)
            (ih hothers h)

end Substitution

/-! ## Tasks -/

namespace Task

open Substitution (Agrees observeFixture substituteFixture)

variable {task : Task}

def traces (task : Task) (history : Buildable → History) : List Trace :=
  Substitution.traces task.graph task.baseModule history task.fixtures
    ⟨task.imports, task.nextCode⟩

theorem configNodes_eq_sum {summary : ImportSummary} {traces : List Trace}
    (h : task.registerImports.1 = .ok summary)
    (hagrees : List.Forall₂ (Agrees task.graph) task.fixtures traces) :
    summary.configNodes = (traces.map fun trace => trace.entered.length).sum := by
  rw [configNodes_of_registerImports (Prod.ext h rfl), reachedNodes]
  generalize task.fixtures = fixtures at hagrees
  induction hagrees with
  | nil => rfl
  | cons hagree _ ih =>
      obtain ⟨entries, hentries, hlisted⟩ := hagree.listed
      rw [List.map_cons, List.map_cons, List.sum_cons, List.sum_cons, ih, hlisted,
        ConfigGraph.length_listedNodes hentries]
      rfl

/-- The substitution begins the nodes of a body in the order in which a walk over the body lists
them, each once, and asks once for the comments on each. So as many nodes are rewritten in all
fixtures as registration counts. -/
theorem traversals_agree (hgraph : task.graph.Built) (hcoherent : task.Coherent)
    (history : Buildable → History) :
    (∀ fixture ∈ task.fixtures, ∀ progress outcome after trace,
      observeFixture task.graph task.baseModule history fixture progress =
          (outcome, after, trace) →
        substituteFixture task.graph task.baseModule history fixture progress =
            (outcome, after) ∧
          ∀ transformed, outcome = .ok transformed → Agrees task.graph fixture trace) ∧
    ∀ summary imports, task.registerImports.1 = .ok summary →
      ({ task with imports }.substituteWith history).1 = .ok () →
        summary.configNodes = ((Task.traces { task with imports } history).map
          fun trace => trace.entered.length).sum := by
  have hvalues : ∀ fixture ∈ task.fixtures, ∀ value ∈ fixture.values, task.Contains value :=
    fun fixture hfixture value hvalue => contains_of_values hfixture hvalue
  constructor
  · intro fixture hfixture progress outcome after trace hobserved
    refine ⟨?_, ?_⟩
    · rw [Substitution.substituteFixture_eq, hobserved]
    · rintro transformed rfl
      exact Substitution.agrees_of_observeFixture hgraph.wellFormed hcoherent.heap
        (hvalues fixture hfixture) hobserved
  · intro summary imports hregistered hsubstituted
    refine configNodes_eq_sum hregistered ?_
    exact Substitution.agrees_of_substituteFixtures hgraph.wellFormed hcoherent.heap hvalues
      hsubstituted

theorem traversals_agree_sharedBody :
    (∃ fixture ∈ sharedBody.fixtures, ∃ transformed after trace,
      observeFixture sharedBody.graph sharedBody.baseModule noHistory fixture
          ⟨sharedBody.imports, sharedBody.nextCode⟩ = (.ok transformed, after, trace) ∧
        trace.entered = [⟨0⟩, ⟨1⟩] ∧ Agrees sharedBody.graph fixture trace) ∧
      2 = ((sharedBody.traces noHistory).map fun trace => trace.entered.length).sum := by
  obtain ⟨hfixtures, hcount⟩ := traversals_agree built_taggedPair coherent_sharedBody noHistory
  constructor
  · obtain ⟨fixture, hfixture⟩ : ∃ fixture, sharedBody.fixtures = [fixture] := ⟨_, rfl⟩
    have hmem : fixture ∈ sharedBody.fixtures := hfixture ▸ List.mem_singleton_self fixture
    have hrun : (observeFixture sharedBody.graph sharedBody.baseModule noHistory fixture
        ⟨sharedBody.imports, sharedBody.nextCode⟩).1.isOk ∧
        (observeFixture sharedBody.graph sharedBody.baseModule noHistory fixture
          ⟨sharedBody.imports, sharedBody.nextCode⟩).2.2.entered = [⟨0⟩, ⟨1⟩] := by
      obtain rfl : _ = fixture := (List.cons.inj hfixture).1
      decide +kernel
    rcases hobserved : observeFixture sharedBody.graph sharedBody.baseModule noHistory fixture
      ⟨sharedBody.imports, sharedBody.nextCode⟩ with ⟨outcome, after, trace⟩
    rw [hobserved] at hrun
    cases outcome with
    | error error => exact absurd hrun.1 Bool.false_ne_true
    | ok transformed =>
        exact ⟨fixture, hmem, transformed, after, trace, hobserved, hrun.2,
          (hfixtures fixture hmem _ _ _ _ hobserved).2 transformed rfl⟩
  · have hregistered : sharedBody.registerImports.1 = .ok ⟨2, 0, 0⟩ := by decide +kernel
    exact hcount ⟨2, 0, 0⟩ sharedBody.imports hregistered substituteWith_sharedBody

end Task

end ConfigLowering
