import ConfigLowering.Proofs.Substitution.Completing
import ConfigLowering.Proofs.Substitution.Stopping

/-!
# The verdict of the substitution

After registration the substitution fails for one reason only: a fixture reaches a config node
with tags on a field that has no value. The error tells the first such fixture, the first such
node in its completion order, the least field of it, and a path that leads to the node.
-/

namespace ConfigLowering

/-- The fixture reaches a node with tags on a field that is none of its arguments. -/
def Fixture.Lacking (graph : ConfigGraph) (fixture : Fixture) : Prop :=
  ∃ value ∈ fixture.values, ∃ id, graph.Below value (.node id) ∧ graph.Lacks id

namespace Substitution

open Registration (KnowsBelow)
open TransformM

variable {graph : ConfigGraph} {baseModule : String} {history : Buildable → History}
  {imports : ImportManager} {before : State} {error : LoweringError}

theorem Reports.lacks {id : NodeId} {path : Path} (h : Reports graph id path error) :
    graph.Lacks id := by
  obtain ⟨buildable, field, hnode, hfield, -⟩ := h
  exact ⟨buildable, field, hnode, hfield.1⟩

/-! ## Bodies -/

theorem explained_runAt (hgraph : graph.WellFormed) {root : Value} {base : Path}
    (hroot : KnowsBelow graph baseModule imports root) (hbefore : before.context = imports)
    (hraises : ((transformer baseModule history).runAt graph root base).Raises before error) :
    Explained graph baseModule history before [(root, base)] error := by
  have hraises : ((transformer baseModule history).transformRoot graph root).Raises
      { before with path := base } error := (raises_around _ _ _).mp hraises
  have hcovers : graph.Covers (graph.nodeCount + 1) root := fun id _ => hgraph.rank_le id
  have htracked : Tracked graph baseModule history imports
      ((transformer baseModule history).transformRoot graph root) root :=
    tracked_transformValue
      (fun _ hserved _ _ hcontext => explained_transformNode hgraph hserved hcontext)
      ⟨hroot, hcovers⟩
  exact (htracked.explained { before with path := base } error hbefore hraises).map
    fun _ _ => .moved base

theorem explained_declarations (hgraph : graph.WellFormed) {declarations : List (Variable × Nat)}
    (hknows : ∀ declaration ∈ declarations,
      KnowsBelow graph baseModule imports declaration.1.expression)
    (hbefore : before.context = imports)
    (hraises : TransformM.Raises
      (declarations.mapM fun ((declaration, position) : Variable × Nat) => do
        let expression ← (transformer baseModule history).runAt graph declaration.expression
          (Fixture.variablePath position)
        return ({ declaration with expression } : Variable)) before error) :
    Explained graph baseModule history before (declarations.map
      fun declaration => (declaration.1.expression, Fixture.variablePath declaration.2)) error := by
  induction declarations generalizing before with
  | nil => exact absurd hraises (raises_pure _)
  | cons declaration declarations ih =>
      obtain ⟨hfirst, hothers⟩ := List.forall_mem_cons.mp hknows
      rw [List.mapM_cons, raises_bind, raises_bind_pure] at hraises
      rcases hraises with hraises | ⟨_, between, hyields, hraises⟩
      · exact (explained_runAt hgraph hfirst hbefore hraises).map fun _ _ => .first
      · obtain ⟨expression, _, hyields, hpure⟩ := hyields.of_bind
        obtain ⟨-, rfl⟩ := hpure.of_pure
        obtain ⟨made, hrun⟩ := traced_runAt _ _ _ _ _ hyields
        have hbetween :=
          (Transformer.keeps_runAt keeps_of_served hfirst _).of_yields hyields hbefore
        exact (ih hothers hbetween ((raises_bind_pure _ _).mp hraises)).map
          fun _ _ => .later_cons hrun

theorem explained_substituteBody (hgraph : graph.WellFormed) {fixture : Fixture}
    (hknows : ∀ value ∈ fixture.values, KnowsBelow graph baseModule imports value)
    (hbefore : before.context = imports)
    (hraises : (substituteBody graph (transformer baseModule history) fixture).Raises before
      error) :
    Explained graph baseModule history before fixture.bodySlots error := by
  rw [Fixture.values_eq] at hknows
  obtain ⟨hexpressions, houtput⟩ := List.forall_mem_append.mp hknows
  have hdeclarations : ∀ declaration ∈ fixture.declarations.zipIdx,
      KnowsBelow graph baseModule imports declaration.1.expression := fun declaration hmem =>
    hexpressions _ (List.mem_map_of_mem (List.fst_mem_of_mem_zipIdx hmem))
  rcases (raises_bind _ _).mp hraises with hfirst | ⟨declarations, between, hyields, hrest⟩
  · exact (explained_declarations hgraph hdeclarations hbefore hfirst).map fun _ _ => .first
  · obtain ⟨made, hrun⟩ := run_of_declarations hyields
    have hbetween : between.context = imports :=
      (keeps_declarations keeps_of_served hdeclarations).of_yields hyields hbefore
    have hlast := explained_runAt hgraph (houtput _ List.mem_cons_self) hbetween
      ((raises_bind_pure _ _).mp hrest)
    refine hlast.map fun _ _ => .later (by rwa [List.map_map])

/-! ## Fixtures -/

theorem lacking_iff_completionOrder (hgraph : graph.WellFormed) (fixture : Fixture) :
    fixture.Lacking graph ↔ ∃ id ∈ graph.completionOrder fixture.values, graph.Lacks id := by
  simp only [Fixture.Lacking, hgraph.mem_completionOrder_iff]
  constructor
  · rintro ⟨value, hvalue, id, hbelow, hlacks⟩
    exact ⟨id, ⟨value, hvalue, hbelow⟩, hlacks⟩
  · rintro ⟨id, ⟨value, hvalue, hbelow⟩, hlacks⟩
    exact ⟨value, hvalue, id, hbelow, hlacks⟩

variable {holds : Value → Prop}

theorem covers_all (hgraph : graph.WellFormed) (values : List Value) :
    ∀ value ∈ values, graph.Covers (graph.nodeCount + 1) value :=
  fun _ _ id _ => hgraph.rank_le id

theorem not_lacking_of_run (hgraph : graph.WellFormed) (hheap : Heap graph holds)
    {fixture : Fixture} {results : List Value} {made : List Origin} {after : State}
    (hvalues : ∀ value ∈ fixture.values, holds value) {nextCode : CodeId}
    (h : Run graph baseModule history (.start imports nextCode) fixture.values results made
      after) : ¬ fixture.Lacking graph := by
  obtain ⟨hafter, hfinished⟩ :=
    h.completes hgraph hheap hvalues (complete_start imports nextCode)
  have horder : completedNodes after = graph.completionOrder fixture.values :=
    hfinished _ (covers_all hgraph _)
  rw [lacking_iff_completionOrder hgraph]
  rintro ⟨id, hid, hlacks⟩
  exact hafter.set id (horder ▸ hid) hlacks

/-- The error is about the node that a body reaches first among those that lack an argument. -/
structure Accounts (graph : ConfigGraph) (fixture : Fixture) (error : LoweringError) (id : NodeId)
    (path : Path) : Prop where
  first : ReachedFirst graph (graph.completionOrder fixture.values) id
  reports : Reports graph id path error
  leads : ∃ slot ∈ fixture.bodySlots, graph.Leads slot (.node id, path)

theorem Accounts.lacking (hgraph : graph.WellFormed) {fixture : Fixture} {id : NodeId}
    {path : Path} (h : Accounts graph fixture error id path) : fixture.Lacking graph := by
  rw [lacking_iff_completionOrder hgraph]
  obtain ⟨earlier, later, horder, -⟩ := h.first
  exact ⟨id, by simp [horder], h.reports.lacks⟩

theorem accounts_of_substituteFixture (hgraph : graph.WellFormed) (hheap : Heap graph holds)
    {fixture : Fixture} {progress after : Progress}
    (hvalues : ∀ value ∈ fixture.values, holds value)
    (hknows : ∀ value ∈ fixture.values, KnowsBelow graph baseModule progress.imports value)
    (h : substituteFixture graph baseModule history fixture progress = (.error error, after)) :
    ∃ id path, Accounts graph fixture error id path := by
  have hraises : (substituteBody graph (transformer baseModule history) fixture).Raises
      (.start progress.imports progress.nextCode) error := by
    rw [substituteFixture] at h
    exact ⟨_, Prod.ext (Prod.mk.inj h).1 rfl⟩
  obtain ⟨id, path, hfails, hreports⟩ := explained_substituteBody hgraph hknows rfl hraises
  refine ⟨id, path, ?_, hreports, hfails.leads⟩
  exact hfails.reachedFirst hgraph hheap hvalues (complete_start _ _) _ (covers_all hgraph _)

theorem Lowered.not_lacking (hgraph : graph.WellFormed) (hheap : Heap graph holds)
    {progress after : Progress} {fixtures transformed : List Fixture}
    {made : List (List Origin)}
    (h : Lowered graph baseModule history progress fixtures transformed made after)
    (hvalues : ∀ fixture ∈ fixtures, ∀ value ∈ fixture.values, holds value) :
    ∀ fixture ∈ fixtures, ¬ fixture.Lacking graph := by
  induction h with
  | nil => exact nofun
  | cons hrun _ ih =>
      obtain ⟨hfirst, hothers⟩ := List.forall_mem_cons.mp hvalues
      exact List.forall_mem_cons.mpr ⟨not_lacking_of_run hgraph hheap hfirst hrun, ih hothers⟩

/-- The fixtures before the one that fails lack nothing. -/
theorem accounts_of_substituteFixtures (hgraph : graph.WellFormed) (hheap : Heap graph holds)
    {fixtures results : List Fixture} {progress after : Progress}
    (hvalues : ∀ fixture ∈ fixtures, ∀ value ∈ fixture.values, holds value)
    (hknows : ∀ fixture ∈ fixtures, ∀ value ∈ fixture.values,
      KnowsBelow graph baseModule progress.imports value)
    (h : substituteFixtures graph baseModule history fixtures progress =
      (.error error, results, after)) :
    ∃ earlier failing later, fixtures = earlier ++ failing :: later ∧
      (∀ fixture ∈ earlier, ¬ fixture.Lacking graph) ∧
      ∃ id path, Accounts graph failing error id path := by
  obtain ⟨done, failing, rest, lowered, middle, rfl, -, hdone, hfailing⟩ :=
    stopped_of_substituteFixtures h
  obtain ⟨hvalues, hvalue⟩ := List.forall_mem_append.mp hvalues
  obtain ⟨hknows, hknow⟩ := List.forall_mem_append.mp hknows
  obtain ⟨made, hlowered⟩ := lowered_of_substituteFixtures hdone
  have himports : middle.imports = progress.imports := by
    have hkeeps :
        (substituteFixtures graph baseModule history done progress).2.2.imports =
          progress.imports :=
      keeps_substituteFixtures keeps_of_served hknows rfl
    rwa [hdone] at hkeeps
  refine ⟨done, failing, rest, rfl, hlowered.not_lacking hgraph hheap hvalues, ?_⟩
  refine accounts_of_substituteFixture hgraph hheap (hvalue _ List.mem_cons_self) ?_ hfailing
  rw [himports]
  exact hknow _ List.mem_cons_self

end Substitution

namespace Task

open Substitution (Accounts ReachedFirst Reports)

/-- Whatever the formatter, a registered task is substituted exactly when no fixture reaches a
node with tags on an unset field. The error is about the first fixture that does, and there
about the node that comes first in the completion order. -/
theorem substituteWith_verdict {task registered : Task} {summary : ImportSummary}
    (hgraph : task.graph.Built) (hcoherent : task.Coherent)
    (h : task.registerImports = (.ok summary, registered)) (history : Buildable → History) :
    ((registered.substituteWith history).1 = .ok () ↔
      ∀ fixture ∈ task.fixtures, ¬ fixture.Lacking task.graph) ∧
    ∀ error, (registered.substituteWith history).1 = .error error →
      ∃ earlier fixture later id path,
        task.fixtures = earlier ++ fixture :: later ∧
        (∀ other ∈ earlier, ¬ other.Lacking task.graph) ∧
        ReachedFirst task.graph (task.graph.completionOrder fixture.values) id ∧
        Reports task.graph id path error ∧
        ∃ slot ∈ fixture.bodySlots, task.graph.Leads slot (.node id, path) := by
  obtain ⟨hsame, hknows⟩ := knowsBelow_of_registerImports h
  have hvalues : ∀ fixture ∈ task.fixtures, ∀ value ∈ fixture.values, task.Contains value :=
    fun _ hfixture _ hvalue => contains_of_values hfixture hvalue
  have hfails : ∀ error, (registered.substituteWith history).1 = .error error →
      ∃ earlier fixture later, task.fixtures = earlier ++ fixture :: later ∧
        (∀ other ∈ earlier, ¬ other.Lacking task.graph) ∧
        ∃ id path, Accounts task.graph fixture error id path := by
    intro error herror
    rw [hsame] at herror
    exact Substitution.accounts_of_substituteFixtures hgraph.wellFormed hcoherent.heap hvalues
      hknows (Prod.ext herror rfl)
  refine ⟨⟨fun hok => ?_, fun hlacking => ?_⟩, fun error herror => ?_⟩
  · obtain ⟨made, hlowered⟩ := substituteWith_lowered hok
    rw [hsame] at hlowered
    exact hlowered.not_lacking hgraph.wellFormed hcoherent.heap hvalues
  · cases hsubstituted : (registered.substituteWith history).1 with
    | ok answer => rfl
    | error error =>
        obtain ⟨earlier, fixture, later, hfixtures, -, id, path, haccounts⟩ :=
          hfails error hsubstituted
        have hfixture : fixture ∈ task.fixtures := by simp [hfixtures]
        exact absurd (haccounts.lacking hgraph.wellFormed) (hlacking fixture hfixture)
  · obtain ⟨earlier, fixture, later, hfixtures, hearlier, id, path, haccounts⟩ :=
      hfails error herror
    exact ⟨earlier, fixture, later, id, path, hfixtures, hearlier, haccounts.first,
      haccounts.reports, haccounts.leads⟩

theorem substituteWith_verdict_secondFails :
    (secondFails.registerImports.2.substituteWith noHistory).1 =
        .error (.taggedFieldNotSet "size" "<Config[models.Outer()]>" []
          ⟨[.field "output_value", .index 1]⟩) ∧
      (¬ ∀ fixture ∈ secondFails.fixtures, ¬ fixture.Lacking secondFails.graph) ∧
      ∃ earlier fixture later id path,
        secondFails.fixtures = earlier ++ fixture :: later ∧
        (∀ other ∈ earlier, ¬ other.Lacking secondFails.graph) ∧
        ReachedFirst secondFails.graph (secondFails.graph.completionOrder fixture.values) id ∧
        Reports secondFails.graph id path (.taggedFieldNotSet "size" "<Config[models.Outer()]>" []
          ⟨[.field "output_value", .index 1]⟩) ∧
        ∃ slot ∈ fixture.bodySlots, secondFails.graph.Leads slot (.node id, path) := by
  have hregistered : secondFails.registerImports =
      (.ok ⟨3, 0, 0⟩, secondFails.registerImports.2) := Prod.ext (by decide +kernel) rfl
  obtain ⟨hverdict, hfails⟩ :=
    substituteWith_verdict built_unsetPair coherent_secondFails hregistered noHistory
  have herror : (secondFails.registerImports.2.substituteWith noHistory).1 =
      .error (.taggedFieldNotSet "size" "<Config[models.Outer()]>" []
        ⟨[.field "output_value", .index 1]⟩) := by decide +kernel
  refine ⟨herror, fun hlacking => ?_, hfails _ herror⟩
  cases (hverdict.mpr hlacking).symm.trans herror

end Task

end ConfigLowering
