import ConfigLowering.Proofs.Fixture.Mapping
import ConfigLowering.Proofs.Fixture.Refilling
import ConfigLowering.Proofs.Substitution.Identities
import ConfigLowering.Proofs.Substitution.Soundness

/-!
# Fixtures of a task

The body of a fixture is one run, which starts with nothing known. The runs of all
fixtures follow one another: each begins with the names and the next identity that the
one before left.
-/

namespace ConfigLowering

namespace Substitution

variable {graph : ConfigGraph} {baseModule : String} {history : Buildable → History}

theorem run_of_declarations {declarations : List (Variable × Nat)}
    {transformed : List Variable} {before after : State}
    (h : (declarations.mapM fun ((declaration, position) : Variable × Nat) => do
      let expression ← (transformer baseModule history).runAt graph declaration.expression
        (Fixture.variablePath position)
      return ({ declaration with expression } : Variable)).Yields before transformed after) :
    ∃ made, Run graph baseModule history before
      (declarations.map fun declaration => declaration.1.expression)
      (transformed.map Variable.expression) made after := by
  induction declarations generalizing transformed before with
  | nil =>
      obtain ⟨rfl, rfl⟩ := h.of_pure
      exact ⟨[], .nil after⟩
  | cons declaration declarations ih =>
      rw [List.mapM_cons] at h
      obtain ⟨first, between, hfirst, h⟩ := h.of_bind
      obtain ⟨rest, _, hrest, hpure⟩ := h.of_bind
      obtain ⟨rfl, rfl⟩ := hpure.of_pure
      obtain ⟨expression, _, hexpression, hpure⟩ := hfirst.of_bind
      obtain ⟨rfl, rfl⟩ := hpure.of_pure
      obtain ⟨made, hrun⟩ := traced_runAt _ _ _ _ _ hexpression
      obtain ⟨more, hruns⟩ := ih hrest
      exact ⟨made ++ more, .cons hrun hruns⟩

theorem run_of_substituteBody {fixture transformed : Fixture} {before after : State}
    (h : (substituteBody graph (transformer baseModule history) fixture).Yields before
      transformed after) :
    ∃ made, Run graph baseModule history before fixture.values transformed.values made
      after := by
  obtain ⟨declarations, between, hdeclarations, h⟩ := h.of_bind
  obtain ⟨output, _, houtput, hpure⟩ := h.of_bind
  obtain ⟨rfl, rfl⟩ := hpure.of_pure
  obtain ⟨made, hrun⟩ := run_of_declarations hdeclarations
  obtain ⟨more, hmore⟩ := traced_runAt _ _ _ _ _ houtput
  refine ⟨made ++ more, ?_⟩
  rw [Fixture.values_eq, Fixture.values_eq, ← List.zipIdx_map_fst 0 fixture.declarations,
    List.map_map]
  exact hrun.append hmore

/-! ## One fixture after the other -/

/-- The runs of some fixtures and, for each of them, the origins it makes objects for. -/
inductive Lowered (graph : ConfigGraph) (baseModule : String)
    (history : Buildable → History) :
    Progress → List Fixture → List Fixture → List (List Origin) → Progress → Prop
  | nil (progress : Progress) : Lowered graph baseModule history progress [] [] [] progress
  | cons {before after : Progress} {last : State} {fixture transformed : Fixture}
      {fixtures rest : List Fixture} {made : List Origin} {more : List (List Origin)} :
      Run graph baseModule history (.start before.imports before.nextCode) fixture.values
        transformed.values made last →
      Lowered graph baseModule history ⟨last.context, last.nextCode⟩ fixtures rest more
        after →
      Lowered graph baseModule history before (fixture :: fixtures) (transformed :: rest)
        (made :: more) after

theorem run_of_substituteFixture {fixture transformed : Fixture} {before after : Progress}
    (h : substituteFixture graph baseModule history fixture before =
      (.ok transformed, after)) :
    ∃ made last, Run graph baseModule history (.start before.imports before.nextCode)
      fixture.values transformed.values made last ∧
      after = ⟨last.context, last.nextCode⟩ := by
  rw [substituteFixture] at h
  rcases hbody : (substituteBody graph (transformer baseModule history) fixture).run.run
    (.start before.imports before.nextCode) with ⟨outcome, last⟩
  rw [hbody] at h
  obtain ⟨rfl, rfl⟩ := Prod.mk.inj h
  obtain ⟨made, hrun⟩ := run_of_substituteBody hbody
  exact ⟨made, last, hrun, rfl⟩

theorem lowered_of_substituteFixtures {fixtures transformed : List Fixture}
    {before after : Progress}
    (h : substituteFixtures graph baseModule history fixtures before =
      (.ok (), transformed, after)) :
    ∃ made, Lowered graph baseModule history before fixtures transformed made after := by
  induction fixtures generalizing transformed before with
  | nil =>
      obtain ⟨-, heq⟩ := Prod.mk.inj h
      obtain ⟨rfl, rfl⟩ := Prod.mk.inj heq
      exact ⟨[], .nil before⟩
  | cons fixture fixtures ih =>
      rw [substituteFixtures] at h
      rcases hfirst : substituteFixture graph baseModule history fixture before with
        ⟨outcome, middle⟩
      rw [hfirst] at h
      cases outcome with
      | error error => simp at h
      | ok first =>
          rcases hrest : substituteFixtures graph baseModule history fixtures middle with
            ⟨outcome, rest, last⟩
          simp only [hrest, Prod.mk.injEq] at h
          obtain ⟨rfl, rfl, rfl⟩ := h
          obtain ⟨made, state, hrun, rfl⟩ := run_of_substituteFixture hfirst
          obtain ⟨more, hmore⟩ := ih hrest
          exact ⟨made :: more, .cons hrun hmore⟩

theorem Lowered.length_eq {fixtures transformed : List Fixture} {before after : Progress}
    {made : List (List Origin)}
    (h : Lowered graph baseModule history before fixtures transformed made after) :
    transformed.length = fixtures.length := by
  induction h with
  | nil => rfl
  | cons _ _ ih => rw [List.length_cons, List.length_cons, ih]

end Substitution

theorem substituteWith_lowered {task : Task} {history : Buildable → History}
    (h : (task.substituteWith history).1 = .ok ()) :
    ∃ made, Substitution.Lowered task.graph task.baseModule history
      ⟨task.imports, task.nextCode⟩ task.fixtures (task.substituteWith history).2.fixtures made
      ⟨(task.substituteWith history).2.imports, (task.substituteWith history).2.nextCode⟩ := by
  rw [Task.substituteWith] at h ⊢
  rcases hfixtures : Substitution.substituteFixtures task.graph task.baseModule history
    task.fixtures ⟨task.imports, task.nextCode⟩ with ⟨outcome, fixtures, progress⟩
  simp only [hfixtures] at h ⊢
  subst h
  obtain ⟨made, hmade⟩ := Substitution.lowered_of_substituteFixtures hfixtures
  have hlowered : (task.callTree.withFixtures fixtures).fixtures = fixtures :=
    task.callTree.fixtures_withFixtures hmade.length_eq
  simp only [Task.fixtures, hlowered]
  exact ⟨made, hmade⟩

end ConfigLowering
