import ConfigLowering.Proofs.Imports.Growth
import ConfigLowering.Proofs.Substitution.Faithful
import ConfigLowering.Proofs.Substitution.Keeping

/-!
# Where the substitution stops

The substitution takes the fixtures one after the other and writes a body only when all of
it is there. So a failure leaves translated fixtures before some position and untouched ones
from it on. The outline of the tree does not change, and the imports are only extended.
-/

namespace ConfigLowering

namespace Substitution

variable {graph : ConfigGraph} {baseModule : String} {history : Buildable → History}

/-! ## Outlines -/

theorem outline_substituteBody {transformer : Transformer ImportManager LoweringError}
    {fixture transformed : Fixture} {before after : State}
    (h : (substituteBody graph transformer fixture).Yields before transformed after) :
    transformed.outline = fixture.outline := by
  unfold substituteBody at h
  obtain ⟨declarations, between, hdeclarations, h⟩ := h.of_bind
  obtain ⟨output, _, -, hpure⟩ := h.of_bind
  obtain ⟨rfl, -⟩ := hpure.of_pure
  refine Fixture.outline_replaceBody ?_ output
  have hnames : declarations.map Variable.name =
      fixture.declarations.zipIdx.map fun declaration => declaration.1.name := by
    refine TransformM.map_eq_of_mapM ?_ hdeclarations
    intro declaration before result after hyields
    obtain ⟨expression, _, -, hpure⟩ := hyields.of_bind
    obtain ⟨rfl, -⟩ := hpure.of_pure
    rfl
  have hzip := congrArg (List.map Variable.name) (List.zipIdx_map_fst 0 fixture.declarations)
  rw [List.map_map] at hzip
  exact hnames.trans hzip

theorem outline_substituteFixture {fixture transformed : Fixture} {before after : Progress}
    (h : substituteFixture graph baseModule history fixture before = (.ok transformed, after)) :
    transformed.outline = fixture.outline := by
  unfold substituteFixture at h
  rcases hbody : (substituteBody graph (transformer baseModule history) fixture).run.run
    (.start before.imports before.nextCode) with ⟨outcome, last⟩
  rw [hbody] at h
  obtain ⟨rfl, -⟩ := Prod.mk.inj h
  exact outline_substituteBody hbody

theorem outlines_substituteFixtures (fixtures : List Fixture) (before : Progress) :
    (substituteFixtures graph baseModule history fixtures before).2.1.map Fixture.outline =
      fixtures.map Fixture.outline := by
  induction fixtures generalizing before with
  | nil => rfl
  | cons fixture fixtures ih =>
      rw [substituteFixtures]
      rcases hfirst : substituteFixture graph baseModule history fixture before with
        ⟨outcome, middle⟩
      cases outcome with
      | error error => rfl
      | ok transformed => simp [outline_substituteFixture hfirst, ih middle]

/-! ## Failures -/

/-- The first failure stops everything: what follows it stays as it was. -/
theorem stopped_of_substituteFixtures {fixtures results : List Fixture} {error : LoweringError}
    {before after : Progress}
    (h : substituteFixtures graph baseModule history fixtures before =
      (.error error, results, after)) :
    ∃ done failing rest lowered middle,
      fixtures = done ++ failing :: rest ∧ results = lowered ++ failing :: rest ∧
      substituteFixtures graph baseModule history done before = (.ok (), lowered, middle) ∧
      substituteFixture graph baseModule history failing middle = (.error error, after) := by
  induction fixtures generalizing results before with
  | nil => simp [substituteFixtures] at h
  | cons fixture fixtures ih =>
      rw [substituteFixtures] at h
      rcases hfirst : substituteFixture graph baseModule history fixture before with
        ⟨outcome, middle⟩
      rw [hfirst] at h
      cases outcome with
      | error other =>
          simp only [Prod.mk.injEq, Except.error.injEq] at h
          obtain ⟨rfl, rfl, rfl⟩ := h
          exact ⟨[], fixture, fixtures, [], before, rfl, rfl, rfl, hfirst⟩
      | ok transformed =>
          rcases hrest : substituteFixtures graph baseModule history fixtures middle with
            ⟨outcome, others, last⟩
          simp only [hrest, Prod.mk.injEq] at h
          obtain ⟨rfl, rfl, rfl⟩ := h
          obtain ⟨done, failing, rest, lowered, reached, rfl, rfl, hdone, hfailing⟩ := ih hrest
          refine ⟨fixture :: done, failing, rest, transformed :: lowered, reached, rfl, rfl, ?_,
            hfailing⟩
          rw [substituteFixtures, hfirst]
          simp only [hdone]

/-! ## Extended imports -/

theorem keptByAdding_extendedBy (manager : ImportManager) (symbol : Symbol) :
    ImportManager.KeptByAdding manager.ExtendedBy symbol :=
  fun _ _ _ hextended hadd => hextended.trans (ImportManager.extendedBy_add hadd)

theorem extendedBy_substituteFixture (graph : ConfigGraph) (baseModule : String)
    (history : Buildable → History) (fixture : Fixture) (before : Progress) :
    before.imports.ExtendedBy
      (substituteFixture graph baseModule history fixture before).2.imports := by
  have hrespects : (transformer baseModule history).Respects graph
      (TransformM.Keeps before.imports.ExtendedBy) fun _ => True :=
    transformer_respects (TransformM.frame_keeps _) (fun _ _ _ _ => trivial)
      fun _ _ _ _ symbol _ =>
        allows_of_keptByAdding (keptByAdding_extendedBy before.imports symbol)
  exact keeps_substituteBody hrespects (fun _ _ => trivial) (.start before.imports before.nextCode)
    (.refl before.imports)

end Substitution

/-! ## Tasks -/

namespace Task

variable {task : Task} {history : Buildable → History} {error : LoweringError}

theorem extendedBy_substituteWith (task : Task) (history : Buildable → History) :
    task.imports.ExtendedBy (task.substituteWith history).2.imports :=
  substituteWith_keeps task.imports.ExtendedBy (fun _ => True) history
    (fun _ _ _ _ => trivial) (fun _ _ _ _ => trivial)
    (fun _ _ _ _ symbol _ => Substitution.keptByAdding_extendedBy task.imports symbol)
    (.refl task.imports)

theorem outline_substituteWith (task : Task) (history : Buildable → History) :
    (task.substituteWith history).2.callTree.outline = task.callTree.outline :=
  task.callTree.outline_withFixtures (Substitution.outlines_substituteFixtures _ _)

theorem stopped_of_substituteWith (h : (task.substituteWith history).1 = .error error) :
    ∃ done failing rest lowered middle,
      task.fixtures = done ++ failing :: rest ∧
      (task.substituteWith history).2.fixtures = lowered ++ failing :: rest ∧
      Substitution.substituteFixtures task.graph task.baseModule history done
        ⟨task.imports, task.nextCode⟩ = (.ok (), lowered, middle) ∧
      Substitution.substituteFixture task.graph task.baseModule history failing middle =
        (.error error, ⟨(task.substituteWith history).2.imports,
          (task.substituteWith history).2.nextCode⟩) := by
  unfold substituteWith at h ⊢
  rcases hfixtures : Substitution.substituteFixtures task.graph task.baseModule history
    task.fixtures ⟨task.imports, task.nextCode⟩ with ⟨outcome, fixtures, progress⟩
  simp only [hfixtures] at h ⊢
  subst h
  obtain ⟨done, failing, rest, lowered, middle, htask, rfl, hdone, hfailing⟩ :=
    Substitution.stopped_of_substituteFixtures hfixtures
  obtain ⟨made, hlowered⟩ := Substitution.lowered_of_substituteFixtures hdone
  refine ⟨done, failing, rest, lowered, middle, htask, ?_, hdone, hfailing⟩
  apply task.callTree.fixtures_withFixtures
  rw [← Task.fixtures, htask]
  simp [hlowered.length_eq]

/-- A failing substitution leaves no half-written fixture: those before some position are
translations, with the names that are known in the end, and the others are as they were.
Whatever the outcome, only the values in the bodies change, and the imports are extended. -/
theorem substituteWith_stops (task : Task) (history : Buildable → History) :
    (∀ error, (task.substituteWith history).1 = .error error →
      ∃ done lowered failing rest,
        task.fixtures = done ++ failing :: rest ∧
        (task.substituteWith history).2.fixtures = lowered ++ failing :: rest ∧
        lowered.length = done.length ∧
        (task.graph.Built → task.Coherent →
          ∃ identity : Nat × Origin → CodeId, Function.Injective identity ∧
            (∀ key, task.nextCode.index ≤ (identity key).index) ∧
            ∀ (position : Nat) (fixture result : Fixture), done[position]? = some fixture →
              lowered[position]? = some result → ∀ depth, task.graph.nodeCount < depth →
                fixture.values.map ((task.translation history
                  (task.substituteWith history).2.imports
                  fun origin => identity (position, origin)).translate depth) =
                result.values.map some)) ∧
    (task.substituteWith history).2.callTree.outline = task.callTree.outline ∧
    task.imports.ExtendedBy (task.substituteWith history).2.imports := by
  refine ⟨fun error herror => ?_, task.outline_substituteWith history,
    task.extendedBy_substituteWith history⟩
  obtain ⟨done, failing, rest, lowered, middle, htask, hresult, hdone, hfailing⟩ :=
    stopped_of_substituteWith herror
  obtain ⟨made, hlowered⟩ := Substitution.lowered_of_substituteFixtures hdone
  refine ⟨done, lowered, failing, rest, htask, hresult, hlowered.length_eq, ?_⟩
  intro hgraph hcoherent
  -- The fixture that fails may still have registered names; the earlier bodies keep theirs.
  have hlater : middle.imports.Grows (task.substituteWith history).2.imports := by
    have hextended := Substitution.extendedBy_substituteFixture task.graph task.baseModule history
      failing middle
    rw [hfailing] at hextended
    exact hextended.names
  refine hlowered.exists_identity hgraph.wellFormed hcoherent.heap ?_ hlater
  intro fixture hfixture value hvalue
  refine contains_of_values (htask ▸ List.mem_append_left _ hfixture) hvalue

/-- A node that can be called, and one with a tag on a field that has no value. -/
def unsetPair : ConfigGraph :=
  (ConfigGraph.empty.perform (.addNode ((Buildable.ofCallable .config
    (.classType "models" "Inner")).assign "size" (.int 1)))).perform
    (.addNode ((Buildable.ofCallable .config (.classType "models" "Outer")).addTag "size"
      (.classType "tags" "Size")))

/-- The fixture that is called cannot be substituted, the one that calls it can. -/
def secondFails : Task :=
  .create unsetPair (.node (.ofOutput "first" (.node ⟨0⟩)) [.ofFixture (.ofOutput "second"
    (.tuple [.node ⟨0⟩, .node ⟨1⟩]))]) .default ⟨0⟩

theorem built_unsetPair : unsetPair.Built :=
  .perform _ (.perform _ .empty (.assign _ _ (.ofCallable _ _))) (.addTag _ _ (.ofCallable _ _))

theorem parts_unsetPair (id : NodeId) :
    unsetPair.parts (.node id) = [[.int 1]].getD id.index [] := by
  obtain ⟨_ | _ | index⟩ := id <;> rfl

theorem mem_of_secondFails {value : Value} (h : secondFails.Contains value) :
    value ∈ [.int 1, .node ⟨0⟩, .node ⟨1⟩, .tuple [.node ⟨0⟩, .node ⟨1⟩]] := by
  have hnodes : ∀ id, ∀ value ∈ unsetPair.parts (.node id), value = .int 1 := by
    intro id value hvalue
    rw [parts_unsetPair] at hvalue
    obtain ⟨_ | index⟩ := id
    · simpa using hvalue
    · simp at hvalue
  refine contains_of_closed ?_ (fun id value hvalue => by simp [hnodes id value hvalue]) ?_ h
  · intro fixture hfixture value hvalue
    have hfixtures : secondFails.fixtures = [.ofOutput "first" (.node ⟨0⟩),
      .ofOutput "second" (.tuple [.node ⟨0⟩, .node ⟨1⟩])] := rfl
    rw [hfixtures] at hfixture
    simp only [List.mem_cons, List.not_mem_nil, or_false] at hfixture
    rcases hfixture with rfl | rfl <;>
      simp_all [Fixture.values_eq, Fixture.ofOutput]
  · intro whole hwhole part hpart
    simp only [List.mem_cons, List.not_mem_nil, or_false] at hwhole
    rcases hwhole with rfl | rfl | rfl | rfl
    case inr.inl => simp [hnodes _ part hpart]
    case inr.inr.inl => simp [hnodes _ part hpart]
    · simp [ConfigGraph.parts, Value.children] at hpart
    · simp only [ConfigGraph.parts, Value.children, List.mem_cons, List.not_mem_nil,
        or_false] at hpart
      rcases hpart with rfl | rfl <;> simp

theorem coherent_secondFails : secondFails.Coherent := by
  intro first second id hfirst _ hid _
  have hmem := mem_of_secondFails hfirst
  simp only [List.mem_cons, List.not_mem_nil, or_false] at hmem
  rcases hmem with rfl | rfl | rfl | rfl <;> simp [Value.codeId?] at hid

theorem substituteWith_stops_secondFails :
    (secondFails.substituteWith noHistory).1 = .error (.taggedFieldNotSet "size"
        "<Config[models.Outer()]>" [] ⟨[.field "output_value", .index 1]⟩) ∧
      ∃ done lowered failing rest,
        secondFails.fixtures = done ++ failing :: rest ∧
        (secondFails.substituteWith noHistory).2.fixtures = lowered ++ failing :: rest ∧
        ∃ identity : Nat × Origin → CodeId, Function.Injective identity ∧
          ∀ (position : Nat) (fixture result : Fixture), done[position]? = some fixture →
            lowered[position]? = some result →
              fixture.values.map ((secondFails.translation noHistory
                (secondFails.substituteWith noHistory).2.imports
                fun origin => identity (position, origin)).translate 3) =
              result.values.map some := by
  have herror : (secondFails.substituteWith noHistory).1 = .error (.taggedFieldNotSet "size"
      "<Config[models.Outer()]>" [] ⟨[.field "output_value", .index 1]⟩) := by decide +kernel
  refine ⟨herror, ?_⟩
  obtain ⟨done, lowered, failing, rest, htask, hresult, -, htranslates⟩ :=
    (substituteWith_stops secondFails noHistory).1 _ herror
  obtain ⟨identity, hinjective, -, hbodies⟩ := htranslates built_unsetPair coherent_secondFails
  exact ⟨done, lowered, failing, rest, htask, hresult, identity, hinjective,
    fun position fixture result hfixture hlowered =>
      hbodies position fixture result hfixture hlowered 3 (by decide)⟩

end Task

end ConfigLowering
