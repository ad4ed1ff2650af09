import ConfigLowering.Proofs.Registration.Referents
import ConfigLowering.Proofs.Substitution.Faithful

/-!
# Registration of a task

A task that is registered has names for what it refers to and for nothing else, and imports
only modules of new names and the base module. It fails only for references that are unknown
and for config nodes that need what cannot be imported.
-/

namespace ConfigLowering

namespace Registration

open RegistrationM

variable {graph : ConfigGraph} {baseModule : String} {fixtures : List Fixture}
  {before after : ImportManager} {summary : ImportSummary}

/-- The base module comes last, when a config node was met. -/
theorem yields_registerFixtures_iff :
    (registerFixtures graph baseModule fixtures).Yields before summary after ↔
      ∃ between,
        RegistrationM.Yields (fixtures.foldlM (registerFixture graph baseModule) .empty)
          before summary between ∧
        if summary.needsBaseModule then
          ∃ localName, between.addModule baseModule = (.ok localName, after)
        else after = between := by
  rw [registerFixtures, yields_bind_iff]
  constructor
  · rintro ⟨counted, between, hfold, h⟩
    split at h
    · next hneeds =>
        obtain ⟨⟨⟩, _, hmodule, h⟩ := h.of_bind
        obtain ⟨rfl, rfl⟩ := h.of_pure
        refine ⟨between, hfold, ?_⟩
        rw [if_pos hneeds]
        exact yields_requireModule_iff.mp hmodule
    · next hneeds =>
        obtain ⟨rfl, rfl⟩ := h.of_pure
        refine ⟨_, hfold, ?_⟩
        rw [if_neg hneeds]
  · rintro ⟨between, hfold, h⟩
    refine ⟨summary, between, hfold, ?_⟩
    split at h
    · next hneeds =>
        rw [if_pos hneeds]
        exact yields_bind_iff.mpr ⟨(), after, yields_requireModule_iff.mpr h, rfl⟩
    · next hneeds =>
        rw [if_neg hneeds, h]
        rfl

/-- The bodies of fixtures that were registered can be listed. -/
theorem listed_of_yields
    (h : RegistrationM.Yields (fixtures.foldlM (registerFixture graph baseModule) .empty)
      before summary after) :
    ∀ fixture ∈ fixtures, ∃ entries, graph.iterateAll fixture.bodySlots = .ok entries := by
  have hstep : ∀ start fixture before result after,
      (registerFixture graph baseModule start fixture).Yields before result after →
        before.Grows after ∧ ∃ entries, graph.iterateAll fixture.bodySlots = .ok entries := by
    intro start fixture before result after hfixture
    refine ⟨(yields_registerFixture hfixture).1, ?_⟩
    rw [registerFixture] at hfixture
    cases hentries : graph.iterateAll fixture.bodySlots with
    | ok entries => exact ⟨entries, rfl⟩
    | error error =>
        rw [hentries] at hfixture
        cases hfixture
  exact (yields_foldlM (fun (_ : ImportManager) (fixture : Fixture) => ∃ entries,
    graph.iterateAll fixture.bodySlots = .ok entries) hstep (fun _ _ _ _ hlisted => hlisted) h).2

end Registration

namespace Task

open ImportManager (Reachable)
open Registration (symbolsOf registerFixture listed_of_yields yields_registerFixtures_iff)

variable {task registered : Task} {summary : ImportSummary} {settings : ImportSettings}
  {after : ImportManager}

/-! ## Names and counts -/

def Listed (task : Task) : Prop :=
  ∀ fixture ∈ task.fixtures, ∃ entries, task.graph.iterateAll fixture.bodySlots = .ok entries

theorem Listed.mem_symbolsOf_iff (h : task.Listed) (symbol : Symbol) :
    symbol ∈ task.fixtures.flatMap (symbolsOf task.graph task.baseModule) ↔
      task.RefersTo symbol := by
  rw [refersTo_iff, List.mem_flatMap]
  refine exists_congr fun fixture => and_congr_right fun hfixture => ?_
  obtain ⟨entries, hentries⟩ := h fixture hfixture
  exact Registration.mem_symbolsOf_iff hentries _ _

theorem Listed.enters (h : task.Listed) (start : ImportSummary) :
    RegistrationM.Enters (task.fixtures.foldlM (registerFixture task.graph task.baseModule) start)
      (task.fixtures.flatMap (symbolsOf task.graph task.baseModule)) := by
  refine RegistrationM.enters_foldlM (fun fixture hfixture summary => ?_) start
  obtain ⟨entries, hentries⟩ := h fixture hfixture
  exact Registration.enters_registerFixture hentries _ summary

theorem listed_iff (hgraph : task.graph.WellFormed) :
    task.Listed ↔ ∀ fixture ∈ task.fixtures, ∀ value ∈ fixture.values,
      ∀ id ∈ value.nodeReferences, task.graph.contains id :=
  forall₂_congr fun fixture _ => ConfigGraph.exists_iterateAll_iff hgraph fixture.bodySlots

theorem Listed.get?_of_reaches (h : task.Listed) {id : NodeId} (hreaches : task.Reaches (.node id)) :
    ∃ buildable, task.graph.get? id = some buildable := by
  obtain ⟨fixture, hfixture, root, hroot, hbelow⟩ := hreaches
  obtain ⟨entries, hentries⟩ := h fixture hfixture
  obtain ⟨visit, hvisit, -⟩ := ConfigGraph.iterateAll_covers hentries hroot hbelow
  obtain ⟨buildable, hfound, -⟩ := Option.map_eq_some_iff.mp hvisit
  exact ⟨buildable, hfound⟩

/-- How many config nodes the fixtures reach, one fixture after the other. -/
noncomputable def reachedNodes (task : Task) : Nat :=
  (task.fixtures.map fun fixture =>
    {id | fixture.Reaches task.graph (.node id)}.ncard).sum

theorem Listed.reachedNodes_pos_iff (h : task.Listed) :
    0 < task.reachedNodes ↔ ∃ id, task.Reaches (.node id) := by
  have hfixture : ∀ fixture ∈ task.fixtures,
      0 < {id | fixture.Reaches task.graph (.node id)}.ncard ↔
        ∃ id, fixture.Reaches task.graph (.node id) := by
    intro fixture hfixture
    obtain ⟨entries, hentries⟩ := h fixture hfixture
    have hfinite : {id | fixture.Reaches task.graph (.node id)}.Finite := by
      rw [show {id | fixture.Reaches task.graph (.node id)} = _ from
        ConfigGraph.setOf_below_eq hentries]
      exact Finset.finite_toSet _
    exact Set.ncard_pos hfinite
  rw [reachedNodes, List.sum_pos_iff_exists_pos_nat]
  constructor
  · rintro ⟨count, hcount, hpos⟩
    obtain ⟨fixture, hmem, rfl⟩ := List.mem_map.mp hcount
    obtain ⟨id, hreaches⟩ := (hfixture fixture hmem).mp hpos
    exact ⟨id, fixture, hmem, hreaches⟩
  · rintro ⟨id, fixture, hmem, hreaches⟩
    exact ⟨_, List.mem_map_of_mem hmem, (hfixture fixture hmem).mpr ⟨id, hreaches⟩⟩

theorem configNodes_of_yields
    (h : RegistrationM.Yields (task.fixtures.foldlM (registerFixture task.graph task.baseModule)
      .empty) task.imports summary after) : summary.configNodes = task.reachedNodes := by
  have hcount : summary.configNodes = ImportSummary.empty.configNodes + task.reachedNodes := by
    refine Registration.configNodes_foldlM (fun summary fixture before result after hfixture => ?_) h
    exact Registration.configNodes_registerFixture hfixture
  rw [hcount]
  exact Nat.zero_add _

/-! ## Outcomes -/

theorem registerImports_eq_ok_iff :
    task.registerImports = (.ok summary, registered) ↔
      (Registration.registerFixtures task.graph task.baseModule task.fixtures).Yields task.imports
        summary registered.imports ∧ registered = { task with imports := registered.imports } := by
  rw [registerImports, RegistrationM.Yields]
  rcases (Registration.registerFixtures task.graph task.baseModule task.fixtures).run.run
    task.imports with ⟨outcome, imports⟩
  constructor
  · intro h
    obtain ⟨rfl, rfl⟩ := Prod.mk.inj h
    exact ⟨rfl, rfl⟩
  · rintro ⟨h, hsame⟩
    obtain ⟨rfl, rfl⟩ := Prod.mk.inj h
    rw [hsame]

/-- When all symbols were registered, the base module can be imported too. -/
theorem Registrable.exists_registerFixtures {between : ImportManager} (h : task.Registrable)
    (hlisted : task.Listed)
    (hfold : RegistrationM.Yields
      (task.fixtures.foldlM (registerFixture task.graph task.baseModule) .empty) task.imports
      summary between) :
    ∃ after, (Registration.registerFixtures task.graph task.baseModule task.fixtures).Yields
      task.imports summary after := by
  cases hneeds : summary.needsBaseModule with
  | false => exact ⟨between, yields_registerFixtures_iff.mpr ⟨between, hfold, by rw [hneeds]; rfl⟩⟩
  | true =>
      -- A node was reached, and its wrapper can only be imported from a module.
      have hpos : 0 < task.reachedNodes := by
        rw [← configNodes_of_yields hfold]
        exact of_decide_eq_true hneeds
      obtain ⟨id, hreaches⟩ := hlisted.reachedNodes_pos_iff.mp hpos
      obtain ⟨buildable, hfound⟩ := hlisted.get?_of_reaches hreaches
      have hmodule : isDottedPath task.baseModule :=
        ImportManager.isDottedPath_module (h.importable id buildable hreaches hfound).2.1
      refine ⟨(between.ensureModule task.baseModule).2,
        yields_registerFixtures_iff.mpr ⟨between, hfold, ?_⟩⟩
      rw [if_pos hneeds]
      exact ⟨_, ImportManager.addModule_eq_ok_iff.mpr ⟨hmodule, rfl, rfl⟩⟩

theorem exists_registerImports_iff (hgraph : task.graph.WellFormed)
    (himports : Reachable settings task.imports) :
    (∃ summary, task.registerImports.1 = .ok summary) ↔ task.Registrable := by
  constructor
  · rintro ⟨summary, hok⟩
    obtain ⟨hyields, -⟩ := registerImports_eq_ok_iff.mp (Prod.ext hok rfl)
    obtain ⟨between, hfold, -⟩ := yields_registerFixtures_iff.mp hyields
    have hlisted : task.Listed := listed_of_yields hfold
    refine ⟨(listed_iff hgraph).mp hlisted, importable_iff.mp fun symbol hsymbol => ?_⟩
    exact ((hlisted.enters .empty).succeeds_iff settings _ himports).mp ⟨summary, between, hfold⟩
      symbol ((hlisted.mem_symbolsOf_iff symbol).mpr hsymbol)
  · intro h
    have hlisted : task.Listed := (listed_iff hgraph).mpr h.known
    obtain ⟨summary, between, hfold⟩ :=
      ((hlisted.enters .empty).succeeds_iff settings _ himports).mpr fun symbol hsymbol =>
        importable_iff.mpr h.importable symbol ((hlisted.mem_symbolsOf_iff symbol).mp hsymbol)
    obtain ⟨after, hyields⟩ := h.exists_registerFixtures hlisted hfold
    exact ⟨summary, congrArg Prod.fst (registerImports_eq_ok_iff.mpr
      (show _ ∧ ({ task with imports := after } : Task) = _ from ⟨hyields, rfl⟩))⟩

/-- What registration adds: names for what the task refers to, imports for the new names and,
behind a reached config node, for the base module. -/
structure RegisteredAs (task : Task) (summary : ImportSummary) (after : ImportManager) : Prop where
  names : ∀ key, after.Registers key ↔
    task.imports.Registers key ∨ ∃ symbol, task.RefersTo symbol ∧ symbol.key = key
  imports : ∃ added, after.imports = task.imports.imports ++ added ∧ ∀ entry ∈ added,
    (∃ key, after.Registers key ∧ ¬ task.imports.Registers key ∧ key.module = entry.module) ∨
      entry.module = task.baseModule ∧ ∃ id, task.Reaches (.node id)
  baseModule : (∃ id, task.Reaches (.node id)) →
    ∃ entry ∈ after.imports, entry.module = task.baseModule
  configNodes : summary.configNodes = task.reachedNodes

theorem configNodes_of_registerImports (h : task.registerImports = (.ok summary, registered)) :
    summary.configNodes = task.reachedNodes := by
  obtain ⟨hyields, -⟩ := registerImports_eq_ok_iff.mp h
  obtain ⟨between, hfold, -⟩ := yields_registerFixtures_iff.mp hyields
  exact configNodes_of_yields hfold

theorem registeredAs_of_registerImports (himports : Reachable settings task.imports)
    (h : task.registerImports = (.ok summary, registered)) :
    task.RegisteredAs summary registered.imports ∧ Reachable settings registered.imports := by
  obtain ⟨hyields, -⟩ := registerImports_eq_ok_iff.mp h
  obtain ⟨between, hfold, hmodule⟩ := yields_registerFixtures_iff.mp hyields
  have hlisted : task.Listed := listed_of_yields hfold
  have hcount := configNodes_of_yields hfold
  have hgains := (hlisted.enters .empty).gains _ _ _ hfold
  have hnames : ∀ key, between.Registers key ↔
      task.imports.Registers key ∨ ∃ symbol, task.RefersTo symbol ∧ symbol.key = key := by
    intro key
    rw [hgains.registers, List.mem_map]
    exact or_congr_right (exists_congr fun symbol =>
      and_congr_left fun _ => hlisted.mem_symbolsOf_iff symbol)
  obtain ⟨added, hsame, hadded⟩ := hgains.imports
  have hbetween := hgains.reachable settings himports
  split at hmodule
  · next hneeds =>
      have hreached : ∃ id, task.Reaches (.node id) := by
        rw [← hlisted.reachedNodes_pos_iff, ← hcount]
        exact of_decide_eq_true hneeds
      obtain ⟨localName, hadd⟩ := hmodule
      have hregisters := ImportManager.registers_of_addModule hadd
      obtain ⟨-, -, hafter⟩ := ImportManager.addModule_eq_ok_iff.mp hadd
      have hbase := hbetween.wellFormed.indexed.mem_imports_ensureModule task.baseModule
      rw [← hafter] at hbase
      obtain ⟨added', hsame', hadded'⟩ := ImportManager.imports_of_addModule hadd
      refine ⟨⟨fun key => (hregisters key).trans (hnames key), ⟨added ++ added', ?_, ?_⟩,
        fun _ => ⟨_, hbase, rfl⟩, hcount⟩, hbetween.addModule hadd⟩
      · rw [hsame', hsame, List.append_assoc]
      · refine List.forall_mem_append.mpr ⟨fun entry hentry => .inl ?_, fun entry hentry => ?_⟩
        · obtain ⟨key, hkey, hnew⟩ := hadded entry hentry
          exact ⟨key, (hregisters key).mpr hkey, hnew⟩
        · exact .inr ⟨hadded' entry hentry, hreached⟩
  · next hneeds =>
      have hreached : ¬ ∃ id, task.Reaches (.node id) := by
        rw [← hlisted.reachedNodes_pos_iff, ← hcount]
        exact fun hpos => hneeds (decide_eq_true hpos)
      rw [hmodule]
      exact ⟨⟨hnames, ⟨added, hsame, fun entry hentry => .inl (hadded entry hentry)⟩,
        fun h => absurd h hreached, hcount⟩, hbetween⟩

/-- Registration succeeds exactly when all references are known and what reached nodes need can
be imported. It then registers exactly what the task refers to. -/
theorem registerImports_exact (hgraph : task.graph.Built)
    (himports : Reachable settings task.imports) :
    ((∃ summary, task.registerImports.1 = .ok summary) ↔ task.Registrable) ∧
      ∀ summary registered, task.registerImports = (.ok summary, registered) →
        task.RegisteredAs summary registered.imports :=
  ⟨exists_registerImports_iff hgraph.wellFormed himports,
    fun _ _ h => (registeredAs_of_registerImports himports h).1⟩

/-- Both fixtures reach the tagged node, and the child has a builtin function in a list. -/
def sharedNode : Task :=
  .create taggedPair
    (.node (.ofOutput "build" (.node ⟨1⟩))
      [.ofFixture (.ofOutput "child" (.list [.node ⟨0⟩, .symbol ⟨"builtins", "len", .function⟩]))])
    .default ⟨1⟩

theorem registerImports_exact_sharedNode :
    sharedNode.graph.Built ∧ Reachable .default sharedNode.imports ∧ sharedNode.Registrable ∧
      sharedNode.RegisteredAs ⟨3, 1, 0⟩ sharedNode.registerImports.2.imports := by
  have hbuilt : sharedNode.graph.Built := built_taggedPair
  have hstart : Reachable .default sharedNode.imports := .start
  have hok : sharedNode.registerImports.1 = .ok ⟨3, 1, 0⟩ := by decide +kernel
  obtain ⟨hregistrable, hregistered⟩ := registerImports_exact hbuilt hstart
  have hrun : sharedNode.registerImports = (.ok ⟨3, 1, 0⟩, sharedNode.registerImports.2) := by
    rw [← hok]
  exact ⟨hbuilt, hstart, hregistrable.mp ⟨_, hok⟩, hregistered _ _ hrun⟩

end Task

end ConfigLowering
