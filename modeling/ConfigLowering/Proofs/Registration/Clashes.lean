import ConfigLowering.Proofs.Document.Tasks
import ConfigLowering.Proofs.Imports.Reserved
import ConfigLowering.Proofs.Registration.Tasks

/-!
# Imports beside the names of the fixtures

The names that the fixtures bind are not in the namespace when aliases are chosen, unless they
are reserved. Reserved names are no aliases. A builtin goes by its bare name only if the task
refers to it.
-/

namespace ConfigLowering

/-- The names of the function, of its parameters and of its variables. -/
def Fixture.boundNames (fixture : Fixture) : List String :=
  fixture.name :: fixture.parameters ++ fixture.declarations.map Variable.name

def Task.boundNames (task : Task) : List String := task.fixtures.flatMap Fixture.boundNames

namespace GraphDocument

open ImportManager (Reachable)

variable {document : GraphDocument} {settings : ImportSettings} {task registered : Task}
  {positions : NodePositions} {summary : ImportSummary}

theorem registeredAs_registerImports (h : document.toTask settings = .ok (task, positions))
    (hrun : task.registerImports = (.ok summary, registered)) :
    task.RegisteredAs summary registered.imports ∧ Reachable settings registered.imports := by
  obtain ⟨-, himports⟩ := document.codeless_toTask h
  exact Task.registeredAs_of_registerImports (himports ▸ .start) hrun

/-- The task of a document comes with no names, so all that is registered is referred to. -/
theorem registers_registerImports_iff (h : document.toTask settings = .ok (task, positions))
    (hrun : task.registerImports = (.ok summary, registered)) (key : SymbolKey) :
    registered.imports.Registers key ↔ ∃ symbol, task.RefersTo symbol ∧ symbol.key = key := by
  obtain ⟨-, himports⟩ := document.codeless_toTask h
  have hnone : ¬ task.imports.Registers key := by
    rintro ⟨name, hname⟩
    rw [himports] at hname
    simp [ImportManager.ofSettings, ImportManager.nameOfKey?] at hname
  rw [(registeredAs_registerImports h hrun).1.names key, or_iff_right hnone]

/-- No reserved name is an alias, and the head of a bare name is none either and stands for a
builtin that the task refers to. -/
theorem registerImports_keeps_apart (h : document.toTask settings = .ok (task, positions))
    (hrun : task.registerImports = (.ok summary, registered)) (name : String) :
    (settings.Reserves name → ¬ registered.imports.isAlias name) ∧
      ∀ key, registered.imports.IsBare key → firstSegment key.qualname = name →
        ¬ registered.imports.isAlias name ∧ ∃ symbol, task.RefersTo symbol ∧ symbol.key = key := by
  obtain ⟨-, hreachable⟩ := registeredAs_registerImports h hrun
  refine ⟨hreachable.keepsReserved.free name, ?_⟩
  rintro key hbare rfl
  exact ⟨hreachable.not_isAlias_of_isBare hbare,
    (registers_registerImports_iff h hrun key).mp ⟨_, hbare.2⟩⟩

/-- Reserved names of the fixtures are no aliases. The head of a bare name is a name of the
fixtures only if the document refers to that builtin. -/
theorem registerImports_spares_reserved (h : document.toTask settings = .ok (task, positions))
    (hrun : task.registerImports = (.ok summary, registered)) :
    ∀ name ∈ task.boundNames,
      (settings.Reserves name → ¬ registered.imports.isAlias name) ∧
        ∀ key, registered.imports.IsBare key → firstSegment key.qualname = name →
          ¬ registered.imports.isAlias name ∧ ∃ symbol, task.RefersTo symbol ∧ symbol.key = key :=
  fun name _ => registerImports_keeps_apart h hrun name

/-! ## A fixture named like a module -/

/-- The fixture has the name of an imported module, and its parameter that of a builtin
function in the body. -/
def modelsFixture : GraphDocument where
  nodes := [⟨"a", .config, .classType "models" "Model", []⟩]
  fixture := .entry "models" ["print"] [] (.list [.node "a", .symbol (.builtin "print")]) []

def reservingModels : ImportSettings := { ImportSettings.default with reservedNames := ["models"] }

/-- What the task of `modelsFixture` registers. -/
theorem exists_registerImports_modelsFixture (settings : ImportSettings) (isAlias : Bool)
    (h : ((modelsFixture.toTask settings).map fun built =>
      (built.1.registerImports.1, built.1.boundNames,
        built.1.registerImports.2.imports.isAlias "models",
        built.1.registerImports.2.imports.nameOfKey? (Symbol.builtin "print").key)) =
      .ok (.ok ⟨1, 1, 0⟩, ["models", "print"], isAlias, some "print")) :
    ∃ task positions registered, modelsFixture.toTask settings = .ok (task, positions) ∧
      task.registerImports = (.ok ⟨1, 1, 0⟩, registered) ∧
      task.boundNames = ["models", "print"] ∧ registered.imports.isAlias "models" = isAlias ∧
      registered.imports.IsBare (Symbol.builtin "print").key := by
  cases htask : modelsFixture.toTask settings with
  | error error =>
      rw [htask] at h
      contradiction
  | ok result =>
      obtain ⟨task, positions⟩ := result
      rw [htask] at h
      simp only [Except.map, Except.ok.injEq, Prod.mk.injEq] at h
      obtain ⟨hok, hnames, halias, hname⟩ := h
      exact ⟨task, positions, task.registerImports.2, rfl, Prod.ext hok rfl, hnames, halias,
        rfl, hname⟩

theorem registerImports_spares_reserved_modelsFixture :
    ∃ task positions registered, modelsFixture.toTask reservingModels = .ok (task, positions) ∧
      task.registerImports = (.ok ⟨1, 1, 0⟩, registered) ∧
      reservingModels.Reserves "models" ∧ ¬ registered.imports.isAlias "models" ∧
      registered.imports.IsBare (Symbol.builtin "print").key ∧
      ∃ symbol, task.RefersTo symbol ∧ symbol.key = (Symbol.builtin "print").key := by
  obtain ⟨task, positions, registered, htask, hrun, hnames, -, hbare⟩ :=
    exists_registerImports_modelsFixture reservingModels false (by decide +kernel)
  have hreserves : reservingModels.Reserves "models" := .inl List.mem_cons_self
  have hspares := registerImports_spares_reserved htask hrun
  refine ⟨task, positions, registered, htask, hrun, hreserves,
    (hspares "models" (by simp [hnames])).1 hreserves, hbare, ?_⟩
  exact ((hspares "print" (by simp [hnames])).2 _ hbare (by decide +kernel)).2

/-- Names that are not reserved do not stay clear of the imports: the fixture hides the module
that its body needs, and the parameter the builtin function. -/
theorem registerImports_clashes :
    ∃ task positions registered, modelsFixture.toTask .default = .ok (task, positions) ∧
      task.registerImports = (.ok ⟨1, 1, 0⟩, registered) ∧
      (∃ name ∈ task.boundNames, registered.imports.isAlias name) ∧
      ∃ name ∈ task.boundNames, ∃ key, registered.imports.IsBare key ∧
        firstSegment key.qualname = name := by
  obtain ⟨task, positions, registered, htask, hrun, hnames, halias, hbare⟩ :=
    exists_registerImports_modelsFixture .default true (by decide +kernel)
  exact ⟨task, positions, registered, htask, hrun, ⟨"models", by simp [hnames], halias⟩,
    "print", by simp [hnames], _, hbare, by decide +kernel⟩

end GraphDocument

end ConfigLowering
