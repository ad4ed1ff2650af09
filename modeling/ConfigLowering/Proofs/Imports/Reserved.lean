import ConfigLowering.Proofs.Imports.Permanence

/-!
# Reserved names

At the start the namespace holds the words of the generated language and the configured names.
An alias is new to the namespace, which only grows, so no import ever takes one of these.
-/

namespace ConfigLowering

/-! ## The first names -/

namespace Namespace

theorem contains_initial_iff (name : String) : initial.contains name ↔ name ∈ reservedWords := by
  simp [initial, contains]

theorem contains_addAll_iff (space : Namespace) (names : List String) (name : String) :
    (space.addAll names).contains name ↔ name ∈ names ∨ space.contains name := by
  rw [addAll]
  induction names generalizing space with
  | nil => simp
  | cons first names ih =>
      rw [List.foldl_cons, ih, contains_add_iff, List.mem_cons, or_left_comm, or_assoc]

end Namespace

def ImportSettings.Reserves (settings : ImportSettings) (name : String) : Prop :=
  name ∈ settings.reservedNames ∨ name ∈ Namespace.reservedWords

namespace ImportManager

variable {settings : ImportSettings} {manager between after : ImportManager}

theorem contains_ofSettings_iff (settings : ImportSettings) (name : String) :
    (ofSettings settings).space.contains name ↔ settings.Reserves name := by
  rw [ofSettings, Namespace.contains_addAll_iff, Namespace.contains_initial_iff]
  rfl

/-! ## New aliases -/

/-- An alias was an alias before, or its name was free. -/
def ImportsAside (before after : ImportManager) : Prop :=
  ∀ name, after.isAlias name → before.isAlias name ∨ ¬ before.space.contains name

theorem ImportsAside.refl (manager : ImportManager) : manager.ImportsAside manager :=
  fun _ halias => .inl halias

theorem ImportsAside.of_imports_eq (h : manager.ImportsAside between)
    (himports : after.imports = between.imports) : manager.ImportsAside after := by
  intro name halias
  rw [isAlias, himports] at halias
  exact h name halias

theorem importsAside_ensureModule (manager : ImportManager) (module : String) :
    manager.ImportsAside (manager.ensureModule module).2 := by
  rw [ensureModule_eq]
  split
  · exact .refl manager
  · intro name halias
    obtain halias | rfl := (isAlias_withImport _ _ _ _).mp halias
    · exact .inl halias
    · exact .inr (manager.not_contains_chooseAlias module)

theorem importsAside_perform (manager : ImportManager) (operation : Operation) :
    manager.ImportsAside (manager.perform operation) := by
  obtain hsame | ⟨module, himports⟩ := manager.imports_perform operation
  · exact (ImportsAside.refl manager).of_imports_eq hsame
  · exact (manager.importsAside_ensureModule module).of_imports_eq himports

/-! ## The invariant -/

structure KeepsReserved (settings : ImportSettings) (manager : ImportManager) : Prop where
  bound : ∀ name, settings.Reserves name → manager.space.contains name
  free : ∀ name, settings.Reserves name → ¬ manager.isAlias name

theorem KeepsReserved.step (h : manager.KeepsReserved settings)
    (hextended : manager.ExtendedBy after) (haside : manager.ImportsAside after) :
    after.KeepsReserved settings where
  bound name hname := hextended.bound name (h.bound name hname)
  free name hname halias := by
    obtain hbefore | hfree := haside name halias
    · exact h.free name hname hbefore
    · exact hfree (h.bound name hname)

theorem keepsReserved_ofSettings (settings : ImportSettings) :
    (ofSettings settings).KeepsReserved settings where
  bound name hname := (contains_ofSettings_iff settings name).mpr hname
  free name _ halias := by simp [ofSettings, isAlias] at halias

theorem Reachable.keepsReserved (h : Reachable settings manager) :
    manager.KeepsReserved settings := by
  induction h with
  | start => exact keepsReserved_ofSettings settings
  | @perform manager operation _ ih =>
      exact ih.step (manager.extendedBy_perform operation) (manager.importsAside_perform operation)

/-! ## Bare names -/

/-- The builtin goes by its own name. -/
def IsBare (manager : ImportManager) (key : SymbolKey) : Prop :=
  key.module = Symbol.builtinsModule ∧ manager.nameOfKey? key = some key.qualname

theorem Reachable.bareName_of_isBare (h : Reachable settings manager) {key : SymbolKey}
    (hbare : manager.IsBare key) : manager.BareName key key.qualname := by
  obtain hname | ⟨entry, -, -, hname⟩ := h.wellFormed.names key key.qualname hbare.2
  · exact hname
  · -- A name below an alias is longer than the name itself.
    have hlength := congrArg String.length hname
    simp only [String.length_append] at hlength
    have hdot : ".".length = 1 := rfl
    omega

theorem Reachable.not_isAlias_of_isBare (h : Reachable settings manager) {key : SymbolKey}
    (hbare : manager.IsBare key) : ¬ manager.isAlias (firstSegment key.qualname) :=
  (h.bareName_of_isBare hbare).2.2.2

theorem Reachable.contains_of_isBare (h : Reachable settings manager) {key : SymbolKey}
    (hbare : manager.IsBare key) : manager.space.contains (firstSegment key.qualname) :=
  (h.bareName_of_isBare hbare).2.2.1

end ImportManager

end ConfigLowering
