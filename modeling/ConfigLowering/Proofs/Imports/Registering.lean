import ConfigLowering.Proofs.Imports.Growth

/-!
# What registering adds

Which symbols have names after some were registered, and which imports came with them. Every
symbol that has a name can be imported.
-/

namespace ConfigLowering.ImportManager

/-- The symbols with this key have a name. -/
def Registers (manager : ImportManager) (key : SymbolKey) : Prop :=
  ∃ name, manager.nameOfKey? key = some name

variable {settings : ImportSettings} {manager before between after : ImportManager}
  {symbol : Symbol} {name module localName : String}

theorem registers_withName_iff (key other : SymbolKey) (name : String) :
    (manager.withName key name).Registers other ↔ manager.Registers other ∨ other = key := by
  simp only [Registers, nameOfKey?_withName]
  by_cases hkey : key = other
  · simp [hkey]
  · simp [hkey, Ne.symm hkey]

/-! ## Gains -/

/-- What is there after some symbols were registered: their names, and imports of modules of
symbols that had no name before. -/
structure Gains (before after : ImportManager) (symbols : List Symbol) : Prop where
  registers : ∀ key, after.Registers key ↔ before.Registers key ∨ key ∈ symbols.map Symbol.key
  imports : ∃ added, after.imports = before.imports ++ added ∧ ∀ entry ∈ added,
    ∃ key, after.Registers key ∧ ¬ before.Registers key ∧ key.module = entry.module
  reachable : ∀ settings, Reachable settings before → Reachable settings after

theorem Gains.refl (manager : ImportManager) : manager.Gains manager [] where
  registers _ := by simp
  imports := ⟨[], (List.append_nil _).symm, nofun⟩
  reachable _ h := h

theorem Gains.trans {symbols more : List Symbol} (h : before.Gains between symbols)
    (h' : between.Gains after more) : before.Gains after (symbols ++ more) where
  registers key := by rw [h'.registers, h.registers, List.map_append, List.mem_append, or_assoc]
  imports := by
    obtain ⟨added, himports, hadded⟩ := h.imports
    obtain ⟨added', himports', hadded'⟩ := h'.imports
    refine ⟨added ++ added', by rw [himports', himports, List.append_assoc], ?_⟩
    refine List.forall_mem_append.mpr ⟨fun entry hentry => ?_, fun entry hentry => ?_⟩
    · obtain ⟨key, hkey, hnew, hmodule⟩ := hadded entry hentry
      exact ⟨key, (h'.registers key).mpr (.inl hkey), hnew, hmodule⟩
    · obtain ⟨key, hkey, hnew, hmodule⟩ := hadded' entry hentry
      exact ⟨key, hkey, fun hbefore => hnew ((h.registers key).mpr (.inl hbefore)), hmodule⟩
  reachable settings hbefore := h'.reachable settings (h.reachable settings hbefore)

theorem Reachable.add (h : Reachable settings manager)
    (hadd : manager.add symbol = (.ok name, after)) : Reachable settings after := by
  have hperformed := h.perform (.add symbol)
  rwa [ImportManager.perform, hadd] at hperformed

theorem Reachable.addModule (h : Reachable settings manager)
    (hadd : manager.addModule module = (.ok localName, after)) : Reachable settings after := by
  have hperformed := h.perform (.addModule module)
  rwa [ImportManager.perform, hadd] at hperformed

/-- At most one import came, and it is for the module. -/
theorem imports_ensureModule (manager : ImportManager) (module : String) :
    ∃ added, (manager.ensureModule module).2.imports = manager.imports ++ added ∧
      ∀ entry ∈ added, entry.module = module := by
  rw [ensureModule_eq]
  cases manager.aliasOf? module with
  | some localName => exact ⟨[], (List.append_nil _).symm, nofun⟩
  | none => exact ⟨_, rfl, List.forall_mem_singleton.mpr rfl⟩

theorem gains_of_known (h : manager.Registers symbol.key) : manager.Gains manager [symbol] where
  registers key := by
    rw [List.map_singleton, List.mem_singleton, or_iff_left_of_imp]
    rintro rfl
    exact h
  imports := ⟨[], (List.append_nil _).symm, nofun⟩
  reachable _ h := h

theorem gains_add (h : before.add symbol = (.ok name, after)) : before.Gains after [symbol] := by
  have hreachable := fun settings (hbefore : Reachable settings before) => hbefore.add h
  obtain ⟨hknown, rfl⟩ | ⟨hunknown, -, hchanged⟩ := add_eq_ok_cases h
  · exact gains_of_known ⟨name, hknown⟩
  · have hnew : ¬ before.Registers symbol.key := by
      rintro ⟨found, hfound⟩
      exact nomatch hunknown.symm.trans hfound
    obtain ⟨-, -, -, rfl⟩ | ⟨-, rfl⟩ := hchanged
    · refine ⟨fun key => ?_, ⟨[], (List.append_nil _).symm, nofun⟩, hreachable⟩
      rw [registers_withName_iff, List.map_singleton, List.mem_singleton]
      rfl
    · obtain ⟨added, himports, hadded⟩ := before.imports_ensureModule symbol.module
      refine ⟨fun key => ?_, ⟨added, himports, fun entry hentry => ?_⟩, hreachable⟩
      · rw [registers_withName_iff, List.map_singleton, List.mem_singleton]
        simp only [Registers, nameOfKey?_ensureModule]
      · refine ⟨symbol.key, (registers_withName_iff _ _ _).mpr (.inr rfl), hnew, ?_⟩
        exact (hadded entry hentry).symm

theorem registers_of_addModule (h : before.addModule module = (.ok localName, after))
    (key : SymbolKey) : after.Registers key ↔ before.Registers key := by
  obtain ⟨-, -, rfl⟩ := addModule_eq_ok_iff.mp h
  simp only [Registers, nameOfKey?_ensureModule]

theorem imports_of_addModule (h : before.addModule module = (.ok localName, after)) :
    ∃ added, after.imports = before.imports ++ added ∧ ∀ entry ∈ added, entry.module = module := by
  obtain ⟨-, -, rfl⟩ := addModule_eq_ok_iff.mp h
  exact before.imports_ensureModule module

/-! ## The import table after an operation -/

theorem imports_add (h : before.add symbol = (.ok name, after)) :
    after.imports = before.imports ∨
      after.imports = (before.ensureModule symbol.module).2.imports := by
  obtain ⟨-, rfl⟩ | ⟨-, -, ⟨-, -, -, rfl⟩ | ⟨-, rfl⟩⟩ := add_eq_ok_cases h
  · exact .inl rfl
  · exact .inl rfl
  · exact .inr rfl

/-- The table stays, or is what it is after a module was asked for. -/
theorem imports_perform (manager : ImportManager) (operation : Operation) :
    (manager.perform operation).imports = manager.imports ∨
      ∃ module, (manager.perform operation).imports = (manager.ensureModule module).2.imports := by
  obtain ⟨symbol, name, hadd⟩ | ⟨module, localName, hadd⟩ | ⟨name, hsame⟩ | hsame :=
    manager.perform_cases operation
  · exact (imports_add hadd).imp_right fun himports => ⟨symbol.module, himports⟩
  · obtain ⟨-, -, hafter⟩ := addModule_eq_ok_iff.mp hadd
    exact .inr ⟨module, congrArg imports hafter⟩
  · exact .inl (by rw [hsame]; rfl)
  · exact .inl (by rw [hsame])

/-! ## Names are for importable symbols -/

theorem isImportable_of_key_eq {first second : Symbol} (h : first.key = second.key) :
    first.isImportable = second.isImportable := by
  obtain ⟨hmodule, hqualname⟩ := SymbolKey.mk.inj h
  rw [Symbol.isImportable, Symbol.isImportable, hmodule, hqualname]

theorem isImportable_of_add (hnew : ¬ before.Registers symbol.key)
    (h : before.add symbol = (.ok name, after)) : symbol.isImportable := by
  obtain ⟨hknown, -⟩ | ⟨-, himportable, -⟩ := add_eq_ok_cases h
  · exact absurd ⟨name, hknown⟩ hnew
  · exact himportable

theorem Reachable.isImportable (h : Reachable settings manager)
    (hregisters : manager.Registers symbol.key) : symbol.isImportable := by
  induction h with
  | start =>
      obtain ⟨name, hname⟩ := hregisters
      simp [ofSettings, nameOfKey?] at hname
  | @perform manager operation _ ih =>
      by_cases hbefore : manager.Registers symbol.key
      · exact ih hbefore
      · obtain ⟨other, name, hadd⟩ | ⟨module, localName, hadd⟩ | ⟨name, hsame⟩ | hsame :=
          manager.perform_cases operation
        · obtain hregisters | hkey := ((gains_add hadd).registers _).mp hregisters
          · exact absurd hregisters hbefore
          · have hkey : symbol.key = other.key := List.mem_singleton.mp hkey
            rw [isImportable_of_key_eq hkey]
            exact isImportable_of_add (hkey ▸ hbefore) hadd
        · exact absurd ((registers_of_addModule hadd _).mp hregisters) hbefore
        all_goals
          rw [hsame] at hregisters
          exact absurd hregisters hbefore

theorem Reachable.exists_add_iff (h : Reachable settings manager) (symbol : Symbol) :
    (∃ name after, manager.add symbol = (.ok name, after)) ↔ symbol.isImportable := by
  constructor
  · rintro ⟨name, after, hadd⟩
    by_cases hknown : manager.Registers symbol.key
    · exact h.isImportable hknown
    · exact isImportable_of_add hknown hadd
  · intro himportable
    rcases hadd : manager.add symbol with ⟨error | name, after⟩
    · exact absurd himportable (add_eq_error_iff.mp hadd).2.1
    · exact ⟨name, after, rfl⟩

end ConfigLowering.ImportManager
