import Mathlib.Data.List.Nodup
import ConfigLowering.Imports

/-!
# The index of the imports

A module is looked up by the place that the index has for it. The index has a place for a module
exactly when an import of this module stands there, so the list holds no module twice and the
index misses none.
-/

namespace ConfigLowering.ImportManager

/-- The manager with one more import, behind the others. -/
def withImport (manager : ImportManager) (module localName : String) : ImportManager :=
  { manager with
    space := (manager.space.add localName).2
    positions := manager.positions.insert module manager.imports.length
    imports := manager.imports ++ [⟨module, localName⟩] }

theorem ensureModule_eq (manager : ImportManager) (module : String) :
    manager.ensureModule module =
      match manager.aliasOf? module with
      | some localName => (localName, manager)
      | none => (manager.chooseAlias module,
          manager.withImport module (manager.chooseAlias module)) := rfl

variable {manager after : ImportManager} {module other localName : String}

/-! ## Looking up -/

theorem aliasOf?_eq_some_iff :
    manager.aliasOf? module = some localName ↔ ∃ position entry,
      manager.positions[module]? = some position ∧ manager.imports[position]? = some entry ∧
        entry.localName = localName := by
  simp [aliasOf?, Option.bind_eq_some_iff]

theorem positions_withImport (manager : ImportManager) (module localName other : String) :
    (manager.withImport module localName).positions[other]? =
      if module = other then some manager.imports.length else manager.positions[other]? := by
  simp only [withImport, Std.ExtTreeMap.getElem?_insert, Std.LawfulEqOrd.compare_eq_iff_eq]

theorem getElem?_imports_withImport (manager : ImportManager) (module localName : String)
    (position : Nat) (entry : Import) :
    (manager.withImport module localName).imports[position]? = some entry ↔
      manager.imports[position]? = some entry ∨
        position = manager.imports.length ∧ ⟨module, localName⟩ = entry := by
  rw [withImport, List.getElem?_append]
  split
  · next hlt =>
      have hbefore : ¬ (position = manager.imports.length ∧ ⟨module, localName⟩ = entry) :=
        fun hlast => Nat.ne_of_lt hlt hlast.1
      rw [or_iff_left hbefore]
  · next hge =>
      have hnone : manager.imports[position]? = none := by simpa using hge
      rw [hnone, List.getElem?_singleton]
      grind

/-- An import of another module does not hide what is found. -/
theorem aliasOf?_withImport (hnew : manager.aliasOf? module = none)
    (h : manager.aliasOf? other = some localName) (added : String) :
    (manager.withImport module added).aliasOf? other = some localName := by
  have hother : module ≠ other := by
    rintro rfl
    exact nomatch hnew.symm.trans h
  obtain ⟨position, entry, hposition, hentry, hname⟩ := aliasOf?_eq_some_iff.mp h
  refine aliasOf?_eq_some_iff.mpr ⟨position, entry, ?_, ?_, hname⟩
  · rw [positions_withImport, if_neg hother, hposition]
  · exact (getElem?_imports_withImport ..).mpr (.inl hentry)

/-! ## The invariant -/

def Indexed (manager : ImportManager) : Prop :=
  ∀ module position, manager.positions[module]? = some position ↔
    ∃ entry : Import, manager.imports[position]? = some entry ∧ entry.module = module

theorem indexed_ofSettings (settings : ImportSettings) : (ofSettings settings).Indexed := by
  simp [Indexed, ofSettings]

namespace Indexed

theorem aliasOf?_eq_some_iff_mem (h : manager.Indexed) (module localName : String) :
    manager.aliasOf? module = some localName ↔
      (⟨module, localName⟩ : Import) ∈ manager.imports := by
  rw [aliasOf?_eq_some_iff, List.mem_iff_getElem?]
  constructor
  · rintro ⟨position, entry, hposition, hentry, rfl⟩
    obtain ⟨found, hfound, rfl⟩ := (h module position).mp hposition
    obtain rfl := Option.some.inj (hentry.symm.trans hfound)
    exact ⟨position, hentry⟩
  · rintro ⟨position, hentry⟩
    exact ⟨position, _, (h module position).mpr ⟨_, hentry, rfl⟩, hentry, rfl⟩

theorem aliasOf?_eq_none_iff (h : manager.Indexed) (module : String) :
    manager.aliasOf? module = none ↔ module ∉ manager.imports.map Import.module := by
  rw [Option.eq_none_iff_forall_ne_some]
  simp only [Ne, h.aliasOf?_eq_some_iff_mem, List.mem_map, not_exists, not_and]
  constructor
  · rintro hnone ⟨_, localName⟩ hentry rfl
    exact hnone localName hentry
  · exact fun hnone localName hentry => hnone _ hentry rfl

/-- Two imports of one module would stand at the same place. -/
theorem nodup_modules (h : manager.Indexed) : (manager.imports.map Import.module).Nodup := by
  rw [List.Nodup, List.pairwise_map, List.pairwise_iff_getElem]
  intro first second hfirst hsecond hlt hsame
  have hplace := (h _ first).mpr ⟨_, List.getElem?_eq_getElem hfirst, hsame⟩
  have hother := (h _ second).mpr ⟨_, List.getElem?_eq_getElem hsecond, rfl⟩
  exact Nat.ne_of_lt hlt (Option.some.inj (hplace.symm.trans hother))

theorem congr (h : manager.Indexed) (hpositions : after.positions = manager.positions)
    (himports : after.imports = manager.imports) : after.Indexed := by
  rwa [Indexed, hpositions, himports]

theorem withImport (h : manager.Indexed) (hnew : manager.aliasOf? module = none)
    (localName : String) : (manager.withImport module localName).Indexed := by
  have hnone := (h.aliasOf?_eq_none_iff module).mp hnew
  intro other position
  simp only [positions_withImport, getElem?_imports_withImport]
  split
  · next hother =>
      constructor
      · intro hlast
        exact ⟨_, .inr ⟨(Option.some.inj hlast).symm, rfl⟩, hother⟩
      · rintro ⟨entry, hentry | ⟨hlast, -⟩, hmodule⟩
        · rw [hother, ← hmodule] at hnone
          exact absurd (List.mem_map_of_mem (List.mem_of_getElem? hentry)) hnone
        · rw [hlast]
  · next hother =>
      rw [h other position]
      constructor
      · rintro ⟨entry, hentry, hmodule⟩
        exact ⟨entry, .inl hentry, hmodule⟩
      · rintro ⟨entry, hentry | ⟨-, rfl⟩, hmodule⟩
        · exact ⟨entry, hentry, hmodule⟩
        · exact absurd hmodule hother

theorem ensureModule (h : manager.Indexed) (module : String) :
    (manager.ensureModule module).2.Indexed := by
  rw [ensureModule_eq]
  cases hnew : manager.aliasOf? module with
  | some localName => exact h
  | none => exact h.withImport hnew _

/-- A module that was asked for is imported under the alias that was given. -/
theorem mem_imports_ensureModule (h : manager.Indexed) (module : String) :
    (⟨module, (manager.ensureModule module).1⟩ : Import) ∈
      (manager.ensureModule module).2.imports := by
  rw [ensureModule_eq]
  cases halias : manager.aliasOf? module with
  | some localName => exact (h.aliasOf?_eq_some_iff_mem module localName).mp halias
  | none => exact List.mem_append_right _ List.mem_cons_self

end Indexed

end ConfigLowering.ImportManager
