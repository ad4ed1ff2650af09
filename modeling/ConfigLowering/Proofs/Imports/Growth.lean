import ConfigLowering.Proofs.Imports.Decoding

/-!
# Names stay

A registered symbol keeps its name, whatever is registered after it. More generally
registering only extends a manager: imports are added behind those that there are, and what
is bound stays bound.
-/

namespace ConfigLowering.ImportManager

def Grows (before after : ImportManager) : Prop :=
  ∀ key name, before.nameOfKey? key = some name → after.nameOfKey? key = some name

theorem Grows.refl (manager : ImportManager) : manager.Grows manager := fun _ _ h => h

theorem Grows.trans {first second third : ImportManager} (h : first.Grows second)
    (h' : second.Grows third) : first.Grows third :=
  fun key name hname => h' key name (h key name hname)

variable {manager after : ImportManager}

@[simp] theorem nameOfKey?_ensureModule (module : String) (key : SymbolKey) :
    (manager.ensureModule module).2.nameOfKey? key = manager.nameOfKey? key := by
  rw [ensureModule_eq]
  cases manager.aliasOf? module <;> rfl

theorem nameOfKey?_withName (key other : SymbolKey) (name : String) :
    (manager.withName key name).nameOfKey? other =
      if key = other then some name else manager.nameOfKey? other := by
  simp only [nameOfKey?, withName, Std.ExtTreeMap.getElem?_insert,
    Std.LawfulEqOrd.compare_eq_iff_eq]

theorem grows_withName {key : SymbolKey} (hnew : manager.nameOfKey? key = none)
    (name : String) : manager.Grows (manager.withName key name) := by
  intro other found hfound
  rw [nameOfKey?_withName]
  split
  · next heq =>
      rw [heq, hfound] at hnew
      contradiction
  · exact hfound

/-! ## Extended managers -/

/-- The later manager has all that the earlier one has, and the imports in the same order. -/
structure ExtendedBy (before after : ImportManager) : Prop where
  aliases : after.aliases = before.aliases
  collision : after.collision = before.collision
  imports : before.imports <+: after.imports
  modules : ∀ module localName,
    before.aliasOf? module = some localName → after.aliasOf? module = some localName
  bound : ∀ name, before.space.contains name → after.space.contains name
  names : before.Grows after

namespace ExtendedBy

theorem refl (manager : ImportManager) : manager.ExtendedBy manager where
  aliases := rfl
  collision := rfl
  imports := List.prefix_rfl
  modules _ _ h := h
  bound _ h := h
  names := .refl manager

theorem trans {first second third : ImportManager} (h : first.ExtendedBy second)
    (h' : second.ExtendedBy third) : first.ExtendedBy third where
  aliases := h'.aliases.trans h.aliases
  collision := h'.collision.trans h.collision
  imports := h.imports.trans h'.imports
  modules module localName hfound := h'.modules module localName (h.modules module localName hfound)
  bound name hname := h'.bound name (h.bound name hname)
  names := h.names.trans h'.names

end ExtendedBy

theorem extendedBy_withBound (manager : ImportManager) (name : String) :
    manager.ExtendedBy (manager.withBound name) where
  aliases := rfl
  collision := rfl
  imports := List.prefix_rfl
  modules _ _ h := h
  bound other h := (contains_withBound manager name other).mpr (.inr h)
  names _ _ h := h

theorem extendedBy_withName {key : SymbolKey} (hnew : manager.nameOfKey? key = none)
    (name : String) : manager.ExtendedBy (manager.withName key name) where
  aliases := rfl
  collision := rfl
  imports := List.prefix_rfl
  modules _ _ h := h
  bound _ h := h
  names := grows_withName hnew name

theorem extendedBy_ensureModule (manager : ImportManager) (module : String) :
    manager.ExtendedBy (manager.ensureModule module).2 := by
  rw [ensureModule_eq]
  split
  · exact .refl manager
  · next hnew =>
      exact {
        aliases := rfl
        collision := rfl
        imports := List.prefix_append manager.imports _
        modules := fun other localName h => aliasOf?_withImport hnew h _
        bound := fun other h => (contains_withImport manager module _ other).mpr (.inr h)
        names := fun _ _ h => h }

theorem extendedBy_add {symbol : Symbol} {name : String}
    (h : manager.add symbol = (.ok name, after)) : manager.ExtendedBy after := by
  obtain ⟨-, rfl⟩ | ⟨hnew, -, ⟨-, -, -, rfl⟩ | ⟨-, rfl⟩⟩ := add_eq_ok_cases h
  · exact .refl _
  · exact (manager.extendedBy_withBound _).trans (extendedBy_withName (by exact hnew) _)
  · refine (manager.extendedBy_ensureModule symbol.module).trans (extendedBy_withName ?_ _)
    rwa [nameOfKey?_ensureModule]

theorem extendedBy_addModule {module localName : String}
    (h : manager.addModule module = (.ok localName, after)) : manager.ExtendedBy after := by
  obtain ⟨-, -, rfl⟩ := addModule_eq_ok_iff.mp h
  exact manager.extendedBy_ensureModule module

theorem grows_add {symbol : Symbol} {name : String}
    (h : manager.add symbol = (.ok name, after)) :
    manager.Grows after ∧ after.nameOf? symbol = some name := by
  refine ⟨(extendedBy_add h).names, ?_⟩
  obtain ⟨hknown, rfl⟩ | ⟨-, -, ⟨-, -, -, rfl⟩ | ⟨-, rfl⟩⟩ := add_eq_ok_cases h
  · exact hknown
  all_goals simp [nameOf?, nameOfKey?_withName]

end ConfigLowering.ImportManager
