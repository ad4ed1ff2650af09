import ConfigLowering.Proofs.Imports.Candidates
import ConfigLowering.Proofs.Imports.Table

/-!
# Orders of registration

Where no preferred alias is taken, reserved or the head of a bare name, every symbol gets the
name that the settings alone say, and what is imported, named and bound at the end is a matter
of which symbols were added, not of when.
-/

namespace ConfigLowering

open ImportManager (ofSettings)

/-! ## Names without collisions -/

namespace ImportSettings

/-- The name of a symbol whose module has its preferred alias. -/
def plainName (settings : ImportSettings) (key : SymbolKey) : String :=
  if key.module = Symbol.builtinsModule then key.qualname
  else settings.preferredAlias key.module ++ "." ++ key.qualname

/-- What the name of a symbol binds. -/
def plainHead (settings : ImportSettings) (key : SymbolKey) : String :=
  if key.module = Symbol.builtinsModule then firstSegment key.qualname
  else settings.preferredAlias key.module

/-- The symbols can be imported, and the preferred aliases of their modules are distinct, free
at the start, and no heads of builtins among the symbols. -/
structure KeepsApart (settings : ImportSettings) (symbols : List Symbol) : Prop where
  importable : ∀ symbol ∈ symbols, symbol.isImportable
  distinct : ∀ first ∈ symbols, ∀ second ∈ symbols, first.module ≠ Symbol.builtinsModule →
    second.module ≠ Symbol.builtinsModule →
    settings.preferredAlias first.module = settings.preferredAlias second.module →
      first.module = second.module
  free : ∀ symbol ∈ symbols, symbol.module ≠ Symbol.builtinsModule →
    ¬ (ofSettings settings).space.contains (settings.preferredAlias symbol.module)
  heads : ∀ symbol ∈ symbols, symbol.module ≠ Symbol.builtinsModule →
    ∀ builtin ∈ symbols, builtin.module = Symbol.builtinsModule →
      settings.preferredAlias symbol.module ≠ firstSegment builtin.qualname

end ImportSettings

namespace ImportManager

/-- What a manager holds, told by the symbols that were added to it. -/
structure Holds (settings : ImportSettings) (added : List SymbolKey) (manager : ImportManager) :
    Prop where
  configured : manager.ConfiguredBy settings
  indexed : manager.Indexed
  imports : ∀ entry, entry ∈ manager.imports ↔ ∃ key ∈ added,
    key.module ≠ Symbol.builtinsModule ∧
      entry = ⟨key.module, settings.preferredAlias key.module⟩
  names : ∀ key name, manager.nameOfKey? key = some name ↔
    key ∈ added ∧ settings.plainName key = name
  bound : ∀ name, manager.space.contains name ↔ (ofSettings settings).space.contains name ∨
    ∃ key ∈ added, settings.plainHead key = name

variable {settings : ImportSettings} {manager after : ImportManager} {symbol : Symbol}
  {symbols : List Symbol} {added more : List SymbolKey}

theorem holds_ofSettings (settings : ImportSettings) :
    Holds settings [] (ofSettings settings) where
  configured := configuredBy_ofSettings settings
  indexed := indexed_ofSettings settings
  imports := by simp [ofSettings]
  names := by simp [ofSettings, nameOfKey?]
  bound := by simp

theorem Holds.congr (h : Holds settings added manager) (hsame : ∀ key, key ∈ added ↔ key ∈ more) :
    Holds settings more manager where
  configured := h.configured
  indexed := h.indexed
  imports := by simpa only [hsame] using h.imports
  names := by simpa only [hsame] using h.names
  bound := by simpa only [hsame] using h.bound

/-- The manager after another symbol, if this imports, names and binds what is its own. -/
theorem Holds.extend (h : Holds settings added manager) {key : SymbolKey}
    (hconfigured : after.ConfiguredBy settings)
    (hindexed : after.Indexed)
    (himports : ∀ entry, entry ∈ after.imports ↔ entry ∈ manager.imports ∨
      key.module ≠ Symbol.builtinsModule ∧
        entry = ⟨key.module, settings.preferredAlias key.module⟩)
    (hnames : ∀ other, after.nameOfKey? other =
      if key = other then some (settings.plainName key) else manager.nameOfKey? other)
    (hbound : ∀ name, after.space.contains name ↔
      manager.space.contains name ∨ settings.plainHead key = name) :
    Holds settings (added ++ [key]) after where
  configured := hconfigured
  indexed := hindexed
  imports entry := by
    simp only [himports, h.imports, List.mem_append, List.mem_singleton, or_and_right, exists_or,
      exists_eq_left]
  names other name := by
    rw [hnames]
    split
    · next hsame => simp [hsame]
    · next hother => simp [h.names, Ne.symm hother]
  bound name := by
    simp only [hbound, h.bound, List.mem_append, List.mem_singleton, or_and_right, exists_or,
      exists_eq_left, or_assoc]

/-! ## Adding a symbol -/

/-- The preferred alias of a module is taken only by an import of this very module. -/
theorem Holds.not_contains_preferredAlias (h : Holds settings added manager)
    (hadded : added ⊆ symbols.map Symbol.key) (hapart : settings.KeepsApart symbols)
    (hsymbol : symbol ∈ symbols) (hmodule : symbol.module ≠ Symbol.builtinsModule)
    (hnew : manager.aliasOf? symbol.module = none) :
    ¬ manager.space.contains (settings.preferredAlias symbol.module) := by
  rw [h.bound]
  rintro (hbound | ⟨key, hkey, hhead⟩)
  · exact hapart.free symbol hsymbol hmodule hbound
  · obtain ⟨other, hother, rfl⟩ := List.mem_map.mp (hadded hkey)
    by_cases hbuiltin : other.key.module = Symbol.builtinsModule
    · rw [ImportSettings.plainHead, if_pos hbuiltin] at hhead
      exact hapart.heads symbol hsymbol hmodule other hother hbuiltin hhead.symm
    · rw [ImportSettings.plainHead, if_neg hbuiltin] at hhead
      have hsame := hapart.distinct other hother symbol hsymbol hbuiltin hmodule hhead
      have hentry := (h.imports _).mpr ⟨other.key, hkey, hbuiltin, rfl⟩
      rw [h.indexed.aliasOf?_eq_none_iff, ← hsame] at hnew
      exact hnew (List.mem_map_of_mem hentry)

/-- A module gets its preferred alias, at the first time and at every later one. -/
theorem Holds.ensureModule (h : Holds settings added manager)
    (hadded : added ⊆ symbols.map Symbol.key) (hapart : settings.KeepsApart symbols)
    (hsymbol : symbol ∈ symbols) (hmodule : symbol.module ≠ Symbol.builtinsModule) :
    (manager.ensureModule symbol.module).1 = settings.preferredAlias symbol.module ∧
      (∀ entry, entry ∈ (manager.ensureModule symbol.module).2.imports ↔
        entry ∈ manager.imports ∨
          entry = ⟨symbol.module, settings.preferredAlias symbol.module⟩) ∧
      ∀ name, (manager.ensureModule symbol.module).2.space.contains name ↔
        manager.space.contains name ∨ settings.preferredAlias symbol.module = name := by
  rw [ensureModule_eq]
  cases halias : manager.aliasOf? symbol.module with
  | some localName =>
      have hentry := (h.indexed.aliasOf?_eq_some_iff_mem _ _).mp halias
      obtain ⟨key, hkey, hbuiltin, hsame⟩ := (h.imports _).mp hentry
      obtain ⟨hkeyModule, rfl⟩ := Import.mk.inj hsame
      have hbound : manager.space.contains (settings.preferredAlias key.module) :=
        (h.bound _).mpr (.inr ⟨key, hkey, if_neg hbuiltin⟩)
      rw [hkeyModule] at hentry ⊢
      refine ⟨rfl, fun entry => ?_, fun name => ?_⟩
      · exact (or_iff_left_of_imp fun hown => hown ▸ hentry).symm
      · exact (or_iff_left_of_imp fun hname => hname ▸ hbound).symm
  | none =>
      have hfree := h.not_contains_preferredAlias hadded hapart hsymbol hmodule halias
      have hchosen : manager.chooseAlias symbol.module =
          settings.preferredAlias symbol.module := by
        simp [chooseAlias, plainCandidates, h.configured.preferredAlias_eq, hfree]
      rw [hchosen]
      refine ⟨rfl, fun entry => mem_imports_withImport manager _ _ entry, fun name => ?_⟩
      rw [contains_withImport, or_comm, eq_comm (b := name)]

theorem Holds.not_isAlias (h : Holds settings added manager)
    (hadded : added ⊆ symbols.map Symbol.key) (hapart : settings.KeepsApart symbols)
    (hsymbol : symbol ∈ symbols) (hmodule : symbol.module = Symbol.builtinsModule) :
    ¬ manager.isAlias (firstSegment symbol.qualname) := by
  rw [isAlias_iff]
  rintro ⟨entry, hentry, hhead⟩
  obtain ⟨key, hkey, hbuiltin, rfl⟩ := (h.imports entry).mp hentry
  obtain ⟨other, hother, rfl⟩ := List.mem_map.mp (hadded hkey)
  exact hapart.heads other hother hbuiltin symbol hsymbol hmodule hhead

theorem Holds.add_builtin (h : Holds settings added manager)
    (hmodule : symbol.module = Symbol.builtinsModule) :
    Holds settings (added ++ [symbol.key])
      ((manager.withBound (firstSegment symbol.qualname)).withName symbol.key
        (settings.plainName symbol.key)) := by
  refine h.extend ⟨h.configured.aliases, h.configured.collision⟩ (h.indexed.congr rfl rfl)
    (fun entry => ?_) (nameOfKey?_withName symbol.key · _) fun name => ?_
  · exact (or_iff_left_of_imp fun hown => absurd hmodule hown.1).symm
  · rw [ImportSettings.plainHead, if_pos (by exact hmodule), or_comm, eq_comm (b := name)]
    exact contains_withBound manager _ name

theorem Holds.add_aliased (h : Holds settings added manager)
    (hadded : added ⊆ symbols.map Symbol.key) (hapart : settings.KeepsApart symbols)
    (hsymbol : symbol ∈ symbols) (hmodule : symbol.module ≠ Symbol.builtinsModule) :
    Holds settings (added ++ [symbol.key])
      ((manager.ensureModule symbol.module).2.withName symbol.key
        (settings.plainName symbol.key)) := by
  obtain ⟨-, himports, hbound⟩ := h.ensureModule hadded hapart hsymbol hmodule
  have hconfigured := h.configured.extended (manager.extendedBy_ensureModule symbol.module)
  refine h.extend ⟨hconfigured.aliases, hconfigured.collision⟩
    ((h.indexed.ensureModule symbol.module).congr rfl rfl) (fun entry => ?_) (fun other => ?_)
    fun name => ?_
  · rw [and_iff_right (by exact hmodule)]
    exact himports entry
  · rw [nameOfKey?_withName, nameOfKey?_ensureModule]
  · rw [ImportSettings.plainHead, if_neg (by exact hmodule)]
    exact hbound name

/-- Each symbol gets the name that the settings say, in whatever order the symbols come. -/
theorem Holds.add (h : Holds settings added manager)
    (hadded : added ⊆ symbols.map Symbol.key) (hapart : settings.KeepsApart symbols)
    (hsymbol : symbol ∈ symbols) :
    ∃ after, manager.add symbol = (.ok (settings.plainName symbol.key), after) ∧
      Holds settings (added ++ [symbol.key]) after := by
  cases hknown : manager.nameOf? symbol with
  | some name =>
      obtain ⟨hkey, rfl⟩ := (h.names _ _).mp hknown
      refine ⟨manager, add_of_nameOf? hknown, h.congr fun key => ?_⟩
      rw [List.mem_append, List.mem_singleton]
      exact (or_iff_left_of_imp fun hsame => hsame ▸ hkey).symm
  | none =>
      rw [add_eq, hknown, if_pos (hapart.importable symbol hsymbol)]
      by_cases hmodule : symbol.module = Symbol.builtinsModule
      · have hname : settings.plainName symbol.key = symbol.qualname := if_pos hmodule
        have hfree := h.not_isAlias hadded hapart hsymbol hmodule
        have hafter := h.add_builtin hmodule
        rw [hname] at hafter ⊢
        rw [if_pos (by simp [Symbol.isBuiltin, hmodule, hfree])]
        exact ⟨_, rfl, hafter⟩
      · have hname : settings.plainName symbol.key =
            settings.preferredAlias symbol.module ++ "." ++ symbol.qualname := if_neg hmodule
        obtain ⟨halias, -⟩ := h.ensureModule hadded hapart hsymbol hmodule
        have hafter := h.add_aliased hadded hapart hsymbol hmodule
        rw [hname] at hafter ⊢
        rw [if_neg (by simp [Symbol.isBuiltin, hmodule]), halias]
        exact ⟨_, rfl, hafter⟩

/-! ## Adding symbols one after another -/

/-- Adds symbols in their order and gives their names, or the first error. -/
def addEach (manager : ImportManager) :
    List Symbol → Except ImportError (List String × ImportManager)
  | [] => .ok ([], manager)
  | symbol :: symbols =>
      match manager.add symbol with
      | (.error error, _) => .error error
      | (.ok name, manager) =>
          (manager.addEach symbols).map fun (names, manager) => (name :: names, manager)

theorem Holds.addEach (h : Holds settings added manager)
    (hadded : added ⊆ symbols.map Symbol.key) (hapart : settings.KeepsApart symbols)
    {order : List Symbol} (horder : order ⊆ symbols) :
    ∃ after, manager.addEach order =
        .ok (order.map fun symbol => settings.plainName symbol.key, after) ∧
      Holds settings (added ++ order.map Symbol.key) after := by
  induction order generalizing added manager with
  | nil => exact ⟨manager, rfl, by simpa using h⟩
  | cons symbol order ih =>
      obtain ⟨hsymbol, horder⟩ := List.cons_subset.mp horder
      obtain ⟨between, hadd, hbetween⟩ := h.add hadded hapart hsymbol
      have hadded' : added ++ [symbol.key] ⊆ symbols.map Symbol.key := by
        refine List.append_subset.mpr ⟨hadded, ?_⟩
        simpa using ⟨symbol, hsymbol, rfl⟩
      obtain ⟨after, hrest, hafter⟩ := ih hbetween hadded' horder
      refine ⟨after, ?_, by simpa using hafter⟩
      rw [ImportManager.addEach, hadd]
      simp only [hrest, Except.map, List.map_cons]

/-! ## What does not depend on the order -/

theorem Holds.perm_imports (h : Holds settings added manager) (h' : Holds settings added after) :
    manager.imports.Perm after.imports := by
  refine (List.perm_ext_iff_of_nodup (.of_map _ h.indexed.nodup_modules)
    (.of_map _ h'.indexed.nodup_modules)).mpr ?_
  exact fun entry => (h.imports entry).trans (h'.imports entry).symm

theorem Holds.names_eq (h : Holds settings added manager) (h' : Holds settings added after) :
    manager.names = after.names := by
  refine Std.ExtTreeMap.ext_getElem? fun key => Option.ext fun name => ?_
  exact (h.names key name).trans (h'.names key name).symm

theorem Holds.space_eq (h : Holds settings added manager) (h' : Holds settings added after) :
    manager.space = after.space := by
  have hbound : manager.space.bound = after.space.bound := by
    refine Std.ExtTreeSet.ext_contains fun name => Bool.eq_iff_iff.mpr ?_
    exact (h.bound name).trans (h'.bound name).symm
  cases hspace : manager.space
  cases hspace' : after.space
  rw [hspace, hspace'] at hbound
  exact congrArg Namespace.mk hbound

/-- Symbols whose names cannot collide get the same names in every order, each the bare name of
a builtin or the name below the preferred alias of its module. At the end the same modules are
imported under the same aliases, the same symbols are named, and the same names are bound. -/
theorem order_of_adding_is_free (h : settings.KeepsApart symbols) {first second : List Symbol}
    (hfirst : first.Perm symbols) (hsecond : second.Perm symbols) :
    ∃ after after',
      (ofSettings settings).addEach first =
        .ok (first.map fun symbol => settings.plainName symbol.key, after) ∧
      (ofSettings settings).addEach second =
        .ok (second.map fun symbol => settings.plainName symbol.key, after') ∧
      after.imports.Perm after'.imports ∧ after.names = after'.names ∧
      after.space = after'.space := by
  have hstart := holds_ofSettings settings
  obtain ⟨after, hadded, hafter⟩ := hstart.addEach (List.nil_subset _) h hfirst.subset
  obtain ⟨after', hadded', hafter'⟩ := hstart.addEach (List.nil_subset _) h hsecond.subset
  have hafter : Holds settings (symbols.map Symbol.key) after :=
    hafter.congr fun _ => (hfirst.map Symbol.key).mem_iff
  have hafter' : Holds settings (symbols.map Symbol.key) after' :=
    hafter'.congr fun _ => (hsecond.map Symbol.key).mem_iff
  exact ⟨after, after', hadded, hadded', hafter.perm_imports hafter', hafter.names_eq hafter',
    hafter.space_eq hafter'⟩

/-- One alias of these settings is no identifier, so the last segment stands in its place. -/
def peacefulSettings : ImportSettings where
  baseModule := "fiddle"
  aliases := Std.ExtTreeMap.ofList [("models.layers", "3d!"), ("numpy", "np")]
  collision := .qualify
  reservedNames := ["numpy", "models_layers"]

/-- Two symbols of one module, one symbol under two kinds, and builtins whose heads are free or
reserved. -/
def peacefulSymbols : List Symbol := [
  .classType "models.layers" "Encoder", .builtin "dict.fromkeys", .function "numpy" "zeros",
  .object "models.layers" "Encoder", .enumMember "models.layers" "Mode" "TRAIN",
  .builtin "zip"]

theorem order_of_adding_is_free_peaceful :
    peacefulSettings.KeepsApart peacefulSymbols ∧
      peacefulSymbols.reverse.Perm peacefulSymbols ∧
      ∃ after after',
        (ofSettings peacefulSettings).addEach peacefulSymbols =
          .ok (["layers.Encoder", "dict.fromkeys", "np.zeros", "layers.Encoder",
            "layers.Mode.TRAIN", "zip"], after) ∧
        (ofSettings peacefulSettings).addEach peacefulSymbols.reverse =
          .ok (["zip", "layers.Mode.TRAIN", "layers.Encoder", "np.zeros", "dict.fromkeys",
            "layers.Encoder"], after') ∧
        after.imports.Perm after'.imports ∧ after.names = after'.names := by
  have hapart : peacefulSettings.KeepsApart peacefulSymbols := by
    constructor <;> decide +kernel
  have hreversed := List.reverse_perm peacefulSymbols
  obtain ⟨after, after', hadded, hadded', himports, hnames, -⟩ :=
    order_of_adding_is_free hapart (.refl _) hreversed
  have hplain : (peacefulSymbols.map fun symbol => peacefulSettings.plainName symbol.key) =
      ["layers.Encoder", "dict.fromkeys", "np.zeros", "layers.Encoder", "layers.Mode.TRAIN",
        "zip"] := by decide +kernel
  rw [hplain] at hadded
  rw [List.map_reverse, hplain] at hadded'
  exact ⟨hapart, hreversed, after, after', hadded, hadded', himports, hnames⟩

end ImportManager

end ConfigLowering
