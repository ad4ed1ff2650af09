import ConfigLowering.Proofs.Imports.Aliases
import ConfigLowering.Proofs.Imports.Index

/-!
# Names decode to symbols

A registered name says which symbol it is for: the import whose alias stands before
its first dot gives the module, and what follows is the qualified name. A name whose
head is no alias is a builtin's. A bare builtin name stays safe because its head is
bound, so that no later alias takes it.
-/

namespace ConfigLowering.ImportManager

/-! ## Parts of operations -/

def withBound (manager : ImportManager) (name : String) : ImportManager :=
  { manager with space := (manager.space.add name).2 }

def withName (manager : ImportManager) (key : SymbolKey) (name : String) : ImportManager :=
  { manager with names := manager.names.insert key name }

theorem isAlias_iff (manager : ImportManager) (name : String) :
    manager.isAlias name ↔ ∃ entry ∈ manager.imports, entry.localName = name := by
  simp [isAlias]

@[simp] theorem contains_withBound (manager : ImportManager) (name other : String) :
    (manager.withBound name).space.contains other ↔
      other = name ∨ manager.space.contains other :=
  manager.space.contains_add_iff name other

@[simp] theorem contains_withImport (manager : ImportManager)
    (module localName other : String) :
    (manager.withImport module localName).space.contains other ↔
      other = localName ∨ manager.space.contains other :=
  manager.space.contains_add_iff localName other

@[simp] theorem mem_imports_withImport (manager : ImportManager)
    (module localName : String) (entry : Import) :
    entry ∈ (manager.withImport module localName).imports ↔
      entry ∈ manager.imports ∨ entry = ⟨module, localName⟩ := by
  simp [withImport]

@[simp] theorem isAlias_withImport (manager : ImportManager)
    (module localName name : String) :
    (manager.withImport module localName).isAlias name ↔
      manager.isAlias name ∨ localName = name := by
  simp [isAlias, withImport]

theorem add_eq (manager : ImportManager) (symbol : Symbol) :
    manager.add symbol =
      match manager.nameOf? symbol with
      | some name => (.ok name, manager)
      | none =>
          if symbol.isImportable then
            if symbol.isBuiltin && !manager.isAlias (firstSegment symbol.qualname) then
              (.ok symbol.qualname, (manager.withBound (firstSegment symbol.qualname)).withName
                symbol.key symbol.qualname)
            else
              (.ok ((manager.ensureModule symbol.module).1 ++ "." ++ symbol.qualname),
                (manager.ensureModule symbol.module).2.withName symbol.key
                  ((manager.ensureModule symbol.module).1 ++ "." ++ symbol.qualname))
          else (.error (.unresolvable symbol), manager) := by
  rw [add]
  cases manager.nameOf? symbol with
  | some name => rfl
  | none =>
      cases symbol.isImportable with
      | false => rfl
      | true =>
          cases hbare : symbol.isBuiltin && !manager.isAlias (firstSegment symbol.qualname) <;>
            simp [hbare, withBound, withName]

variable {manager after : ImportManager} {symbol : Symbol} {name module localName : String}

/-- A symbol has its name already, or it goes by its bare name from now on, or by one below the
alias of its module. -/
theorem add_eq_ok_cases (h : manager.add symbol = (.ok name, after)) :
    manager.nameOf? symbol = some name ∧ after = manager ∨
      manager.nameOf? symbol = none ∧ symbol.isImportable ∧
        (symbol.isBuiltin ∧ ¬ manager.isAlias (firstSegment symbol.qualname) ∧
            name = symbol.qualname ∧
            after = (manager.withBound (firstSegment symbol.qualname)).withName symbol.key name ∨
          name = (manager.ensureModule symbol.module).1 ++ "." ++ symbol.qualname ∧
            after = (manager.ensureModule symbol.module).2.withName symbol.key name) := by
  rw [add_eq] at h
  cases hknown : manager.nameOf? symbol with
  | some known =>
      rw [hknown] at h
      obtain ⟨hname, rfl⟩ := Prod.mk.inj h
      exact .inl ⟨congrArg some (Except.ok.inj hname), rfl⟩
  | none =>
      simp only [hknown] at h
      split at h
      · next himportable =>
          refine .inr ⟨rfl, himportable, ?_⟩
          split at h
          all_goals
            obtain ⟨hname, rfl⟩ := Prod.mk.inj h
            obtain rfl := Except.ok.inj hname
          · next hbare =>
              obtain ⟨hbuiltin, hfree⟩ := Bool.and_eq_true_iff.mp hbare
              exact .inl ⟨hbuiltin, by simpa using hfree, rfl, rfl⟩
          · exact .inr ⟨rfl, rfl⟩
      · cases h

theorem add_eq_error_iff {error : ImportError} :
    manager.add symbol = (.error error, after) ↔
      manager.nameOf? symbol = none ∧ ¬ symbol.isImportable ∧ error = .unresolvable symbol ∧
        after = manager := by
  rw [add_eq]
  cases manager.nameOf? symbol with
  | some known => simp
  | none =>
      simp only [true_and]
      split
      · next himportable =>
          split <;> simp [himportable]
      · next hrefused => simp [hrefused, eq_comm]

theorem addModule_eq_ok_iff :
    manager.addModule module = (.ok localName, after) ↔
      isDottedPath module ∧ localName = (manager.ensureModule module).1 ∧
        after = (manager.ensureModule module).2 := by
  rw [addModule]
  split
  · next hmodule => simp [hmodule, eq_comm]
  · next hmodule => simp [hmodule]

theorem addModule_eq_error_iff {error : ImportError} :
    manager.addModule module = (.error error, after) ↔
      ¬ isDottedPath module ∧ error = .invalidModulePath module ∧ after = manager := by
  rw [addModule]
  split
  · next hmodule => simp [hmodule]
  · next hmodule => simp [hmodule, eq_comm]

/-! ## Reachable managers -/

/-- What the passes do with imports, and the bindings that naming passes add. -/
inductive Operation where
  | add (symbol : Symbol)
  | addModule (module : String)
  | bind (name : String)
  | bindFresh (base : String)

/-- The manager that an operation leaves, whether it fails or not. -/
def perform (manager : ImportManager) : Operation → ImportManager
  | .add symbol => (manager.add symbol).2
  | .addModule module => (manager.addModule module).2
  | .bind name => { manager with space := (manager.space.add name).2 }
  | .bindFresh base => { manager with space := (manager.space.bindFresh base).2 }

inductive Reachable (settings : ImportSettings) : ImportManager → Prop
  | start : Reachable settings (ofSettings settings)
  | perform {manager : ImportManager} (operation : Operation) :
      Reachable settings manager → Reachable settings (manager.perform operation)

/-- An operation registers a symbol, imports a module, binds a name or does nothing. -/
theorem perform_cases (manager : ImportManager) (operation : Operation) :
    (∃ symbol name, manager.add symbol = (.ok name, manager.perform operation)) ∨
      (∃ module localName,
        manager.addModule module = (.ok localName, manager.perform operation)) ∨
      (∃ name, manager.perform operation = manager.withBound name) ∨
      manager.perform operation = manager := by
  cases operation with
  | add symbol =>
      rw [perform]
      rcases hadd : manager.add symbol with ⟨error | name, after⟩
      · exact .inr (.inr (.inr (add_eq_error_iff.mp hadd).2.2.2))
      · exact .inl ⟨symbol, name, hadd⟩
  | addModule module =>
      rw [perform]
      rcases hadd : manager.addModule module with ⟨error | localName, after⟩
      · exact .inr (.inr (.inr (addModule_eq_error_iff.mp hadd).2.2))
      · exact .inr (.inl ⟨module, localName, hadd⟩)
  | bind name => exact .inr (.inr (.inl ⟨name, rfl⟩))
  | bindFresh base => exact .inr (.inr (.inl ⟨_, rfl⟩))

/-! ## The invariant -/

/-- A builtin's bare name whose head is bound and no alias. -/
def BareName (manager : ImportManager) (key : SymbolKey) (name : String) : Prop :=
  key.module = Symbol.builtinsModule ∧ name = key.qualname ∧
    manager.space.contains (firstSegment name) ∧ ¬ manager.isAlias (firstSegment name)

/-- The qualified name below the alias of its module. -/
def AliasedName (manager : ImportManager) (key : SymbolKey) (name : String) : Prop :=
  ∃ entry ∈ manager.imports, entry.module = key.module ∧
    name = entry.localName ++ "." ++ key.qualname

structure WellFormed (manager : ImportManager) : Prop where
  valid_aliases : manager.HasValidAliases
  indexed : manager.Indexed
  identifiers : ∀ entry ∈ manager.imports, isIdentifier entry.localName
  bound : ∀ entry ∈ manager.imports, manager.space.contains entry.localName
  distinct : (manager.imports.map Import.localName).Nodup
  names : ∀ key name, manager.nameOfKey? key = some name →
    manager.BareName key name ∨ manager.AliasedName key name

theorem wellFormed_ofSettings (settings : ImportSettings) :
    (ofSettings settings).WellFormed where
  valid_aliases := hasValidAliases_ofSettings settings
  indexed := indexed_ofSettings settings
  identifiers := by simp [ofSettings]
  bound := by simp [ofSettings]
  distinct := by simp [ofSettings]
  names := by simp [ofSettings, nameOfKey?]

theorem WellFormed.withBound (h : manager.WellFormed) (name : String) :
    (manager.withBound name).WellFormed where
  valid_aliases := h.valid_aliases
  indexed := h.indexed
  identifiers := h.identifiers
  bound := fun entry hentry => (contains_withBound _ _ _).mpr (.inr (h.bound entry hentry))
  distinct := h.distinct
  names := by
    intro key other hname
    obtain ⟨hmodule, hother, hbound, hfree⟩ | haliased := h.names key other hname
    · exact .inl ⟨hmodule, hother, (contains_withBound _ _ _).mpr (.inr hbound), hfree⟩
    · exact .inr haliased

theorem WellFormed.withImport (h : manager.WellFormed) (hnew : manager.aliasOf? module = none)
    (hidentifier : isIdentifier localName) (hfree : ¬ manager.space.contains localName) :
    (manager.withImport module localName).WellFormed where
  valid_aliases := h.valid_aliases
  indexed := h.indexed.withImport hnew localName
  identifiers := by
    intro entry hentry
    obtain hentry | rfl := (mem_imports_withImport _ _ _ _).mp hentry
    · exact h.identifiers entry hentry
    · exact hidentifier
  bound := by
    intro entry hentry
    rw [contains_withImport]
    obtain hentry | rfl := (mem_imports_withImport _ _ _ _).mp hentry
    · exact .inr (h.bound entry hentry)
    · exact .inl rfl
  distinct := by
    have hnew : localName ∉ manager.imports.map Import.localName := by
      rw [List.mem_map]
      rintro ⟨entry, hentry, heq⟩
      exact hfree (heq ▸ h.bound entry hentry)
    simpa [ImportManager.withImport, List.nodup_append] using
      ⟨h.distinct, fun entry hentry heq => hnew (List.mem_map.mpr ⟨entry, hentry, heq⟩)⟩
  names := by
    intro key name hname
    obtain ⟨hmodule, hqualname, hbound, halias⟩ | ⟨entry, hentry, haliased⟩ :=
      h.names key name hname
    · refine .inl ⟨hmodule, hqualname, (contains_withImport _ _ _ _).mpr (.inr hbound), ?_⟩
      -- The head of a bare name is bound, and the new alias was not.
      rw [isAlias_withImport]
      rintro (hhead | rfl)
      · exact halias hhead
      · exact hfree hbound
    · exact .inr ⟨entry, (mem_imports_withImport _ _ _ _).mpr (.inl hentry), haliased⟩

theorem WellFormed.withName (h : manager.WellFormed) {key : SymbolKey}
    (hname : manager.BareName key name ∨ manager.AliasedName key name) :
    (manager.withName key name).WellFormed where
  valid_aliases := h.valid_aliases
  indexed := h.indexed
  identifiers := h.identifiers
  bound := h.bound
  distinct := h.distinct
  names := by
    intro other found hfound
    rw [nameOfKey?, ImportManager.withName, Std.ExtTreeMap.getElem?_insert] at hfound
    split at hfound
    · next heq =>
        rw [← Std.LawfulEqOrd.eq_of_compare heq, ← Option.some.inj hfound]
        exact hname
    · exact h.names other found hfound

/-! ## Operations keep the invariant -/

theorem WellFormed.ensureModule (h : manager.WellFormed) (hmodule : isDottedPath module) :
    (manager.ensureModule module).2.WellFormed := by
  rw [ensureModule_eq]
  split
  · exact h
  · next hnew =>
      exact h.withImport hnew (h.valid_aliases.isIdentifier_chooseAlias hmodule)
        (manager.not_contains_chooseAlias module)

theorem isDottedPath_module (h : symbol.isImportable) : isDottedPath symbol.module := by
  simp only [Symbol.isImportable, Bool.and_eq_true] at h
  exact h.1.2

theorem WellFormed.add (h : manager.WellFormed) (hadd : manager.add symbol = (.ok name, after)) :
    after.WellFormed := by
  obtain ⟨-, rfl⟩ | ⟨-, himportable, ⟨hbuiltin, hfree, rfl, rfl⟩ | ⟨rfl, rfl⟩⟩ :=
    add_eq_ok_cases hadd
  · exact h
  · refine (h.withBound _).withName (.inl ⟨beq_iff_eq.mp hbuiltin, rfl, ?_, hfree⟩)
    exact (contains_withBound _ _ _).mpr (.inl rfl)
  · exact (h.ensureModule (isDottedPath_module himportable)).withName
      (.inr ⟨_, h.indexed.mem_imports_ensureModule symbol.module, rfl, rfl⟩)

theorem WellFormed.addModule (h : manager.WellFormed)
    (hadd : manager.addModule module = (.ok localName, after)) : after.WellFormed := by
  obtain ⟨hmodule, -, rfl⟩ := addModule_eq_ok_iff.mp hadd
  exact h.ensureModule hmodule

theorem WellFormed.perform (h : manager.WellFormed) (operation : Operation) :
    (manager.perform operation).WellFormed := by
  obtain ⟨symbol, name, hadd⟩ | ⟨module, localName, hadd⟩ | ⟨name, hsame⟩ | hsame :=
    manager.perform_cases operation
  · exact h.add hadd
  · exact h.addModule hadd
  · rw [hsame]
    exact h.withBound name
  · rw [hsame]
    exact h

theorem Reachable.wellFormed {settings : ImportSettings} (h : Reachable settings manager) :
    manager.WellFormed := by
  induction h with
  | start => exact wellFormed_ofSettings settings
  | perform operation _ ih => exact ih.perform operation

/-! ## Decoding -/

/-- The symbol that a name is for, read off the import list alone. -/
def decode? (manager : ImportManager) (name : String) : Option SymbolKey :=
  match manager.imports.find? (·.localName = (splitAtFirstDot name).1) with
  | some entry => (splitAtFirstDot name).2.map fun qualname => ⟨entry.module, qualname⟩
  | none => some ⟨Symbol.builtinsModule, name⟩

theorem find?_alias_eq_none_iff (manager : ImportManager) (head : String) :
    manager.imports.find? (·.localName = head) = none ↔ ¬ manager.isAlias head := by
  simp [isAlias]

/-- Aliases are distinct, so an import is found by its own. -/
theorem find?_alias_eq_some (h : (manager.imports.map Import.localName).Nodup)
    {entry : Import} (hentry : entry ∈ manager.imports) :
    manager.imports.find? (·.localName = entry.localName) = some entry := by
  cases hfound : manager.imports.find? (·.localName = entry.localName) with
  | none =>
      rw [find?_alias_eq_none_iff, isAlias_iff] at hfound
      exact absurd ⟨entry, hentry, rfl⟩ hfound
  | some found =>
      have hlocal : found.localName = entry.localName := by simpa using List.find?_some hfound
      rw [List.inj_on_of_nodup_map h (List.mem_of_find?_eq_some hfound) hentry hlocal]

theorem WellFormed.decode?_eq_some (h : manager.WellFormed) {key : SymbolKey}
    {name : String} (hname : manager.nameOfKey? key = some name) :
    manager.decode? name = some key := by
  rw [decode?]
  obtain ⟨hmodule, rfl, -, hfree⟩ | ⟨entry, hentry, hmodule, rfl⟩ := h.names key name hname
  · rw [firstSegment_eq] at hfree
    rw [(manager.find?_alias_eq_none_iff _).mpr hfree, ← hmodule]
  · rw [splitAtFirstDot_append (dot_not_mem_of_isIdentifier (h.identifiers entry hentry)),
      find?_alias_eq_some h.distinct hentry]
    simp [hmodule]

/-- Every registered name decodes to the symbol it was registered for, by the alias before
its first dot, or else as a builtin's own name. So no two symbols share a name. -/
theorem registered_names_decode {settings : ImportSettings} (h : Reachable settings manager) :
    (∀ key name, manager.nameOfKey? key = some name →
      manager.decode? name = some key ∧
        (¬ manager.isAlias (splitAtFirstDot name).1 →
          key.module = Symbol.builtinsModule ∧ name = key.qualname)) ∧
      ∀ first second name, manager.nameOfKey? first = some name →
        manager.nameOfKey? second = some name → first = second := by
  have hwell := h.wellFormed
  refine ⟨fun key name hname => ⟨hwell.decode?_eq_some hname, fun hfree => ?_⟩, ?_⟩
  · have hdecoded := hwell.decode?_eq_some hname
    rw [decode?, (manager.find?_alias_eq_none_iff _).mpr hfree] at hdecoded
    rw [← Option.some.inj hdecoded]
    exact ⟨rfl, rfl⟩
  · intro first second name hfirst hsecond
    have hdecoded := hwell.decode?_eq_some hfirst
    rw [hwell.decode?_eq_some hsecond] at hdecoded
    exact (Option.some.inj hdecoded).symm

/-- A builtin goes by its bare name, and a module then cannot take its head as alias. -/
def besideBareName : ImportManager :=
  ((ofSettings .default).perform (.add (.builtin "layers.build"))).perform
    (.add (.classType "models.layers" "Encoder"))

theorem registered_names_decode_beside_bare :
    Reachable .default besideBareName ∧
      besideBareName.nameOfKey? ⟨"models.layers", "Encoder"⟩ = some "layers_2.Encoder" ∧
      besideBareName.decode? "layers_2.Encoder" = some ⟨"models.layers", "Encoder"⟩ := by
  have hreachable : Reachable .default besideBareName := .perform _ (.perform _ .start)
  have hname : besideBareName.nameOfKey? ⟨"models.layers", "Encoder"⟩ =
      some "layers_2.Encoder" := by decide +kernel
  exact ⟨hreachable, hname, ((registered_names_decode hreachable).1 _ _ hname).1⟩

end ConfigLowering.ImportManager
