import ConfigLowering.Proofs.Imports.Reserved

/-!
# The import table

No module is imported twice and no two imports share an alias, whatever the settings and
whatever was done with the manager. The index that modules are looked up in is in step with the
list of imports. Each alias is an identifier that is bound and not reserved.
-/

namespace ConfigLowering.ImportManager

variable {settings : ImportSettings} {manager : ImportManager}

/-- Modules and aliases of the table are distinct, the index has the place of every import and no
other, a module is looked up to the alias that it is imported under, and every alias is a bound
identifier that is not reserved. -/
theorem import_table_well_formed (h : Reachable settings manager) :
    (manager.imports.map Import.module).Nodup ∧
      (manager.imports.map Import.localName).Nodup ∧
      (∀ module localName, manager.aliasOf? module = some localName ↔
        (⟨module, localName⟩ : Import) ∈ manager.imports) ∧
      (∀ module position, manager.positions[module]? = some position ↔
        ∃ entry : Import, manager.imports[position]? = some entry ∧ entry.module = module) ∧
      ∀ entry ∈ manager.imports, isIdentifier entry.localName ∧
        manager.space.contains entry.localName ∧ entry.localName ∉ Namespace.reservedWords ∧
        entry.localName ∉ settings.reservedNames := by
  have hwell := h.wellFormed
  refine ⟨hwell.indexed.nodup_modules, hwell.distinct, hwell.indexed.aliasOf?_eq_some_iff_mem,
    hwell.indexed, fun entry hentry => ?_⟩
  have halias : manager.isAlias entry.localName :=
    (manager.isAlias_iff _).mpr ⟨entry, hentry, rfl⟩
  have hfree := h.keepsReserved.free entry.localName
  exact ⟨hwell.identifiers entry hentry, hwell.bound entry hentry,
    fun hword => hfree (.inr hword) halias, fun hname => hfree (.inl hname) halias⟩

/-- One alias of the settings is no identifier, and the last segment in its place is reserved. -/
def crowdedSettings : ImportSettings where
  baseModule := "fiddle"
  aliases := Std.ExtTreeMap.ofList [("models.layers", "3d!"), ("numpy", "np")]
  collision := .qualify
  reservedNames := ["layers"]

def crowdedTable : ImportManager :=
  (ofSettings crowdedSettings).performAll [
    .add (.classType "models.layers" "Encoder"), .addModule "numpy", .bind "frame",
    .addModule "data.frame", .bindFresh "np", .addModule "vendor.np"]

theorem import_table_well_formed_crowded :
    Reachable crowdedSettings crowdedTable ∧
      (crowdedTable.imports.map Import.module).Nodup ∧
      (⟨"models.layers", "models_layers"⟩ : Import) ∈ crowdedTable.imports ∧
      crowdedTable.aliasOf? "models.layers" = some "models_layers" ∧
      crowdedTable.positions["data.frame"]? = some 2 ∧
      "models_layers" ∉ crowdedSettings.reservedNames := by
  have hreachable : Reachable crowdedSettings crowdedTable := Reachable.start.performAll _
  obtain ⟨hmodules, -, hlookup, hplaces, hentries⟩ := import_table_well_formed hreachable
  have hentry : (⟨"models.layers", "models_layers"⟩ : Import) ∈ crowdedTable.imports := by
    decide +kernel
  have hplace : crowdedTable.imports[2]? = some ⟨"data.frame", "data_frame"⟩ := by decide +kernel
  exact ⟨hreachable, hmodules, hentry, (hlookup _ _).mpr hentry,
    (hplaces _ _).mpr ⟨_, hplace, rfl⟩, (hentries _ hentry).2.2.2⟩

end ConfigLowering.ImportManager
