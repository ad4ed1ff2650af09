import Mathlib.Data.List.DropRight
import Mathlib.Data.List.GetD
import ConfigLowering.Proofs.FreshNames.Numbering
import ConfigLowering.Proofs.Imports.Permanence

/-!
# The first free alias

The settings give an endless sequence of aliases for each module: the preferred one, the
qualified ones where the collision policy asks for them, and then the preferred one with all
numbers from two on. A module that is not imported yet takes the first of them that is free.
-/

namespace ConfigLowering

/-! ## The sequence of candidates -/

namespace ImportSettings

/-- The alias of the settings for a module, or else the module's last segment. -/
def preferredAlias (settings : ImportSettings) (module : String) : String :=
  (settings.aliases[module]?.filter isIdentifier).getD (lastSegment module)

/-- The last so many segments of a module, joined by underscores. -/
def joinedTail (module : String) (count : Nat) : String :=
  "_".intercalate ((segments module).rtake count)

/-- The candidates before the numbered ones. -/
def plainAliases (settings : ImportSettings) (module : String) : List String :=
  settings.preferredAlias module ::
    match settings.collision with
    | .suffix => []
    | .qualify => (List.range' 2 ((segments module).length - 1)).map (joinedTail module)

def candidate (settings : ImportSettings) (module : String) (position : Nat) : String :=
  let plain := settings.plainAliases module
  plain.getD position
    (Namespace.numbered (settings.preferredAlias module) (position - plain.length + 2))

variable {settings : ImportSettings} {module : String}

theorem candidate_of_lt {position : Nat} (h : position < (settings.plainAliases module).length) :
    settings.candidate module position = (settings.plainAliases module)[position] := by
  rw [candidate, List.getD_eq_getElem _ _ h]

/-- Behind the plain candidates stand the numbers from two on. -/
theorem candidate_of_le {position : Nat} (h : (settings.plainAliases module).length ≤ position) :
    settings.candidate module position = Namespace.numbered (settings.preferredAlias module)
      (position - (settings.plainAliases module).length + 2) := by
  rw [candidate, List.getD_eq_default _ _ h]

theorem isIdentifier_preferredAlias (h : isDottedPath module) :
    isIdentifier (settings.preferredAlias module) := by
  rw [preferredAlias]
  cases hvalid : settings.aliases[module]?.filter isIdentifier with
  | none => exact isIdentifier_lastSegment h
  | some localName => exact (Option.filter_eq_some_iff.mp hvalid).2

end ImportSettings

/-- The name at a position is free, and all those before it are bound. -/
structure Namespace.FirstFree (space : Namespace) (names : Nat → String) (position : Nat) :
    Prop where
  free : ¬ space.contains (names position)
  bound : ∀ earlier < position, space.contains (names earlier)

namespace ImportManager

/-! ## Managers under their settings -/

/-- The manager chooses aliases by these settings, whatever it has bound and imported. -/
structure ConfiguredBy (manager : ImportManager) (settings : ImportSettings) : Prop where
  aliases : manager.aliases = (ofSettings settings).aliases
  collision : manager.collision = settings.collision

variable {settings : ImportSettings} {manager : ImportManager} {module : String}

theorem configuredBy_ofSettings (settings : ImportSettings) :
    (ofSettings settings).ConfiguredBy settings := ⟨rfl, rfl⟩

theorem ConfiguredBy.extended {after : ImportManager} (h : manager.ConfiguredBy settings)
    (hextended : manager.ExtendedBy after) : after.ConfiguredBy settings where
  aliases := hextended.aliases.trans h.aliases
  collision := hextended.collision.trans h.collision

theorem Reachable.configuredBy (h : Reachable settings manager) :
    manager.ConfiguredBy settings := by
  obtain ⟨operations, rfl⟩ := reachable_iff_performAll.mp h
  exact (configuredBy_ofSettings settings).extended (extendedBy_performAll _ operations)

theorem ConfiguredBy.preferredAlias_eq (h : manager.ConfiguredBy settings) (module : String) :
    manager.preferredAlias module = settings.preferredAlias module := by
  rw [preferredAlias, h.aliases, ofSettings, Std.ExtTreeMap.getD_eq_getD_getElem?,
    Std.ExtTreeMap.getElem?_filter', ImportSettings.preferredAlias]

theorem qualifiedAliases_eq (module : String) :
    qualifiedAliases module =
      (List.range' 2 ((segments module).length - 1)).map (ImportSettings.joinedTail module) := by
  simp [qualifiedAliases, List.range'_eq_map_range, ImportSettings.joinedTail, List.rtake,
    Nat.add_comm]

theorem ConfiguredBy.plainCandidates_eq (h : manager.ConfiguredBy settings) (module : String) :
    manager.plainCandidates module = settings.plainAliases module := by
  rw [plainCandidates, h.preferredAlias_eq, h.collision, qualifiedAliases_eq]
  rfl

/-! ## The choice -/

/-- One of the plain candidates is free. -/
theorem ConfiguredBy.firstFree_of_find? (h : manager.ConfiguredBy settings) {localName : String}
    (hfound : (manager.plainCandidates module).find? (!manager.space.contains ·) =
      some localName) :
    ∃ position, manager.space.FirstFree (settings.candidate module) position ∧
      settings.candidate module position = localName := by
  rw [h.plainCandidates_eq, List.find?_eq_some_iff_getElem] at hfound
  obtain ⟨hfree, position, hposition, hname, hearlier⟩ := hfound
  refine ⟨position, ⟨?_, fun earlier hlt => ?_⟩, ?_⟩
  · rw [ImportSettings.candidate_of_lt hposition, hname]
    simpa using hfree
  · rw [ImportSettings.candidate_of_lt (hlt.trans hposition)]
    simpa using hearlier earlier hlt
  · rw [ImportSettings.candidate_of_lt hposition, hname]

/-- All plain candidates are bound, the preferred alias among them, and the least free number
gives the name. -/
theorem ConfiguredBy.firstFree_of_bound (h : manager.ConfiguredBy settings)
    (hmodule : isDottedPath module)
    (hbound : (manager.plainCandidates module).find? (!manager.space.contains ·) = none) :
    ∃ position, manager.space.FirstFree (settings.candidate module) position ∧
      settings.candidate module position =
        manager.space.freshNameFor (manager.preferredAlias module) := by
  rw [h.plainCandidates_eq, List.find?_eq_none] at hbound
  have hplain : ∀ name ∈ settings.plainAliases module, manager.space.contains name := by
    simpa using hbound
  have hsanitized : Namespace.sanitize (settings.preferredAlias module) =
      settings.preferredAlias module :=
    Namespace.sanitize_of_isIdentifier (ImportSettings.isIdentifier_preferredAlias hmodule)
  have hpreferred := hplain (settings.preferredAlias module) List.mem_cons_self
  obtain ⟨⟨hfrom, hfree⟩, hleast⟩ :=
    manager.space.isLeast_leastFreeNumber (settings.preferredAlias module)
  rw [h.preferredAlias_eq, Namespace.freshNameFor, hsanitized, if_pos hpreferred]
  generalize manager.space.leastFreeNumber (settings.preferredAlias module)
    (manager.space.size + 1) 2 = number at hfrom hfree hleast ⊢
  have hcandidate : settings.candidate module
      ((settings.plainAliases module).length + (number - 2)) =
        Namespace.numbered (settings.preferredAlias module) number := by
    rw [ImportSettings.candidate_of_le (Nat.le_add_right _ _), Nat.add_sub_cancel_left,
      Nat.sub_add_cancel hfrom]
  refine ⟨(settings.plainAliases module).length + (number - 2),
    ⟨by rwa [hcandidate], fun earlier hlt => ?_⟩, hcandidate⟩
  obtain hplace | hplace := Nat.lt_or_ge earlier (settings.plainAliases module).length
  · rw [ImportSettings.candidate_of_lt hplace]
    exact hplain _ (List.getElem_mem hplace)
  · rw [ImportSettings.candidate_of_le hplace]
    by_contra hfree'
    have hle := hleast ⟨Nat.le_add_left 2 _, hfree'⟩
    omega

theorem ConfiguredBy.chooseAlias_eq (h : manager.ConfiguredBy settings)
    (hmodule : isDottedPath module) :
    ∃ position, manager.space.FirstFree (settings.candidate module) position ∧
      settings.candidate module position = manager.chooseAlias module := by
  rw [chooseAlias]
  split
  · next hfound => exact h.firstFree_of_find? hfound
  · next hbound => exact h.firstFree_of_bound hmodule hbound

/-- A module that is not imported yet takes the first free candidate of the settings. This name
alone is bound in addition, the import comes behind the others, and nothing else changes. -/
theorem ensureModule_takes_first_free (h : manager.ConfiguredBy settings)
    (hmodule : isDottedPath module) (hnew : manager.aliasOf? module = none) :
    ∃ position, manager.space.FirstFree (settings.candidate module) position ∧
      (manager.ensureModule module).1 = settings.candidate module position ∧
      (∀ name, (manager.ensureModule module).2.space.contains name ↔
        name = settings.candidate module position ∨ manager.space.contains name) ∧
      (manager.ensureModule module).2.imports =
        manager.imports ++ [⟨module, settings.candidate module position⟩] ∧
      (manager.ensureModule module).2.names = manager.names ∧
      (manager.ensureModule module).2.ConfiguredBy settings := by
  obtain ⟨position, hfirst, hname⟩ := h.chooseAlias_eq hmodule
  refine ⟨position, hfirst, ?_⟩
  rw [ensureModule_eq, hnew, hname]
  exact ⟨rfl, manager.contains_withImport module _, rfl, rfl, h.aliases, h.collision⟩

/-- The alias of these settings is reserved, and so is its first number. -/
def qualifyingSettings : ImportSettings where
  baseModule := "fiddle"
  aliases := Std.ExtTreeMap.ofList [("acme.nn.layers", "ly")]
  collision := .qualify
  reservedNames := ["ly", "ly_2"]

def beforeLayers : ImportManager :=
  (ofSettings qualifyingSettings).performAll [.bind "nn_layers", .addModule "vendor.ly_3"]

theorem ensureModule_takes_first_free_layers :
    beforeLayers.ConfiguredBy qualifyingSettings ∧ isDottedPath "acme.nn.layers" ∧
      beforeLayers.aliasOf? "acme.nn.layers" = none ∧
      (beforeLayers.ensureModule "acme.nn.layers").1 = "acme_nn_layers" ∧
      (beforeLayers.ensureModule "acme.nn.layers").2.imports =
        [⟨"vendor.ly_3", "ly_3"⟩, ⟨"acme.nn.layers", "acme_nn_layers"⟩] ∧
      ∃ position, beforeLayers.space.FirstFree
        (qualifyingSettings.candidate "acme.nn.layers") position := by
  have hconfigured : beforeLayers.ConfiguredBy qualifyingSettings :=
    (Reachable.start.performAll _).configuredBy
  have hmodule : isDottedPath "acme.nn.layers" := by decide +kernel
  have hnew : beforeLayers.aliasOf? "acme.nn.layers" = none := by decide +kernel
  have hbefore : beforeLayers.imports = [⟨"vendor.ly_3", "ly_3"⟩] := by decide +kernel
  have hname : (beforeLayers.ensureModule "acme.nn.layers").1 = "acme_nn_layers" := by
    decide +kernel
  obtain ⟨position, hfirst, hsame, -, himports, -⟩ :=
    ensureModule_takes_first_free hconfigured hmodule hnew
  rw [← hsame, hname, hbefore] at himports
  exact ⟨hconfigured, hmodule, hnew, hname, himports, position, hfirst⟩

end ImportManager

end ConfigLowering
