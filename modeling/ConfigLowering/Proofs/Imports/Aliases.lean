import ConfigLowering.Imports
import ConfigLowering.Proofs.FreshNames
import ConfigLowering.Proofs.Text.Segments

/-!
# Aliases

The alias chosen for a module is an identifier that was not bound, whichever of its
sources it comes from: the settings, the last segment of the module, segments joined
by underscores, or a number behind the preferred alias.
-/

namespace ConfigLowering

theorem isIdentifier_intercalate {parts : List String} (hne : parts ≠ [])
    (h : ∀ part ∈ parts, isIdentifier part) : isIdentifier ("_".intercalate parts) := by
  induction parts with
  | nil => contradiction
  | cons part parts ih =>
      have hpart := h part List.mem_cons_self
      cases parts with
      | nil => rwa [String.intercalate_singleton]
      | cons next parts =>
          have hrest := ih (by simp) fun other hother => h other (List.mem_cons_of_mem _ hother)
          rw [String.intercalate_cons_cons]
          exact isIdentifier_append (isIdentifier_append hpart isIdentifierPart_of_mem_underscore)
            (isIdentifierPart_of_mem hrest)

namespace ImportManager

theorem isIdentifier_of_mem_qualifiedAliases {module localName : String}
    (hmodule : isDottedPath module) (h : localName ∈ qualifiedAliases module) :
    isIdentifier localName := by
  obtain ⟨position, hposition, rfl⟩ := List.mem_map.mp h
  have hlt := List.mem_range.mp hposition
  apply isIdentifier_intercalate
  · rw [Ne, List.drop_eq_nil_iff]
    omega
  · intro part hpart
    exact isIdentifier_of_mem_segments hmodule (List.mem_of_mem_drop hpart)

/-- The aliases of the settings are identifiers. -/
def HasValidAliases (manager : ImportManager) : Prop :=
  ∀ (module localName : String), manager.aliases[module]? = some localName →
    isIdentifier localName

theorem hasValidAliases_ofSettings (settings : ImportSettings) :
    (ofSettings settings).HasValidAliases := by
  intro module localName h
  simp only [ofSettings, Std.ExtTreeMap.getElem?_filter'] at h
  exact (Option.filter_eq_some_iff.mp h).2

variable {manager : ImportManager} {module : String}

theorem HasValidAliases.isIdentifier_preferredAlias (h : manager.HasValidAliases)
    (hmodule : isDottedPath module) : isIdentifier (manager.preferredAlias module) := by
  rw [preferredAlias, Std.ExtTreeMap.getD_eq_getD_getElem?]
  cases hfound : manager.aliases[module]? with
  | none => exact isIdentifier_lastSegment hmodule
  | some localName => exact h module localName hfound

theorem HasValidAliases.isIdentifier_chooseAlias (h : manager.HasValidAliases)
    (hmodule : isDottedPath module) : isIdentifier (manager.chooseAlias module) := by
  rw [chooseAlias]
  split
  · next localName hfound =>
      have hmem := List.mem_of_find?_eq_some hfound
      rw [plainCandidates] at hmem
      obtain rfl | hmem := List.mem_cons.mp hmem
      · exact h.isIdentifier_preferredAlias hmodule
      · split at hmem
        · contradiction
        · exact isIdentifier_of_mem_qualifiedAliases hmodule hmem
  · exact manager.space.isIdentifier_freshNameFor _

theorem not_contains_chooseAlias (manager : ImportManager) (module : String) :
    ¬ manager.space.contains (manager.chooseAlias module) := by
  rw [chooseAlias]
  split
  · next localName hfound =>
      have hfree := List.find?_some hfound
      simpa using hfree
  · exact manager.space.not_contains_freshNameFor _

end ImportManager

end ConfigLowering
