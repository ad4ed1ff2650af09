import ConfigLowering.Settings

/-!
# Laws of merging

Merging settings is associative, so a stack of sources may be merged from either end, and a
source that was merged last changes nothing when it is merged again. Each setting has these laws
by a rule of its own.
-/

namespace ConfigLowering

/-! ## Values that give way -/

/-- The value on top, unless it is the default. -/
def overlayUnless {α : Type} [DecidableEq α] (default base overlay : α) : α :=
  if overlay ≠ default then overlay else base

section

variable {α : Type} [DecidableEq α]

@[simp] theorem overlayUnless_default (default base : α) :
    overlayUnless default base default = base :=
  if_neg (not_not_intro rfl)

theorem overlayUnless_of_ne {default overlay : α} (h : overlay ≠ default) (base : α) :
    overlayUnless default base overlay = overlay :=
  if_pos h

theorem overlayUnless_assoc (default base middle overlay : α) :
    overlayUnless default (overlayUnless default base middle) overlay =
      overlayUnless default base (overlayUnless default middle overlay) := by
  by_cases h : overlay = default
  · rw [h, overlayUnless_default, overlayUnless_default]
  · rw [overlayUnless_of_ne h, overlayUnless_of_ne h, overlayUnless_of_ne h]

theorem overlayUnless_absorb (default base overlay : α) :
    overlayUnless default (overlayUnless default base overlay) overlay =
      overlayUnless default base overlay := by
  by_cases h : overlay = default
  · rw [h, overlayUnless_default]
  · rw [overlayUnless_of_ne h, overlayUnless_of_ne h]

end

/-! ## Names that accumulate -/

/-- Adds a name behind those there are, unless it is one of them. -/
def reserveName (names : List String) (name : String) : List String :=
  if names.contains name then names else names ++ [name]

theorem mergeReservedNames_eq_foldl (base overlay : List String) :
    mergeReservedNames base overlay = overlay.foldl reserveName base := rfl

theorem reserveName_of_mem {names : List String} {name : String} (h : name ∈ names) :
    reserveName names name = names :=
  if_pos (List.contains_iff_mem.mpr h)

theorem reserveName_of_not_mem {names : List String} {name : String} (h : name ∉ names) :
    reserveName names name = names ++ [name] :=
  if_neg (mt List.contains_iff_mem.mp h)

theorem mem_reserveName_iff {names : List String} {name other : String} :
    other ∈ reserveName names name ↔ other ∈ names ∨ other = name := by
  by_cases h : name ∈ names
  · rw [reserveName_of_mem h, or_iff_left_of_imp]
    rintro rfl
    exact h
  · rw [reserveName_of_not_mem h, List.mem_append, List.mem_singleton]

theorem mem_mergeReservedNames_iff {base overlay : List String} {name : String} :
    name ∈ mergeReservedNames base overlay ↔ name ∈ base ∨ name ∈ overlay := by
  rw [mergeReservedNames_eq_foldl]
  induction overlay generalizing base with
  | nil => simp
  | cons first overlay ih =>
      rw [List.foldl_cons, ih, mem_reserveName_iff, List.mem_cons, or_assoc]

/-- Names that are all there already add nothing. -/
theorem mergeReservedNames_of_subset {base overlay : List String} (h : overlay ⊆ base) :
    mergeReservedNames base overlay = base := by
  rw [mergeReservedNames_eq_foldl]
  induction overlay with
  | nil => rfl
  | cons first overlay ih =>
      obtain ⟨hfirst, hoverlay⟩ := List.cons_subset.mp h
      rw [List.foldl_cons, reserveName_of_mem hfirst, ih hoverlay]

/-- A name may be added before or after the merge: it is new in both or in neither, unless it is
one that the base brings. -/
theorem mergeReservedNames_reserveName (base names : List String) (name : String) :
    mergeReservedNames base (reserveName names name) =
      reserveName (mergeReservedNames base names) name := by
  by_cases h : name ∈ names
  · have hmerged : name ∈ mergeReservedNames base names :=
      mem_mergeReservedNames_iff.mpr (.inr h)
    rw [reserveName_of_mem h, reserveName_of_mem hmerged]
  · rw [reserveName_of_not_mem h, mergeReservedNames_eq_foldl, List.foldl_append]
    rfl

theorem mergeReservedNames_assoc (base middle overlay : List String) :
    mergeReservedNames (mergeReservedNames base middle) overlay =
      mergeReservedNames base (mergeReservedNames middle overlay) :=
  List.foldl_hom (mergeReservedNames base)
    fun names name => (mergeReservedNames_reserveName base names name).symm

theorem mergeReservedNames_absorb (base overlay : List String) :
    mergeReservedNames (mergeReservedNames base overlay) overlay =
      mergeReservedNames base overlay :=
  mergeReservedNames_of_subset fun _ h => mem_mergeReservedNames_iff.mpr (.inr h)

/-! ## Aliases -/

theorem aliases_union_assoc (base middle overlay : AliasMap) :
    base ∪ middle ∪ overlay = base ∪ (middle ∪ overlay) := by
  apply Std.ExtTreeMap.ext_getElem?
  intro module
  simp only [Std.ExtTreeMap.getElem?_union, Option.or_assoc]

theorem aliases_union_absorb (base overlay : AliasMap) :
    base ∪ overlay ∪ overlay = base ∪ overlay := by
  apply Std.ExtTreeMap.ext_getElem?
  intro module
  simp only [Std.ExtTreeMap.getElem?_union, ← Option.or_assoc, Option.or_self]

/-! ## Settings -/

namespace ImportSettings

theorem merge_eq (base overlay : ImportSettings) :
    base.merge overlay = {
      baseModule := overlayUnless defaultBaseModule base.baseModule overlay.baseModule
      aliases := base.aliases ∪ overlay.aliases
      collision := overlayUnless .suffix base.collision overlay.collision
      reservedNames := mergeReservedNames base.reservedNames overlay.reservedNames } := rfl

theorem merge_assoc (base middle overlay : ImportSettings) :
    (base.merge middle).merge overlay = base.merge (middle.merge overlay) := by
  simp only [merge_eq, overlayUnless_assoc, aliases_union_assoc, mergeReservedNames_assoc]

theorem merge_absorb (base overlay : ImportSettings) :
    (base.merge overlay).merge overlay = base.merge overlay := by
  simp only [merge_eq, overlayUnless_absorb, aliases_union_absorb, mergeReservedNames_absorb]

end ImportSettings

namespace Settings

theorem merge_eq (base overlay : Settings) :
    base.merge overlay = {
      imports := base.imports.merge overlay.imports
      pretty := base.pretty && overlay.pretty
      logLevel := overlayUnless defaultLogLevel base.logLevel overlay.logLevel } := rfl

theorem merge_assoc (base middle overlay : Settings) :
    (base.merge middle).merge overlay = base.merge (middle.merge overlay) := by
  simp only [merge_eq, ImportSettings.merge_assoc, Bool.and_assoc, overlayUnless_assoc]

theorem merge_absorb (base overlay : Settings) :
    (base.merge overlay).merge overlay = base.merge overlay := by
  simp only [merge_eq, ImportSettings.merge_absorb, Bool.and_assoc, Bool.and_self,
    overlayUnless_absorb]

/-- Sources may be merged from the first on or from the last on, and one that is merged twice in
a row counts once. -/
theorem merging_associates_and_absorbs (base middle overlay : Settings) :
    (base.merge middle).merge overlay = base.merge (middle.merge overlay) ∧
      (base.merge overlay).merge overlay = base.merge overlay :=
  ⟨merge_assoc base middle overlay, merge_absorb base overlay⟩

def ofCompany : Settings where
  imports := {
    baseModule := "acme.config"
    aliases := Std.ExtTreeMap.ofList [("numpy", "np"), ("models.layers", "layers")]
    collision := .qualify
    reservedNames := ["job", "np"] }
  pretty := false
  logLevel := "debug"

/-- No setting is that of the company. The policy, the style and the level are the defaults. -/
def ofProject : Settings where
  imports := {
    baseModule := "project.config"
    aliases := Std.ExtTreeMap.ofList [("models.layers", "nn"), ("fiddle", "fl")]
    collision := .suffix
    reservedNames := ["np", "run"] }
  pretty := true
  logLevel := defaultLogLevel

example : ∀ merged ∈ [
      (default.merge ofCompany).merge ofProject,
      default.merge (ofCompany.merge ofProject),
      ((default.merge ofCompany).merge ofProject).merge ofProject],
    merged.imports.baseModule = "project.config" ∧
      merged.imports.aliases.toList =
        [("fiddle", "fl"), ("models.layers", "nn"), ("numpy", "np")] ∧
      merged.imports.collision = .qualify ∧
      merged.imports.reservedNames = ["job", "np", "run"] ∧
      merged.pretty = false ∧ merged.logLevel = "debug" := by
  decide +kernel

end Settings

end ConfigLowering
