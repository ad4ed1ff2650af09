import ConfigLowering.Proofs.Imports.Registering
import ConfigLowering.Proofs.Registration.Completeness
import ConfigLowering.Proofs.Walk.Listing

/-!
# Registration is exact

Registration succeeds exactly when all references in the bodies are known and every symbol that
a reached config node needs can be imported. Then it registers what the task refers to and
nothing else, and imports no module that nothing needs.
-/

namespace ConfigLowering

/-! ## Actions that register symbols -/

namespace RegistrationM

open ImportManager (Reachable)

/-- The action succeeds exactly when these symbols can be imported, and registers them. -/
structure Enters {α : Type} (action : RegistrationM α) (symbols : List Symbol) : Prop where
  succeeds_iff : ∀ settings before, Reachable settings before →
    ((∃ value after, action.Yields before value after) ↔
      ∀ symbol ∈ symbols, symbol.isImportable)
  gains : ∀ before value after, action.Yields before value after → before.Gains after symbols

variable {α β ι : Type} {symbols more : List Symbol}

theorem enters_pure (value : α) : Enters (pure value) [] where
  succeeds_iff _ before _ := ⟨fun _ => nofun, fun _ => ⟨value, before, rfl⟩⟩
  gains before _ _ h := by
    obtain ⟨-, rfl⟩ := h.of_pure
    exact .refl _

theorem Enters.bind {action : RegistrationM α} {next : α → RegistrationM β}
    (h : Enters action symbols) (hnext : ∀ value, Enters (next value) more) :
    Enters (action >>= next) (symbols ++ more) where
  succeeds_iff settings before hbefore := by
    rw [List.forall_mem_append]
    constructor
    · rintro ⟨result, after, hyields⟩
      obtain ⟨value, between, hfirst, hsecond⟩ := hyields.of_bind
      have hbetween := (h.gains _ _ _ hfirst).reachable settings hbefore
      exact ⟨(h.succeeds_iff settings before hbefore).mp ⟨value, between, hfirst⟩,
        ((hnext value).succeeds_iff settings between hbetween).mp ⟨result, after, hsecond⟩⟩
    · rintro ⟨hsymbols, hmore⟩
      obtain ⟨value, between, hfirst⟩ := (h.succeeds_iff settings before hbefore).mpr hsymbols
      have hbetween := (h.gains _ _ _ hfirst).reachable settings hbefore
      obtain ⟨result, after, hsecond⟩ :=
        ((hnext value).succeeds_iff settings between hbetween).mpr hmore
      exact ⟨result, after, yields_bind_iff.mpr ⟨value, between, hfirst, hsecond⟩⟩
  gains before result after hyields := by
    obtain ⟨value, between, hfirst, hsecond⟩ := hyields.of_bind
    exact (h.gains _ _ _ hfirst).trans ((hnext value).gains _ _ _ hsecond)

/-- What comes after the registering may look at the answer and register nothing. -/
theorem Enters.before {action : RegistrationM α} {next : α → RegistrationM β}
    (h : Enters action symbols) (hnext : ∀ value, Enters (next value) []) :
    Enters (action >>= next) symbols := by
  have hbind := h.bind hnext
  rwa [List.append_nil] at hbind

theorem enters_require (symbol : Symbol) : Enters (require symbol) [symbol] where
  succeeds_iff settings before hbefore := by
    rw [List.forall_mem_singleton, ← hbefore.exists_add_iff]
    constructor
    · rintro ⟨answer, after, h⟩
      obtain ⟨name, hadd⟩ := yields_require_iff.mp h
      exact ⟨name, after, hadd⟩
    · rintro ⟨name, after, hadd⟩
      exact ⟨(), after, yields_require_iff.mpr ⟨name, hadd⟩⟩
  gains before answer after h := by
    obtain ⟨name, hadd⟩ := yields_require_iff.mp h
    exact ImportManager.gains_add hadd

theorem enters_forM_require (symbols : List Symbol) :
    Enters (symbols.forM require) symbols := by
  induction symbols with
  | nil => exact enters_pure _
  | cons symbol symbols ih => exact (enters_require symbol).bind fun _ => ih

/-- A symbol that cannot be imported is passed over. -/
theorem enters_offer (symbol : Symbol) :
    Enters (offer symbol) (if symbol.isImportable then [symbol] else []) where
  succeeds_iff settings before _ := by
    refine ⟨fun _ other hother => ?_, fun _ => ?_⟩
    · split at hother
      · next himportable => rwa [List.mem_singleton.mp hother]
      · contradiction
    · rcases hadd : before.add symbol with ⟨error | name, after⟩
      · exact ⟨false, after, yields_offer_iff.mpr (.inr ⟨rfl, error, hadd⟩)⟩
      · exact ⟨true, after, yields_offer_iff.mpr (.inl ⟨rfl, name, hadd⟩)⟩
  gains before answer after h := by
    obtain ⟨-, name, hadd⟩ | ⟨-, error, hadd⟩ := yields_offer_iff.mp h
    · split
      · exact ImportManager.gains_add hadd
      · next hrefused =>
          -- Only a symbol that has a name already is added although it cannot be imported.
          by_cases hknown : before.Registers symbol.key
          · rw [ImportManager.add_of_knows hknown hadd]
            exact .refl _
          · exact absurd (ImportManager.isImportable_of_add hknown hadd) hrefused
    · obtain ⟨-, hrefused, -, rfl⟩ := ImportManager.add_eq_error_iff.mp hadd
      rw [if_neg hrefused]
      exact .refl _

theorem enters_foldlM {step : α → ι → RegistrationM α} {symbolsOf : ι → List Symbol}
    {items : List ι} (h : ∀ item ∈ items, ∀ start, Enters (step start item) (symbolsOf item))
    (start : α) : Enters (items.foldlM step start) (items.flatMap symbolsOf) := by
  induction items generalizing start with
  | nil => exact enters_pure start
  | cons item items ih =>
      obtain ⟨hitem, hitems⟩ := List.forall_mem_cons.mp h
      rw [List.foldlM_cons, List.flatMap_cons]
      exact (hitem start).bind fun _ => ih hitems _

end RegistrationM

/-! ## Visits and fixtures -/

namespace Registration

open RegistrationM

variable {graph : ConfigGraph} {baseModule : String} {before after : ImportManager}

theorem enters_registerNode (baseModule : String) (buildable : Buildable) :
    Enters (registerNode baseModule buildable)
      (buildable.callable :: buildable.kind.wrapper baseModule :: buildable.allTags) :=
  (enters_require _).bind fun _ => (enters_require _).bind fun _ => enters_forM_require _

theorem enters_registerVisit (baseModule : String) (summary : ImportSummary) (visit : Visit) :
    Enters (registerVisit baseModule summary visit) (visit.symbols baseModule) := by
  cases visit with
  | node id buildable => exact (enters_registerNode baseModule buildable).before fun _ => enters_pure _
  | value value =>
      cases value with
      | symbol symbol =>
          rw [registerVisit]
          cases hplain : symbol.isPlain with
          | false =>
              have hsymbols : (Visit.value (.symbol symbol)).symbols baseModule = [] := by
                simp [Visit.symbols, Value.role, hplain]
              rw [hsymbols]
              exact enters_pure summary
          | true =>
              have hsymbols : (Visit.value (.symbol symbol)).symbols baseModule =
                  if symbol.isImportable then [symbol] else [] := by
                simp [Visit.symbols, Value.role, hplain]
              rw [hsymbols]
              refine (enters_offer symbol).before fun answer => ?_
              cases answer <;> exact enters_pure _
      | _ => exact enters_pure summary

/-- The symbols of everything that a walk lists for a fixture. -/
def symbolsOf (graph : ConfigGraph) (baseModule : String) (fixture : Fixture) : List Symbol :=
  match graph.iterateAll fixture.bodySlots with
  | .ok entries => entries.flatMap fun entry => entry.1.symbols baseModule
  | .error _ => []

theorem enters_registerFixture {fixture : Fixture} {entries : List (Visit × Path)}
    (h : graph.iterateAll fixture.bodySlots = .ok entries) (baseModule : String)
    (summary : ImportSummary) :
    Enters (registerFixture graph baseModule summary fixture)
      (symbolsOf graph baseModule fixture) := by
  rw [registerFixture, symbolsOf, h]
  exact enters_foldlM (fun entry _ summary => enters_registerVisit baseModule summary entry.1) summary

theorem mem_symbolsOf_iff {fixture : Fixture} {entries : List (Visit × Path)}
    (h : graph.iterateAll fixture.bodySlots = .ok entries) (baseModule : String)
    (symbol : Symbol) :
    symbol ∈ symbolsOf graph baseModule fixture ↔
      ∃ value ∈ fixture.values, ∃ visit, graph.Lists value visit ∧
        symbol ∈ visit.symbols baseModule := by
  have hlisted := ConfigGraph.mem_iterateAll_iff h
  simp only [List.mem_map] at hlisted
  rw [symbolsOf, h]
  simp only [List.mem_flatMap]
  constructor
  · rintro ⟨entry, hentry, hsymbol⟩
    obtain ⟨value, hvalue, hlists⟩ := (hlisted entry.1).mp ⟨entry, hentry, rfl⟩
    exact ⟨value, List.mem_map.mpr hvalue, entry.1, hlists, hsymbol⟩
  · rintro ⟨value, hvalue, visit, hlists, hsymbol⟩
    obtain ⟨entry, hentry, rfl⟩ := (hlisted visit).mpr ⟨value, List.mem_map.mp hvalue, hlists⟩
    exact ⟨entry, hentry, hsymbol⟩

/-! ## Counts -/

/-- What every step adds to the count is added in the end. -/
theorem configNodes_foldlM {ι : Type} {step : ImportSummary → ι → RegistrationM ImportSummary}
    {count : ι → Nat}
    (hstep : ∀ summary item before result after, (step summary item).Yields before result after →
      result.configNodes = summary.configNodes + count item)
    {items : List ι} {summary result : ImportSummary}
    (h : (items.foldlM step summary).Yields before result after) :
    result.configNodes = summary.configNodes + (items.map count).sum := by
  induction items generalizing summary before with
  | nil =>
      obtain ⟨rfl, -⟩ := h.of_pure
      rfl
  | cons item items ih =>
      rw [List.foldlM_cons] at h
      obtain ⟨between, _, hitem, hitems⟩ := h.of_bind
      rw [ih hitems, hstep _ _ _ _ _ hitem, List.map_cons, List.sum_cons, Nat.add_assoc]

theorem configNodes_registerVisit {summary result : ImportSummary} {visit : Visit}
    (h : (registerVisit baseModule summary visit).Yields before result after) :
    result.configNodes = summary.configNodes + visit.nodeId?.toList.length := by
  cases visit with
  | node id buildable =>
      obtain ⟨-, between, -, h⟩ := h.of_bind
      obtain ⟨rfl, -⟩ := h.of_pure
      rfl
  | value value =>
      cases value with
      | symbol symbol =>
          rw [registerVisit] at h
          split at h
          · obtain ⟨rfl, -⟩ := h.of_pure
            rfl
          · obtain ⟨answer, between, -, h⟩ := h.of_bind
            cases answer <;> obtain ⟨rfl, -⟩ := h.of_pure <;> rfl
      | _ =>
          obtain ⟨rfl, -⟩ := h.of_pure
          rfl

/-- A fixture counts the config nodes that stand below its values. -/
theorem configNodes_registerFixture {summary result : ImportSummary} {fixture : Fixture}
    (h : (registerFixture graph baseModule summary fixture).Yields before result after) :
    result.configNodes = summary.configNodes +
      {id | ∃ value ∈ fixture.values, graph.Below value (.node id)}.ncard := by
  rw [registerFixture] at h
  cases hentries : graph.iterateAll fixture.bodySlots with
  | error error =>
      rw [hentries] at h
      cases h
  | ok entries =>
      rw [hentries] at h
      have hcount : result.configNodes = summary.configNodes +
          (entries.map fun entry => entry.1.nodeId?.toList.length).sum := by
        refine configNodes_foldlM (fun summary entry before result after hvisit => ?_) h
        exact configNodes_registerVisit hvisit
      have hsum : (entries.map fun entry => entry.1.nodeId?.toList.length).sum =
          (ConfigGraph.listedNodes entries).length := by
        rw [ConfigGraph.listedNodes, List.filterMap_map, List.filterMap_eq_flatMap_toList,
          List.length_flatMap]
        rfl
      rw [hcount, hsum, ConfigGraph.length_listedNodes hentries]
      rfl

end Registration

end ConfigLowering
