import ConfigLowering.Proofs.Fixture.Mapping
import ConfigLowering.Proofs.Imports.Growth
import ConfigLowering.Proofs.Outcome
import ConfigLowering.Proofs.Walk.Coverage
import ConfigLowering.Registration

/-!
# Registration is complete

When registration succeeds, everything below a fixture's body has been visited, and
every symbol that lowering a visited value refers to has a name.
-/

namespace ConfigLowering

/-! ## Symbols of a visit -/

/-- The symbols that the code for a visited value refers to. -/
def Visit.symbols (baseModule : String) : Visit → List Symbol
  | .node _ buildable =>
      buildable.callable :: buildable.kind.wrapper baseModule :: buildable.allTags
  | .value (.symbol symbol) =>
      if (Value.symbol symbol).role = .importableSymbol then [symbol] else []
  | .value _ => []

namespace ImportManager

def Knows (manager : ImportManager) (symbol : Symbol) : Prop :=
  ∃ name, manager.nameOf? symbol = some name

def KnowsAll (manager : ImportManager) (symbols : List Symbol) : Prop :=
  ∀ symbol ∈ symbols, manager.Knows symbol

variable {before after : ImportManager}

theorem Grows.knows (h : before.Grows after) {symbol : Symbol} (hknows : before.Knows symbol) :
    after.Knows symbol := by
  obtain ⟨name, hname⟩ := hknows
  exact ⟨name, h _ _ hname⟩

theorem Grows.knowsAll (h : before.Grows after) {symbols : List Symbol}
    (hknows : before.KnowsAll symbols) : after.KnowsAll symbols :=
  fun symbol hsymbol => h.knows (hknows symbol hsymbol)

/-- A known symbol is only looked up. -/
theorem exists_add_of_knows {symbol : Symbol} (h : before.Knows symbol) :
    ∃ name, before.add symbol = (.ok name, before) := by
  obtain ⟨name, hname⟩ := h
  exact ⟨name, by rw [add_eq, hname]⟩

theorem add_of_knows {symbol : Symbol} {name : String} (hknows : before.Knows symbol)
    (h : before.add symbol = (.ok name, after)) : after = before := by
  obtain ⟨known, hknown⟩ := exists_add_of_knows hknows
  rw [hknown] at h
  exact (Prod.mk.inj h).2.symm

theorem grows_addModule {module localName : String}
    (h : before.addModule module = (.ok localName, after)) : before.Grows after :=
  (extendedBy_addModule h).names

end ImportManager

/-! ## Actions -/

namespace RegistrationM

variable {α β : Type} {before after : ImportManager}

def Yields (action : RegistrationM α) (before : ImportManager) (value : α)
    (after : ImportManager) : Prop :=
  action.run.run before = (.ok value, after)

theorem Yields.of_pure {given value : α}
    (h : (pure given : RegistrationM α).Yields before value after) :
    value = given ∧ after = before := by
  obtain ⟨hvalue, rfl⟩ := Prod.mk.inj h
  exact ⟨(Except.ok.inj hvalue).symm, rfl⟩

theorem yields_bind_iff {action : RegistrationM α} {next : α → RegistrationM β} {result : β} :
    (action >>= next).Yields before result after ↔
      ∃ value between, action.Yields before value between ∧
        (next value).Yields between result after :=
  run_bind_eq_ok_iff action next

theorem Yields.of_bind {action : RegistrationM α} {next : α → RegistrationM β} {result : β}
    (h : (action >>= next).Yields before result after) :
    ∃ value between, action.Yields before value between ∧
      (next value).Yields between result after :=
  yields_bind_iff.mp h

/-- What a registration leaves is taken over, whether it succeeded or not. -/
theorem yields_outcome_iff (before : ImportManager)
    (outcome : Except ImportError String × ImportManager) {answer : Unit} :
    (do
      set outcome.2
      match outcome.1 with
      | .ok _ => return ()
      | .error error => throw (.importFailed error) : RegistrationM Unit).Yields
        before answer after ↔ ∃ name, outcome = (.ok name, after) := by
  rcases outcome with ⟨error | name, manager⟩
  · constructor
    · rintro ⟨⟩
    · rintro ⟨_, ⟨⟩⟩
  · constructor
    · rintro ⟨⟩
      exact ⟨name, rfl⟩
    · rintro ⟨_, ⟨⟩⟩
      rfl

theorem yields_require_iff {symbol : Symbol} {answer : Unit} :
    (require symbol).Yields before answer after ↔
      ∃ name, before.add symbol = (.ok name, after) :=
  yields_outcome_iff before (before.add symbol)

theorem yields_requireModule_iff {module : String} {answer : Unit} :
    (requireModule module).Yields before answer after ↔
      ∃ localName, before.addModule module = (.ok localName, after) :=
  yields_outcome_iff before (before.addModule module)

/-- An offer is never refused. -/
theorem yields_offer_iff {symbol : Symbol} {answer : Bool} :
    (offer symbol).Yields before answer after ↔
      (answer = true ∧ ∃ name, before.add symbol = (.ok name, after)) ∨
        answer = false ∧ ∃ error, before.add symbol = (.error error, after) := by
  change (Except.ok (before.add symbol).1.isOk, (before.add symbol).2) = (Except.ok answer, after) ↔ _
  rcases before.add symbol with ⟨error | name, manager⟩ <;>
    simp [Except.isOk, Except.toBool, eq_comm]

theorem yields_require {symbol : Symbol} {answer : Unit}
    (h : (require symbol).Yields before answer after) :
    before.Grows after ∧ after.Knows symbol := by
  obtain ⟨name, hadd⟩ := yields_require_iff.mp h
  obtain ⟨hgrows, hname⟩ := ImportManager.grows_add hadd
  exact ⟨hgrows, name, hname⟩

theorem yields_requireModule {module : String} {answer : Unit}
    (h : (requireModule module).Yields before answer after) : before.Grows after := by
  obtain ⟨localName, hadd⟩ := yields_requireModule_iff.mp h
  exact ImportManager.grows_addModule hadd

theorem yields_offer {symbol : Symbol} {answer : Bool}
    (h : (offer symbol).Yields before answer after) :
    before.Grows after ∧ (symbol.isImportable → after.Knows symbol) := by
  obtain ⟨-, name, hadd⟩ | ⟨-, error, hadd⟩ := yields_offer_iff.mp h
  · obtain ⟨hgrows, hname⟩ := ImportManager.grows_add hadd
    exact ⟨hgrows, fun _ => ⟨name, hname⟩⟩
  · obtain ⟨-, hrefused, -, rfl⟩ := ImportManager.add_eq_error_iff.mp hadd
    exact ⟨.refl _, fun himportable => absurd himportable hrefused⟩

/-- What every step for an item makes true, and later steps do not undo, holds for all items
in the end. -/
theorem yields_foldlM {ι : Type} (holds : ImportManager → ι → Prop)
    {action : α → ι → RegistrationM α}
    (hstep : ∀ start item before result after, (action start item).Yields before result after →
      before.Grows after ∧ holds after item)
    (hlater : ∀ before after item, before.Grows after → holds before item → holds after item)
    {items : List ι} {start result : α}
    (h : (items.foldlM action start).Yields before result after) :
    before.Grows after ∧ ∀ item ∈ items, holds after item := by
  induction items generalizing start before with
  | nil =>
      obtain ⟨-, rfl⟩ := h.of_pure
      exact ⟨.refl _, List.forall_mem_nil _⟩
  | cons item items ih =>
      rw [List.foldlM_cons] at h
      obtain ⟨value, between, hitem, hitems⟩ := h.of_bind
      obtain ⟨hgrows, hheld⟩ := hstep _ _ _ _ _ hitem
      obtain ⟨hgrows', hothers⟩ := ih hitems
      exact ⟨hgrows.trans hgrows',
        List.forall_mem_cons.mpr ⟨hlater _ _ _ hgrows' hheld, hothers⟩⟩

theorem yields_forM_require {symbols : List Symbol} {answer : PUnit}
    (h : (symbols.forM require).Yields before answer after) :
    before.Grows after ∧ after.KnowsAll symbols := by
  induction symbols generalizing before with
  | nil =>
      obtain ⟨-, rfl⟩ := h.of_pure
      exact ⟨.refl _, List.forall_mem_nil _⟩
  | cons symbol symbols ih =>
      obtain ⟨⟨⟩, between, hsymbol, hsymbols⟩ := h.of_bind
      obtain ⟨hgrows, hknows⟩ := yields_require hsymbol
      obtain ⟨hgrows', hothers⟩ := ih hsymbols
      exact ⟨hgrows.trans hgrows', List.forall_mem_cons.mpr ⟨hgrows'.knows hknows, hothers⟩⟩

end RegistrationM

/-! ## Visits and fixtures -/

namespace Registration

open RegistrationM

variable {baseModule : String} {before after : ImportManager}

theorem yields_registerNode {buildable : Buildable} {answer : Unit}
    (h : (registerNode baseModule buildable).Yields before answer after) :
    before.Grows after ∧ after.KnowsAll
      (buildable.callable :: buildable.kind.wrapper baseModule :: buildable.allTags) := by
  obtain ⟨⟨⟩, first, hcallable, h⟩ := h.of_bind
  obtain ⟨⟨⟩, second, hwrapper, htags⟩ := h.of_bind
  obtain ⟨hgrows, hcallable⟩ := yields_require hcallable
  obtain ⟨hgrows', hwrapper⟩ := yields_require hwrapper
  obtain ⟨hgrows'', htags⟩ := yields_forM_require htags
  refine ⟨hgrows.trans (hgrows'.trans hgrows''), ?_⟩
  exact List.forall_mem_cons.mpr ⟨(hgrows'.trans hgrows'').knows hcallable,
    List.forall_mem_cons.mpr ⟨hgrows''.knows hwrapper, htags⟩⟩

theorem yields_registerSymbol {symbol : Symbol} {summary result : ImportSummary}
    (h : (registerVisit baseModule summary (.value (.symbol symbol))).Yields before result after) :
    before.Grows after ∧ after.KnowsAll (Visit.symbols baseModule (.value (.symbol symbol))) := by
  rw [registerVisit] at h
  split at h
  · next hplain =>
      obtain ⟨-, rfl⟩ := h.of_pure
      have hordinary : (Visit.value (.symbol symbol)).symbols baseModule = [] := by
        simp_all [Visit.symbols, Value.role]
      rw [hordinary]
      exact ⟨.refl _, List.forall_mem_nil _⟩
  · obtain ⟨answer, between, hoffer, h⟩ := h.of_bind
    obtain rfl : after = between := by
      split at h <;> exact h.of_pure.2
    obtain ⟨hgrows, hknows⟩ := yields_offer hoffer
    refine ⟨hgrows, fun other hother => ?_⟩
    -- A symbol that is skipped cannot be imported, so its visit refers to none.
    rw [Visit.symbols] at hother
    split at hother
    · next hrole =>
        rw [List.mem_singleton.mp hother]
        apply hknows
        simp only [Value.role] at hrole
        grind
    · contradiction

theorem yields_registerVisit {summary result : ImportSummary} {visit : Visit}
    (h : (registerVisit baseModule summary visit).Yields before result after) :
    before.Grows after ∧ after.KnowsAll (visit.symbols baseModule) := by
  cases visit with
  | node id buildable =>
      obtain ⟨⟨⟩, between, hnode, hpure⟩ := h.of_bind
      obtain ⟨-, rfl⟩ := hpure.of_pure
      exact yields_registerNode hnode
  | value value =>
      cases value with
      | symbol symbol => exact yields_registerSymbol h
      | _ =>
          obtain ⟨-, rfl⟩ := h.of_pure
          exact ⟨.refl _, List.forall_mem_nil _⟩

/-- The symbols of everything that stands below a value are known. -/
def KnowsBelow (graph : ConfigGraph) (baseModule : String) (manager : ImportManager)
    (value : Value) : Prop :=
  ∀ part, graph.Below value part →
    ∃ visit, graph.visit? part = some visit ∧ manager.KnowsAll (visit.symbols baseModule)

theorem KnowsBelow.part {graph : ConfigGraph} {whole part : Value}
    (h : KnowsBelow graph baseModule before whole) (hpart : part ∈ graph.parts whole) :
    KnowsBelow graph baseModule before part :=
  fun other hbelow => h other (.head hpart hbelow)

theorem KnowsBelow.knows {graph : ConfigGraph} {value : Value} {visit : Visit}
    (h : KnowsBelow graph baseModule before value) (hvisit : graph.visit? value = some visit) :
    before.KnowsAll (visit.symbols baseModule) := by
  obtain ⟨found, hfound, hknows⟩ := h value .refl
  rw [hvisit] at hfound
  obtain rfl := Option.some.inj hfound
  exact hknows

theorem KnowsBelow.grows {graph : ConfigGraph} {value : Value}
    (h : KnowsBelow graph baseModule before value) (hgrows : before.Grows after) :
    KnowsBelow graph baseModule after value := by
  intro part hbelow
  obtain ⟨visit, hvisit, hknows⟩ := h part hbelow
  exact ⟨visit, hvisit, hgrows.knowsAll hknows⟩

theorem yields_registerFixture {graph : ConfigGraph} {summary result : ImportSummary}
    {fixture : Fixture}
    (h : (registerFixture graph baseModule summary fixture).Yields before result after) :
    before.Grows after ∧
      ∀ value ∈ fixture.values, KnowsBelow graph baseModule after value := by
  rw [registerFixture] at h
  cases hentries : graph.iterateAll fixture.bodySlots with
  | error error =>
      rw [hentries] at h
      cases h
  | ok entries =>
      rw [hentries] at h
      obtain ⟨hgrows, hvisits⟩ := yields_foldlM
        (fun manager entry => manager.KnowsAll (entry.1.symbols baseModule))
        (fun _ _ _ _ _ => yields_registerVisit) (fun _ _ _ hgrows => hgrows.knowsAll) h
      refine ⟨hgrows, fun value hvalue part hbelow => ?_⟩
      obtain ⟨visit, hvisit, hmem⟩ := ConfigGraph.iterateAll_covers hentries hvalue hbelow
      obtain ⟨entry, hentry, rfl⟩ := List.mem_map.mp hmem
      exact ⟨entry.1, hvisit, hvisits entry hentry⟩

theorem yields_registerFixtures {graph : ConfigGraph} {result : ImportSummary}
    {fixtures : List Fixture}
    (h : (registerFixtures graph baseModule fixtures).Yields before result after) :
    ∀ fixture ∈ fixtures, ∀ value ∈ fixture.values,
      KnowsBelow graph baseModule after value := by
  obtain ⟨summary, between, hfixtures, h⟩ := h.of_bind
  obtain ⟨-, hknows⟩ := yields_foldlM
    (fun manager fixture => ∀ value ∈ fixture.values,
      KnowsBelow graph baseModule manager value)
    (fun _ _ _ _ _ => yields_registerFixture)
    (fun _ _ _ hgrows hbefore value hvalue => (hbefore value hvalue).grows hgrows) hfixtures
  have hgrows : between.Grows after := by
    simp only at h
    split at h
    · obtain ⟨⟨⟩, last, hmodule, hpure⟩ := h.of_bind
      obtain ⟨-, rfl⟩ := hpure.of_pure
      exact yields_requireModule hmodule
    · obtain ⟨-, rfl⟩ := h.of_pure
      exact .refl _
  exact fun fixture hfixture value hvalue => (hknows fixture hfixture value hvalue).grows hgrows

end Registration

open Registration (KnowsBelow) in
theorem Task.knowsBelow_of_registerImports {task registered : Task} {summary : ImportSummary}
    (h : task.registerImports = (.ok summary, registered)) :
    registered = { task with imports := registered.imports } ∧
      ∀ fixture ∈ task.fixtures, ∀ value ∈ fixture.values,
        KnowsBelow task.graph task.baseModule registered.imports value := by
  rw [registerImports] at h
  rcases hrun : (Registration.registerFixtures task.graph task.baseModule task.fixtures).run.run
    task.imports with ⟨outcome, imports⟩
  rw [hrun] at h
  obtain ⟨rfl, rfl⟩ := Prod.mk.inj h
  exact ⟨rfl, Registration.yields_registerFixtures hrun⟩

end ConfigLowering
