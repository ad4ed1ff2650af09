import ConfigLowering.Proofs.Registration.Completeness
import ConfigLowering.Proofs.Substitution.Fixtures
import ConfigLowering.Proofs.Transformer.Keeping

/-!
# What the substitution keeps

The substitution changes the imports only by adding symbols of the values that it meets.
So it keeps every property that adding these symbols keeps, also when it fails.
-/

namespace ConfigLowering

/-- Adding the symbol does not destroy the property. -/
def ImportManager.KeptByAdding (kept : ImportManager → Prop) (symbol : Symbol) : Prop :=
  ∀ manager name after, kept manager → manager.add symbol = (.ok name, after) → kept after

namespace Substitution

open ImportManager (KeptByAdding)
open TransformM

/-- The relation does not mind that the symbol is added. -/
def Allows (related : State → State → Prop) (symbol : Symbol) : Prop :=
  ∀ before name imports, before.context.add symbol = (.ok name, imports) →
    related before { before with context := imports }

variable {related : State → State → Prop} {graph : ConfigGraph} {baseModule : String}
  {history : Buildable → History} {holds : Value → Prop} (frame : Frame related)
include frame

/-! ## Actions -/

theorem respects_nameOf {symbol : Symbol} (h : Allows related symbol) :
    (nameOf symbol).Respects related := by
  rw [nameOf]
  refine respects_get_bind fun before => ?_
  rcases hadd : before.context.add symbol with ⟨error | name, imports⟩
  · obtain ⟨-, -, -, rfl⟩ := ImportManager.add_eq_error_iff.mp hadd
    exact frame.refl before
  · exact h before name imports hadd

theorem respects_finishNode {buildable : Buildable}
    (h : ∀ tag ∈ buildable.allTags, Allows related tag) (callee : String)
    (arguments : Arguments Value) :
    (finishNode history buildable callee arguments).Respects related := by
  have hattach : ∀ entry ∈ buildable.tags.toList, ∀ arguments,
      (attachTags buildable arguments entry.1 entry.2).Respects related := by
    rintro ⟨field, tags⟩ hentry arguments
    have htags : ∀ tag ∈ tags.toList, (nameOf tag).Respects related := fun tag htag =>
      respects_nameOf frame (h tag (List.mem_flatMap.mpr ⟨_, hentry, htag⟩))
    rw [attachTags]
    split
    · exact (respects_currentPath frame).bind frame fun _ => respects_throw frame _
    · exact (Respects.mapM frame htags).bind frame fun _ =>
        (respects_freshCode frame).bind frame fun _ => respects_pure frame _
  exact (Respects.foldlM frame hattach arguments).bind frame fun _ =>
    (respects_freshCode frame).bind frame fun _ => respects_pure frame _

/-! ## The transformer -/

theorem transformer_respects
    (hparts : ∀ whole, holds whole → ∀ part ∈ graph.parts whole, holds part)
    (hsymbols : ∀ value visit, holds value → graph.visit? value = some visit →
      ∀ symbol ∈ visit.symbols baseModule, Allows related symbol) :
    (transformer baseModule history).Respects graph related holds where
  parts := hparts
  onNode := by
    intro id buildable hheld hnode transformed htransformed
    have hallowed := hsymbols _ _ hheld (ConfigGraph.visit?_node hnode)
    have hcallable := hallowed _ List.mem_cons_self
    have hwrapper := hallowed _ (List.mem_cons_of_mem _ List.mem_cons_self)
    have htags := fun tag htag =>
      hallowed tag (List.mem_cons_of_mem _ (List.mem_cons_of_mem _ htag))
    simp only [transformer, bind_assoc, pure_bind]
    refine (respects_nameOf frame hwrapper).bind frame fun callee =>
      (respects_nameOf frame hcallable).bind frame fun _ => ?_
    exact htransformed.bind frame fun arguments => respects_finishNode frame htags callee arguments
  onValue := by
    intro value hheld transformed htransformed
    by_cases hrole : value.role = .importableSymbol
    · cases value <;> simp only [Value.role, reduceCtorEq] at hrole
      case symbol symbol =>
        have hrole : (Value.symbol symbol).role = .importableSymbol := hrole
        have hallowed := hsymbols (.symbol symbol) _ hheld rfl symbol
          (by simp [Visit.symbols, hrole])
        simp only [transformer, hrole, if_true, bind_assoc, pure_bind]
        exact (respects_nameOf frame hallowed).bind frame fun _ => respects_pure frame _
    · cases value with
      | symbol symbol =>
          simp only [transformer, hrole, if_false, pure_bind]
          exact respects_pure frame _
      | _ => exact htransformed.bind frame fun _ => respects_pure frame _

omit frame

theorem allows_of_keptByAdding {kept : ImportManager → Prop} {symbol : Symbol}
    (h : KeptByAdding kept symbol) : Allows (Keeps kept) symbol :=
  fun _ _ _ hadd hkept => h _ _ _ hkept hadd

/-! ## Fixtures -/

variable {kept : ImportManager → Prop}

theorem keeps_declarations (h : (transformer baseModule history).Respects graph (Keeps kept) holds)
    {declarations : List (Variable × Nat)}
    (hvalues : ∀ declaration ∈ declarations, holds declaration.1.expression) :
    TransformM.Respects (Keeps kept)
      (declarations.mapM fun ((declaration, position) : Variable × Nat) => do
        let expression ← (transformer baseModule history).runAt graph declaration.expression
          (Fixture.variablePath position)
        return ({ declaration with expression } : Variable)) :=
  Respects.mapM (frame_keeps kept) fun declaration hmem =>
    (Transformer.keeps_runAt h (hvalues declaration hmem) _).bind (frame_keeps kept)
      fun _ => respects_pure (frame_keeps kept) _

theorem keeps_substituteBody
    (h : (transformer baseModule history).Respects graph (Keeps kept) holds)
    {fixture : Fixture} (hvalues : ∀ value ∈ fixture.values, holds value) :
    (substituteBody graph (transformer baseModule history) fixture).Respects (Keeps kept) := by
  have frame := frame_keeps kept
  rw [Fixture.values_eq] at hvalues
  obtain ⟨hexpressions, houtput⟩ := List.forall_mem_append.mp hvalues
  refine (keeps_declarations h fun declaration hmem => ?_).bind frame fun _ => ?_
  · exact hexpressions _ (List.mem_map_of_mem (List.fst_mem_of_mem_zipIdx hmem))
  · exact (Transformer.keeps_runAt h (houtput _ List.mem_cons_self) _).bind frame
      fun _ => respects_pure frame _

theorem keeps_substituteFixtures
    (h : (transformer baseModule history).Respects graph (Keeps kept) holds)
    {fixtures : List Fixture}
    (hvalues : ∀ fixture ∈ fixtures, ∀ value ∈ fixture.values, holds value)
    {progress : Progress} (hprogress : kept progress.imports) :
    kept (substituteFixtures graph baseModule history fixtures progress).2.2.imports := by
  induction fixtures generalizing progress with
  | nil => exact hprogress
  | cons fixture fixtures ih =>
      have hfixture :
          kept (substituteFixture graph baseModule history fixture progress).2.imports :=
        keeps_substituteBody h (hvalues fixture List.mem_cons_self) _ hprogress
      rw [substituteFixtures]
      rcases hrun : substituteFixture graph baseModule history fixture progress
        with ⟨outcome, middle⟩
      rw [hrun] at hfixture
      cases outcome with
      | error error => exact hfixture
      | ok transformed =>
          exact ih (fun other hother => hvalues other (List.mem_cons_of_mem _ hother)) hfixture

end Substitution

/-- The imports after a substitution, whether it succeeds or not, have every property that
they had before and that adding the symbols of the bodies keeps. -/
theorem Task.substituteWith_keeps (kept : ImportManager → Prop) (holds : Value → Prop)
    {task : Task} (history : Buildable → History)
    (hparts : ∀ whole, holds whole → ∀ part ∈ task.graph.parts whole, holds part)
    (hvalues : ∀ fixture ∈ task.fixtures, ∀ value ∈ fixture.values, holds value)
    (hsymbols : ∀ value visit, holds value → task.graph.visit? value = some visit →
      ∀ symbol ∈ visit.symbols task.baseModule, ImportManager.KeptByAdding kept symbol)
    (himports : kept task.imports) : kept (task.substituteWith history).2.imports :=
  Substitution.keeps_substituteFixtures
    (Substitution.transformer_respects (TransformM.frame_keeps kept) hparts
      fun value visit hvalue hvisit symbol hsymbol =>
        Substitution.allows_of_keptByAdding (hsymbols value visit hvalue hvisit symbol hsymbol))
    hvalues himports

end ConfigLowering
