import ConfigLowering.Proofs.Substitution.Translation
import ConfigLowering.Proofs.Transformer.Outcome

/-!
# Runs of the substitution

Everything that the substitution does to values when it succeeds, as a relation
between the values, their results and the states before and after. A run also says
which objects were made: their origins, in the order in which they got their
identities. Paths do not matter.
-/

namespace ConfigLowering.Substitution

abbrev State := TransformState ImportManager

/-! ## Steps of the transformer -/

variable (graph : ConfigGraph) (baseModule : String) (history : Buildable → History)

theorem yields_nameOf (symbol : Symbol) {before after : State} {name : String} :
    (nameOf symbol).Yields before name after ↔
      ∃ imports, before.context.add symbol = (.ok name, imports) ∧
        after = { before with context := imports } := by
  rw [nameOf, TransformM.yields_get_bind]
  rcases before.context.add symbol with ⟨error | given, imports⟩
  · simp [TransformM.yields_bind, TransformM.yields_set]
  · simp only [TransformM.yields_bind, TransformM.yields_set, TransformM.yields_pure]
    grind

theorem yields_onNode (id : NodeId) (buildable : Buildable) {before after : State}
    {plan : Plan ImportManager LoweringError (Arguments Value)} :
    ((transformer baseModule history).onNode id buildable).Yields before plan after ↔
      ∃ callee imports name imports',
        before.context.add (buildable.kind.wrapper baseModule) = (.ok callee, imports) ∧
        imports.add buildable.callable = (.ok name, imports') ∧
        plan = .rebuild (finishNode history buildable callee) ∧
        after = { before with context := imports' } := by
  simp only [transformer, TransformM.yields_bind, yields_nameOf, TransformM.yields_pure]
  constructor
  · rintro ⟨callee, _, ⟨imports, hcallee, rfl⟩, name, _, ⟨imports', hcallable, rfl⟩, rfl, rfl⟩
    exact ⟨callee, imports, name, imports', hcallee, hcallable, rfl, rfl⟩
  · rintro ⟨callee, imports, name, imports', hcallee, hcallable, rfl, rfl⟩
    exact ⟨callee, _, ⟨imports, hcallee, rfl⟩, name, _, ⟨imports', hcallable, rfl⟩, rfl, rfl⟩

theorem onValue_eq {value : Value} (h : ∀ symbol, value ≠ .symbol symbol) :
    (transformer baseModule history).onValue value = pure (.rebuild pure) := by
  cases value <;> first | rfl | exact absurd rfl (h _)

theorem yields_follow {value : Value} (h : ∀ symbol, value ≠ .symbol symbol)
    (transformed : SubstitutionM Value) {before after : State} {result : Value} :
    TransformM.Yields (do
        let plan ← (transformer baseModule history).onValue value
        Transformer.follow plan transformed) before result after ↔
      transformed.Yields before result after := by
  rw [onValue_eq baseModule history h]
  simp [Transformer.follow]

/-! ## Runs -/

/-- Origins of the objects made for a config node, the node's own call last. -/
def madeFor (id : NodeId) (buildable : Buildable) : List Origin :=
  buildable.tags.keys.map (.wrapper id) ++ [.node id]

inductive Run : State → List Value → List Value → List Origin → State → Prop
  | nil (state : State) : Run state [] [] [] state
  | cons {before between after : State} {value result : Value} {values results : List Value}
      {first rest : List Origin} :
      Run before [value] [result] first between →
      Run between values results rest after →
      Run before (value :: values) (result :: results)
        (first ++ rest) after
  | moved {before after : State} {values results : List Value} {made : List Origin}
      (start finish : Path) :
      Run { before with path := start } values results made after →
      Run before values results made { after with path := finish }
  | symbol {before : State} {symbol : Symbol} {name : String} {imports : ImportManager} :
      (Value.symbol symbol).role = .importableSymbol →
      before.context.add symbol = (.ok name, imports) →
      Run before [.symbol symbol] [.reference symbol] []
        { before with context := imports }
  | plain {before after : State} {value : Value} {results : List Value}
      {made : List Origin} :
      value.asNode? = none → value.codeId? = none → value.role = .ordinary →
      Run before value.children results made after →
      Run before [value] [value.rebuild ⟨0⟩ results] made after
  | knownCode {before : State} {value result : Value} {id : CodeId} :
      value.codeId? = some id → before.codeResults.lookup id = some result →
      Run before [value] [result] [] before
  | code {before after : State} {value : Value} {id : CodeId} {results : List Value}
      {made : List Origin} :
      value.codeId? = some id → before.codeResults.lookup id = none →
      Run before value.children results made after →
      Run before [value] [value.rebuild after.nextCode results]
        (made ++ [.code id])
        { after with
          nextCode := ⟨after.nextCode.index + 1⟩
          codeResults := (id, value.rebuild after.nextCode results) :: after.codeResults }
  | knownNode {before : State} {id : NodeId} {result : Value} :
      before.nodeResults.lookup id = some result →
      Run before [.node id] [result] [] before
  | node {before between after : State} {id : NodeId} {buildable : Buildable}
      {callee name : String} {imports imports' : ImportManager} {results : List Value}
      {result : Value} {made : List Origin} :
      before.nodeResults.lookup id = none → graph.get? id = some buildable →
      before.context.add (buildable.kind.wrapper baseModule) = (.ok callee, imports) →
      imports.add buildable.callable = (.ok name, imports') →
      Run { before with context := imports' }
        buildable.arguments.values results made between →
      (finishNode history buildable callee
        ⟨buildable.arguments.names.zip results⟩).Yields between result after →
      Run before [.node id] [result] (made ++ madeFor id buildable)
        { after with nodeResults := (id, result) :: after.nodeResults }

variable {graph baseModule history}

theorem Run.length_eq {before after : State} {values results : List Value}
    {made : List Origin} (h : Run graph baseModule history before values results made after) :
    results.length = values.length := by
  induction h with
  | cons _ _ _ ih => simp [ih]
  | moved _ _ _ ih => exact ih
  | _ => rfl

theorem Run.append {before between after : State} {values results more moreResults : List Value}
    {made moreMade : List Origin}
    (h : Run graph baseModule history before values results made between)
    (hmore : Run graph baseModule history between more moreResults moreMade after) :
    Run graph baseModule history before (values ++ more) (results ++ moreResults)
      (made ++ moreMade) after := by
  induction h with
  | nil => exact hmore
  | cons hfirst _ _ ih =>
      rw [List.append_assoc]
      exact .cons hfirst (ih hmore)
  | moved start finish _ ih => exact .moved start after.path (ih (.moved finish after.path hmore))
  | symbol hrole hadd => exact .cons (.symbol hrole hadd) hmore
  | plain hnode hcode hrole hchildren => exact .cons (.plain hnode hcode hrole hchildren) hmore
  | knownCode hcode hknown => exact .cons (.knownCode hcode hknown) hmore
  | code hcode hnew hchildren => exact .cons (.code hcode hnew hchildren) hmore
  | knownNode hknown => exact .cons (.knownNode hknown) hmore
  | node hnew hnode hcallee hcallable harguments hfinish =>
      exact .cons (.node hnew hnode hcallee hcallable harguments hfinish) hmore

/-! ## Every success is a run -/

/-- What the action does when it succeeds is a run over the value. -/
def Traced (graph : ConfigGraph) (baseModule : String) (history : Buildable → History)
    (action : SubstitutionM Value) (value : Value) : Prop :=
  ∀ before result after, action.Yields before result after →
    ∃ made, Run graph baseModule history before [value] [result] made after

variable {enter : NodeId → SubstitutionM Value}

theorem Traced.below {action : SubstitutionM Value} {value : Value}
    (h : Traced graph baseModule history action value) (step : PathStep) :
    Traced graph baseModule history (TransformM.below step action) value := by
  intro before result after hyields
  obtain ⟨between, haction, rfl⟩ := (TransformM.yields_below step action).mp hyields
  obtain ⟨made, hrun⟩ := h _ _ _ haction
  exact ⟨made, .moved _ _ hrun⟩

theorem run_of_transformItems {items results : List Value} {position : Nat}
    {before after : State}
    (h : ∀ item ∈ items, Traced graph baseModule history
      ((transformer baseModule history).transformValue enter item) item)
    (hyields : ((transformer baseModule history).transformItems enter items position).Yields
      before results after) :
    ∃ made, Run graph baseModule history before items results made after := by
  induction items generalizing results position before with
  | nil =>
      obtain ⟨rfl, rfl⟩ := hyields.of_pure
      exact ⟨[], .nil after⟩
  | cons item items ih =>
      obtain ⟨result, between, hitem, hrest⟩ := hyields.of_bind
      obtain ⟨rest, between', hitems, hpure⟩ := hrest.of_bind
      obtain ⟨rfl, rfl⟩ := hpure.of_pure
      obtain ⟨first, hfirst⟩ := (h item List.mem_cons_self).below _ _ _ _ hitem
      obtain ⟨made, hmade⟩ := ih (fun other hother => h other (List.mem_cons_of_mem _ hother))
        hitems
      exact ⟨first ++ made, .cons hfirst hmade⟩

theorem run_of_transformEntries {entries transformed : List (String × Value)}
    {step : String → PathStep} {before after : State}
    (h : ∀ item ∈ entries.map Prod.snd, Traced graph baseModule history
      ((transformer baseModule history).transformValue enter item) item)
    (hyields : ((transformer baseModule history).transformEntries enter step entries).Yields
      before transformed after) :
    ∃ results made, transformed = (entries.map Prod.fst).zip results ∧
      Run graph baseModule history before (entries.map Prod.snd) results made after := by
  induction entries generalizing transformed before with
  | nil =>
      obtain ⟨rfl, rfl⟩ := hyields.of_pure
      exact ⟨[], [], rfl, .nil after⟩
  | cons entry entries ih =>
      obtain ⟨name, item⟩ := entry
      obtain ⟨result, between, hitem, hrest⟩ := hyields.of_bind
      obtain ⟨rest, between', hentries, hpure⟩ := hrest.of_bind
      obtain ⟨rfl, rfl⟩ := hpure.of_pure
      obtain ⟨first, hfirst⟩ := (h item List.mem_cons_self).below _ _ _ _ hitem
      obtain ⟨results, made, rfl, hmade⟩ :=
        ih (fun other hother => h other (List.mem_cons_of_mem _ hother)) hentries
      exact ⟨result :: results, first ++ made, rfl, .cons hfirst hmade⟩

/-- A value that is no object is rebuilt from what its children become. -/
theorem traced_plain {value : Value} {rebuilt : SubstitutionM Value}
    (hsymbol : ∀ symbol, value ≠ .symbol symbol) (hnode : value.asNode? = none)
    (hcode : value.codeId? = none) (hrole : value.role = .ordinary)
    (h : ∀ before result after, rebuilt.Yields before result after →
      ∃ results made, Run graph baseModule history before value.children results made after ∧
        result = value.rebuild ⟨0⟩ results) :
    Traced graph baseModule history (do
      let plan ← (transformer baseModule history).onValue value
      Transformer.follow plan rebuilt) value := by
  intro before result after hyields
  obtain ⟨results, made, hchildren, rfl⟩ :=
    h _ _ _ ((yields_follow baseModule history hsymbol rebuilt).mp hyields)
  exact ⟨made, .plain hnode hcode hrole hchildren⟩

/-- A code object that is not known yet is made anew, from what its children become. -/
theorem traced_code {value : Value} {id : CodeId} {rebuilt : SubstitutionM Value}
    (hcode : value.codeId? = some id)
    (h : ∀ before result after, rebuilt.Yields before result after →
      ∃ results made between, Run graph baseModule history before value.children results made
        between ∧ result = value.rebuild between.nextCode results ∧
        after = { between with nextCode := ⟨between.nextCode.index + 1⟩ }) :
    Traced graph baseModule history (TransformM.onceForCode id do
      let plan ← (transformer baseModule history).onValue value
      Transformer.follow plan rebuilt) value := by
  intro before result after hyields
  have hsymbol : ∀ symbol, value ≠ .symbol symbol := by
    rintro symbol rfl
    contradiction
  obtain ⟨hknown, rfl⟩ | ⟨hnew, between, hrebuilt, rfl⟩ :=
    (TransformM.yields_onceForCode id _).mp hyields
  · exact ⟨[], .knownCode hcode hknown⟩
  · obtain ⟨results, made, inner, hchildren, rfl, rfl⟩ :=
      h _ _ _ ((yields_follow baseModule history hsymbol rebuilt).mp hrebuilt)
    exact ⟨made ++ [.code id], .code hcode hnew hchildren⟩

theorem traced_symbol (symbol : Symbol) :
    Traced graph baseModule history
      ((transformer baseModule history).transformValue enter (.symbol symbol))
      (.symbol symbol) := by
  intro before result after hyields
  by_cases hrole : (Value.symbol symbol).role = .importableSymbol
  · have hadded : TransformM.Yields (do
        let _ ← nameOf symbol
        return .reference symbol) before result after := by
      simpa [Transformer.transformValue, transformer, hrole, Transformer.follow] using hyields
    obtain ⟨name, between, hname, hpure⟩ := hadded.of_bind
    obtain ⟨imports, hadd, rfl⟩ := (yields_nameOf symbol).mp hname
    obtain ⟨rfl, rfl⟩ := hpure.of_pure
    exact ⟨[], .symbol hrole hadd⟩
  · have hkept : result = .symbol symbol ∧ after = before := by
      simpa [Transformer.transformValue, transformer, hrole, Transformer.follow] using hyields
    obtain ⟨rfl, rfl⟩ := hkept
    have hordinary : (Value.symbol symbol).role = .ordinary := by
      simp only [Value.role] at hrole ⊢
      split <;> simp_all
    exact ⟨[], .plain rfl rfl hordinary (.nil _)⟩

theorem traced_transformValue
    (henter : ∀ id, Traced graph baseModule history (enter id) (.node id)) (value : Value) :
    Traced graph baseModule history
      ((transformer baseModule history).transformValue enter value) value := by
  induction value using Value.induction_children with
  | step value ih =>
      cases value with
      | node id => exact henter id
      | symbol symbol => exact traced_symbol symbol
      | list items =>
          rw [Transformer.transformValue]
          apply traced_plain (by simp) rfl rfl rfl
          intro before result after hyields
          obtain ⟨results, _, hitems, hpure⟩ := hyields.of_bind
          obtain ⟨rfl, rfl⟩ := hpure.of_pure
          obtain ⟨made, hrun⟩ := run_of_transformItems ih hitems
          exact ⟨results, made, hrun, rfl⟩
      | tuple items =>
          rw [Transformer.transformValue]
          apply traced_plain (by simp) rfl rfl rfl
          intro before result after hyields
          obtain ⟨results, _, hitems, hpure⟩ := hyields.of_bind
          obtain ⟨rfl, rfl⟩ := hpure.of_pure
          obtain ⟨made, hrun⟩ := run_of_transformItems ih hitems
          exact ⟨results, made, hrun, rfl⟩
      | dict entries =>
          rw [Transformer.transformValue]
          apply traced_plain (by simp) rfl rfl rfl
          intro before result after hyields
          obtain ⟨entries, _, hentries, hpure⟩ := hyields.of_bind
          obtain ⟨rfl, rfl⟩ := hpure.of_pure
          obtain ⟨results, made, rfl, hrun⟩ := run_of_transformEntries ih hentries
          exact ⟨results, made, hrun, rfl⟩
      | call id callee positional named comments =>
          rw [Transformer.transformValue]
          apply traced_code rfl
          intro before result after hyields
          obtain ⟨firsts, between, hpositional, hyields⟩ := hyields.of_bind
          obtain ⟨entries, between', hnamed, hyields⟩ := hyields.of_bind
          obtain ⟨fresh, _, hfresh, hpure⟩ := hyields.of_bind
          obtain ⟨rfl, rfl⟩ := TransformM.yields_freshCode.mp hfresh
          obtain ⟨rfl, rfl⟩ := hpure.of_pure
          obtain ⟨made, hfirsts⟩ := run_of_transformItems
            (fun item hitem => ih item (List.mem_append_left _ hitem)) hpositional
          obtain ⟨seconds, made', rfl, hseconds⟩ := run_of_transformEntries
            (fun item hitem => ih item (List.mem_append_right _ hitem)) hnamed
          -- Positional arguments and named ones are one list of children.
          refine ⟨_, _, _, hfirsts.append hseconds, ?_, rfl⟩
          simp [Value.rebuild, ← hfirsts.length_eq]
      | tagged id tagNames item =>
          rw [Transformer.transformValue]
          apply traced_code rfl
          intro before result after hyields
          obtain ⟨transformed, between, hitem, hyields⟩ := hyields.of_bind
          obtain ⟨fresh, _, hfresh, hpure⟩ := hyields.of_bind
          obtain ⟨rfl, rfl⟩ := TransformM.yields_freshCode.mp hfresh
          obtain ⟨rfl, rfl⟩ := hpure.of_pure
          obtain ⟨made, hrun⟩ := (ih item List.mem_cons_self).below _ _ _ _ hitem
          exact ⟨_, made, _, hrun, rfl, rfl⟩
      | _ =>
          apply traced_plain (by simp) rfl rfl rfl
          intro before result after hyields
          obtain ⟨rfl, rfl⟩ := hyields.of_pure
          exact ⟨[], [], .nil _, rfl⟩

theorem traced_transformNode (depth : Nat) (id : NodeId) :
    Traced graph baseModule history
      ((transformer baseModule history).transformNode graph depth id) (.node id) := by
  induction depth generalizing id with
  | zero =>
      intro before result after hyields
      exact absurd hyields (TransformM.yields_throw _)
  | succ depth ih =>
      intro before result after hyields
      rw [Transformer.transformNode, TransformM.yields_onceForNode] at hyields
      obtain ⟨hknown, rfl⟩ | ⟨hnew, between, hmade, rfl⟩ := hyields
      · exact ⟨[], .knownNode hknown⟩
      · cases hnode : graph.get? id with
        | none =>
            rw [graph.node_eq, hnode] at hmade
            exact absurd hmade (TransformM.yields_throw _)
        | some buildable =>
            rw [graph.node_eq, hnode] at hmade
            obtain ⟨plan, _, hplan, hmade⟩ := hmade.of_bind
            obtain ⟨callee, imports, name, imports', hcallee, hcallable, rfl, rfl⟩ :=
              (yields_onNode baseModule history id buildable).mp hplan
            obtain ⟨arguments, between', harguments, hfinish⟩ := hmade.of_bind
            obtain ⟨entries, _, hentries, hpure⟩ := harguments.of_bind
            obtain ⟨rfl, rfl⟩ := hpure.of_pure
            obtain ⟨results, made, rfl, hrun⟩ := run_of_transformEntries
              (fun item _ => traced_transformValue ih item) hentries
            exact ⟨made ++ madeFor id buildable,
              .node hnew hnode hcallee hcallable hrun hfinish⟩

theorem traced_runAt (root : Value) (base : Path) :
    Traced graph baseModule history ((transformer baseModule history).runAt graph root base)
      root := by
  intro before result after hyields
  obtain ⟨between, hroot, rfl⟩ := (TransformM.yields_around _ _ _).mp hyields
  obtain ⟨made, hrun⟩ := traced_transformValue (traced_transformNode _) root _ _ _ hroot
  exact ⟨made, .moved _ _ hrun⟩

end ConfigLowering.Substitution
