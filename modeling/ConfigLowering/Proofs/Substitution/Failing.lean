import ConfigLowering.Proofs.Substitution.Keeping
import ConfigLowering.Proofs.Substitution.UnsetTags
import ConfigLowering.Proofs.Value.Places

/-!
# Failing runs

Where all symbols have names, the substitution of a body fails only at a config node with tags
on an unset field. A failing run is one that succeeds up to this node: over what comes before
it, and over its own arguments.
-/

namespace ConfigLowering.Substitution

open Registration (KnowsBelow)
open TransformM

variable (graph : ConfigGraph) (baseModule : String) (history : Buildable → History)

/-- The run over some places fails at a node that stands at a path. -/
inductive FailsAt : State → List (Value × Path) → NodeId → Path → Prop
  | first {before : State} {places more : List (Value × Path)} {id : NodeId} {path : Path} :
      FailsAt before places id path → FailsAt before (places ++ more) id path
  | later {before between : State} {places more : List (Value × Path)} {results : List Value}
      {made : List Origin} {id : NodeId} {path : Path} :
      Run graph baseModule history before (places.map Prod.fst) results made between →
      FailsAt between more id path → FailsAt before (places ++ more) id path
  | moved {before : State} {places : List (Value × Path)} {id : NodeId} {path : Path}
      (start : Path) :
      FailsAt { before with path := start } places id path → FailsAt before places id path
  | children {before : State} {value : Value} {base path : Path} {id : NodeId} :
      value.asNode? = none →
      (∀ code, value.codeId? = some code → before.codeResults.lookup code = none) →
      FailsAt before (value.places base) id path → FailsAt before [(value, base)] id path
  | arguments {before : State} {parent id : NodeId} {buildable : Buildable} {base path : Path} :
      before.nodeResults.lookup parent = none → graph.get? parent = some buildable →
      FailsAt before (entryPlaces base .field buildable.arguments.entries) id path →
      FailsAt before [(.node parent, base)] id path
  | node {before between : State} {id : NodeId} {buildable : Buildable} {results : List Value}
      {made : List Origin} {path : Path} :
      before.nodeResults.lookup id = none → graph.get? id = some buildable →
      Run graph baseModule history before buildable.arguments.values results made between →
      FailsAt before [(.node id, path)] id path

/-- The error reports the least unset field with tags of the node. -/
def Reports (id : NodeId) (path : Path) (error : LoweringError) : Prop :=
  ∃ buildable field, graph.get? id = some buildable ∧ buildable.LacksFirst field ∧
    error = .taggedFieldNotSet field buildable.display buildable.arguments.names path

def Explained (before : State) (places : List (Value × Path)) (error : LoweringError) : Prop :=
  ∃ id path, FailsAt graph baseModule history before places id path ∧
    Reports graph id path error

/-- What is known of the action that transforms a value, as long as the imports stay the same:
its success is a run, its failure is explained, and it comes back to its path. -/
structure Tracked (imports : ImportManager) (action : SubstitutionM Value) (value : Value) :
    Prop where
  traced : Traced graph baseModule history action value
  samePath : action.Respects SamePath
  sameImports : action.Respects (Keeps (· = imports))
  explained : ∀ before error, before.context = imports → action.Raises before error →
    Explained graph baseModule history before [(value, before.path)] error

variable {graph baseModule history} {imports : ImportManager} {before : State}
  {error : LoweringError}

theorem Explained.map {first second : State} {places more : List (Value × Path)}
    (h : Explained graph baseModule history first places error)
    (hplaces : ∀ id path, FailsAt graph baseModule history first places id path →
      FailsAt graph baseModule history second more id path) :
    Explained graph baseModule history second more error := by
  obtain ⟨id, path, hfails, hreports⟩ := h
  exact ⟨id, path, hplaces id path hfails, hreports⟩

theorem FailsAt.later_cons {value result : Value} {base path : Path} {between : State}
    {made : List Origin} {more : List (Value × Path)} {id : NodeId}
    (hrun : Run graph baseModule history before [value] [result] made between)
    (h : FailsAt graph baseModule history between more id path) :
    FailsAt graph baseModule history before ((value, base) :: more) id path :=
  @FailsAt.later graph baseModule history before between [(value, base)] more _ _ _ _ hrun h

/-! ## Sequences -/

/-- The first item of a sequence fails, or a later one does in the state that it leaves. -/
theorem explained_cons {β : Type} {action : SubstitutionM Value} {next : Value → SubstitutionM β}
    {value : Value} {step : PathStep} (places : Path → List (Value × Path))
    (h : Tracked graph baseModule history imports action value) (hbefore : before.context = imports)
    (hraises : (TransformM.below step action >>= next).Raises before error)
    (hnext : ∀ result between, between.context = imports → (next result).Raises between error →
      Explained graph baseModule history between (places between.path) error) :
    Explained graph baseModule history before
      ((value, before.path.child step) :: places before.path) error := by
  rw [raises_bind, raises_below] at hraises
  rcases hraises with hfirst | ⟨result, between, hyields, hrest⟩
  · exact (h.explained { before with path := before.path.child step } error hbefore hfirst).map
      fun id path hfails => .first (.moved _ hfails)
  · have himports : between.context = imports :=
      (h.sameImports.below (frame_keeps _) step).of_yields hyields hbefore
    have hpath : between.path = before.path :=
      (h.samePath.below frame_samePath step).of_yields hyields
    obtain ⟨made, hrun⟩ := h.traced.below step _ _ _ hyields
    have hlater := hnext result between himports hrest
    rw [hpath] at hlater
    exact hlater.map fun id path => .later_cons hrun

variable {enter : NodeId → SubstitutionM Value}

theorem explained_transformItems {items : List Value} {position : Nat}
    (h : ∀ item ∈ items, Tracked graph baseModule history imports
      ((transformer baseModule history).transformValue enter item) item)
    (hbefore : before.context = imports)
    (hraises : ((transformer baseModule history).transformItems enter items position).Raises before
      error) :
    Explained graph baseModule history before (itemPlaces before.path items position) error := by
  induction items generalizing position before with
  | nil => exact absurd hraises (raises_pure _)
  | cons item items ih =>
      refine explained_cons (fun path => itemPlaces path items (position + 1))
        (h item List.mem_cons_self) hbefore hraises fun result between himports hrest => ?_
      exact ih (fun other hother => h other (List.mem_cons_of_mem _ hother)) himports
        ((raises_bind_pure _ _).mp hrest)

theorem explained_transformEntries {entries : List (String × Value)} {step : String → PathStep}
    (h : ∀ item ∈ entries.map Prod.snd, Tracked graph baseModule history imports
      ((transformer baseModule history).transformValue enter item) item)
    (hbefore : before.context = imports)
    (hraises : ((transformer baseModule history).transformEntries enter step entries).Raises before
      error) :
    Explained graph baseModule history before (entryPlaces before.path step entries) error := by
  induction entries generalizing before with
  | nil => exact absurd hraises (raises_pure _)
  | cons entry entries ih =>
      obtain ⟨name, item⟩ := entry
      refine explained_cons (fun path => entryPlaces path step entries)
        (h item List.mem_cons_self) hbefore hraises fun result between himports hrest => ?_
      exact ih (fun other hother => h other (List.mem_cons_of_mem _ hother)) himports
        ((raises_bind_pure _ _).mp hrest)

theorem after_transformItems {items results : List Value} {position : Nat} {between : State}
    (h : ∀ item ∈ items, Tracked graph baseModule history imports
      ((transformer baseModule history).transformValue enter item) item)
    (hbefore : before.context = imports)
    (hyields : ((transformer baseModule history).transformItems enter items position).Yields before
      results between) :
    between.context = imports ∧ between.path = before.path ∧
      ∃ made, Run graph baseModule history before items results made between := by
  have himports := (Transformer.respects_transformItems (frame_keeps (· = imports)) position
    fun item hitem => (h item hitem).sameImports).of_yields hyields hbefore
  have hpath := (Transformer.respects_transformItems frame_samePath position
    fun item hitem => (h item hitem).samePath).of_yields hyields
  exact ⟨himports, hpath, run_of_transformItems (fun item hitem => (h item hitem).traced) hyields⟩

theorem after_transformEntries {entries transformed : List (String × Value)}
    {step : String → PathStep} {between : State}
    (h : ∀ item ∈ entries.map Prod.snd, Tracked graph baseModule history imports
      ((transformer baseModule history).transformValue enter item) item)
    (hbefore : before.context = imports)
    (hyields : ((transformer baseModule history).transformEntries enter step entries).Yields before
      transformed between) :
    between.context = imports ∧ between.path = before.path ∧
      ∃ results made, transformed = (entries.map Prod.fst).zip results ∧
        Run graph baseModule history before (entries.map Prod.snd) results made between := by
  have himports := (Transformer.respects_transformEntries (frame_keeps (· = imports)) step
    fun item hitem => (h item hitem).sameImports).of_yields hyields hbefore
  have hpath := (Transformer.respects_transformEntries frame_samePath step
    fun item hitem => (h item hitem).samePath).of_yields hyields
  exact ⟨himports, hpath, run_of_transformEntries (fun item hitem => (h item hitem).traced) hyields⟩

/-! ## Values -/

theorem raises_follow {value : Value} (h : ∀ symbol, value ≠ .symbol symbol)
    (transformed : SubstitutionM Value) :
    TransformM.Raises (do
        let plan ← (transformer baseModule history).onValue value
        Transformer.follow plan transformed) before error ↔
      transformed.Raises before error := by
  rw [onValue_eq baseModule history h, pure_bind, Transformer.follow, raises_bind]
  simp

theorem not_raises_symbol {symbol : Symbol}
    (h : (Value.symbol symbol).role = .importableSymbol → before.context.Knows symbol) :
    ¬ ((transformer baseModule history).transformValue enter (.symbol symbol)).Raises before
      error := by
  by_cases hrole : (Value.symbol symbol).role = .importableSymbol
  · obtain ⟨name, hname⟩ := nameOf_of_knows (h hrole)
    have hadds : (transformer baseModule history).transformValue enter (.symbol symbol) = (do
        let _ ← nameOf symbol
        return .reference symbol) := by
      simp [Transformer.transformValue, transformer, hrole, Transformer.follow]
    rw [hadds, hname.raises_bind_iff]
    exact raises_pure _
  · simp [Transformer.transformValue, transformer, hrole, Transformer.follow]

/-- A container or leaf fails in its children, and so does an object that is not known yet. -/
theorem explained_follow {value : Value} {transformed : SubstitutionM Value}
    (hsymbol : ∀ symbol, value ≠ .symbol symbol) (hnode : value.asNode? = none)
    (hcode : ∀ code, value.codeId? = some code → before.codeResults.lookup code = none)
    (hraises : TransformM.Raises (do
      let plan ← (transformer baseModule history).onValue value
      Transformer.follow plan transformed) before error)
    (h : transformed.Raises before error →
      Explained graph baseModule history before (value.places before.path) error) :
    Explained graph baseModule history before [(value, before.path)] error :=
  (h ((raises_follow hsymbol transformed).mp hraises)).map fun _ _ => .children hnode hcode

/-- The imports are enough for the value, and the depth for its references. -/
structure Served (graph : ConfigGraph) (baseModule : String) (imports : ImportManager)
    (depth : Nat) (value : Value) : Prop where
  knows : KnowsBelow graph baseModule imports value
  covers : graph.Covers depth value

theorem Served.child {depth : Nat} {value child : Value}
    (h : Served graph baseModule imports depth value) (hchild : child ∈ value.children) :
    Served graph baseModule imports depth child where
  knows := by
    refine h.knows.part ?_
    rwa [graph.parts_eq_children]
    cases value <;> simp_all [Value.asNode?, Value.children]
  covers := h.covers.children hchild

theorem keeps_of_served :
    (transformer baseModule history).Respects graph (Keeps (· = imports))
      (KnowsBelow graph baseModule imports) :=
  transformer_respects (frame_keeps _) (fun _ hwhole _ => hwhole.part) <| by
    intro value visit hvalue hvisit symbol hsymbol before name after hadd hbefore
    rw [hbefore] at hadd
    exact ImportManager.add_of_knows (hvalue.knows hvisit symbol hsymbol) hadd

theorem samePath_transformer (graph : ConfigGraph) (baseModule : String)
    (history : Buildable → History) :
    (transformer baseModule history).Respects graph SamePath fun _ => True :=
  transformer_respects frame_samePath (fun _ _ _ _ => trivial)
    fun _ _ _ _ _ _ _ _ _ _ => rfl

theorem samePath_transformValue (graph : ConfigGraph) (baseModule : String)
    (history : Buildable → History) (depth : Nat) (value : Value) :
    ((transformer baseModule history).transformValue
      ((transformer baseModule history).transformNode graph depth) value).Respects SamePath :=
  Transformer.respects_transformValue frame_samePath
    (samePath_transformer graph baseModule history)
    (fun _ _ => Transformer.respects_transformNode frame_samePath
      (samePath_transformer graph baseModule history) depth trivial) trivial

theorem sameImports_transformValue {value : Value}
    (h : KnowsBelow graph baseModule imports value) (depth : Nat) :
    ((transformer baseModule history).transformValue
      ((transformer baseModule history).transformNode graph depth) value).Respects
        (Keeps (· = imports)) :=
  Transformer.respects_transformValue (frame_keeps _) keeps_of_served
    (fun _ => Transformer.respects_transformNode (frame_keeps _) keeps_of_served depth) h

theorem tracked_transformValue {depth : Nat}
    (henter : ∀ id, Served graph baseModule imports depth (.node id) →
      ∀ before error, before.context = imports →
        ((transformer baseModule history).transformNode graph depth id).Raises before error →
          Explained graph baseModule history before [(.node id, before.path)] error)
    {value : Value} (hvalue : Served graph baseModule imports depth value) :
    Tracked graph baseModule history imports ((transformer baseModule history).transformValue
      ((transformer baseModule history).transformNode graph depth) value) value := by
  induction value using Value.induction_children with
  | step value ih =>
      have hchildren := fun child hchild => ih child hchild (hvalue.child hchild)
      refine ⟨traced_transformValue (traced_transformNode depth) value,
        samePath_transformValue graph baseModule history depth value,
        sameImports_transformValue hvalue.knows depth, fun before error hbefore hraises => ?_⟩
      cases value with
      | node id => exact henter id hvalue before error hbefore hraises
      | symbol symbol =>
          refine absurd hraises (not_raises_symbol fun hrole => ?_)
          rw [hbefore]
          exact hvalue.knows.knows rfl symbol (by simp [Visit.symbols, hrole])
      | list items =>
          rw [Transformer.transformValue] at hraises
          refine explained_follow (by simp) rfl (by rintro _ ⟨⟩) hraises fun h => ?_
          exact explained_transformItems hchildren hbefore ((raises_bind_pure _ _).mp h)
      | tuple items =>
          rw [Transformer.transformValue] at hraises
          refine explained_follow (by simp) rfl (by rintro _ ⟨⟩) hraises fun h => ?_
          exact explained_transformItems hchildren hbefore ((raises_bind_pure _ _).mp h)
      | dict entries =>
          rw [Transformer.transformValue] at hraises
          refine explained_follow (by simp) rfl (by rintro _ ⟨⟩) hraises fun h => ?_
          exact explained_transformEntries hchildren hbefore ((raises_bind_pure _ _).mp h)
      | call id callee positional named comments =>
          rw [Transformer.transformValue, raises_onceForCode] at hraises
          obtain ⟨hnew, hraises⟩ := hraises
          refine explained_follow (by simp) rfl
            (fun code hcode => Option.some.inj hcode ▸ hnew) hraises fun h => ?_
          have hpositional := fun item hitem => hchildren item (List.mem_append_left _ hitem)
          have hnamed := fun item hitem => hchildren item (List.mem_append_right _ hitem)
          rcases (raises_bind _ _).mp h with hfirst | ⟨firsts, between, hfirsts, hrest⟩
          · exact (explained_transformItems hpositional hbefore hfirst).map fun _ _ => .first
          obtain ⟨himports, hpath, made, hrun⟩ := after_transformItems hpositional hbefore hfirsts
          rcases (raises_bind _ _).mp hrest with hsecond | ⟨seconds, last, -, hcall⟩
          · have hexplained := explained_transformEntries hnamed himports hsecond
            rw [hpath] at hexplained
            rw [← map_fst_itemPlaces before.path positional 0] at hrun
            exact hexplained.map fun _ _ => .later hrun
          · exact absurd ((raises_bind_pure _ _).mp hcall) raises_freshCode
      | tagged id tagNames item =>
          rw [Transformer.transformValue, raises_onceForCode] at hraises
          obtain ⟨hnew, hraises⟩ := hraises
          refine explained_follow (by simp) rfl
            (fun code hcode => Option.some.inj hcode ▸ hnew) hraises fun h => ?_
          refine explained_cons (fun _ => []) (hchildren item List.mem_cons_self) hbefore h
            fun result between _ htagged => ?_
          exact absurd ((raises_bind_pure _ _).mp htagged) raises_freshCode
      | _ =>
          rw [Transformer.transformValue] at hraises
          · refine explained_follow (by simp) rfl (by rintro _ ⟨⟩) hraises fun h => ?_
            exact absurd h (raises_pure _)
          all_goals simp

/-! ## Nodes -/

theorem onNode_of_knows {buildable : Buildable} (id : NodeId)
    (hwrapper : before.context.Knows (buildable.kind.wrapper baseModule))
    (hcallable : before.context.Knows buildable.callable) :
    ∃ callee, ((transformer baseModule history).onNode id buildable).Yields before
      (.rebuild (finishNode history buildable callee)) before := by
  obtain ⟨callee, hcallee⟩ := ImportManager.exists_add_of_knows hwrapper
  obtain ⟨name, hname⟩ := ImportManager.exists_add_of_knows hcallable
  exact ⟨callee, (yields_onNode baseModule history id buildable).mpr
    ⟨callee, before.context, name, before.context, hcallee, hname, rfl, rfl⟩⟩

theorem explained_transformNode (hgraph : graph.WellFormed) {depth : Nat} {id : NodeId}
    (h : Served graph baseModule imports depth (.node id)) (hbefore : before.context = imports)
    (hraises : ((transformer baseModule history).transformNode graph depth id).Raises before
      error) :
    Explained graph baseModule history before [(.node id, before.path)] error := by
  have hrank : graph.rank id ≤ depth := h.covers id (by simp [Value.nodeReferences])
  induction depth generalizing id before error with
  | zero =>
      have hpos := graph.rank_pos id
      omega
  | succ depth ih =>
      rw [Transformer.transformNode, raises_onceForNode] at hraises
      obtain ⟨hnew, hraises⟩ := hraises
      obtain ⟨visit, hvisit, hknows⟩ := h.knows _ .refl
      obtain ⟨buildable, hnode, rfl⟩ := Option.map_eq_some_iff.mp hvisit
      rw [graph.node_eq, hnode] at hraises
      obtain ⟨hcallable, hknows⟩ := List.forall_mem_cons.mp hknows
      obtain ⟨hwrapper, htags⟩ := List.forall_mem_cons.mp hknows
      rw [← hbefore] at hcallable hwrapper
      obtain ⟨callee, hplan⟩ := onNode_of_knows id hwrapper hcallable
      replace hraises := hplan.raises_bind_iff.mp hraises
      have harguments : ∀ item ∈ buildable.arguments.entries.map Prod.snd,
          Tracked graph baseModule history imports ((transformer baseModule history).transformValue
            ((transformer baseModule history).transformNode graph depth) item) item := by
        intro item hitem
        have hpart : item ∈ graph.parts (.node id) := ConfigGraph.parts_node hnode ▸ hitem
        refine tracked_transformValue (fun child hchild before error hbefore hraises => ?_)
          ⟨h.knows.part hpart, hgraph.covers_argument hrank hpart⟩
        exact ih hchild hbefore hraises (hchild.covers child (by simp [Value.nodeReferences]))
      rcases (raises_bind _ _).mp hraises with hentries | ⟨arguments, between, hyields, hfinish⟩
      · have hexplained := explained_transformEntries harguments hbefore
          ((raises_bind_pure _ _).mp hentries)
        exact hexplained.map fun _ _ => .arguments hnew hnode
      · obtain ⟨entries, _, hentries, hpure⟩ := hyields.of_bind
        obtain ⟨rfl, rfl⟩ := hpure.of_pure
        obtain ⟨himports, hpath, results, made, rfl, hrun⟩ :=
          after_transformEntries harguments hbefore hentries
        have hwell := hgraph.nodes id buildable hnode
        have hnames : (⟨(buildable.arguments.entries.map Prod.fst).zip results⟩ :
            Arguments Value).names = buildable.arguments.names :=
          Arguments.names_zip hrun.length_eq
        obtain ⟨field, hfield, herror⟩ :=
          raises_finishNode hwell hnames (himports ▸ htags) hfinish
        rw [hpath] at herror
        exact ⟨id, before.path, .node hnew hnode hrun, buildable, field, hnode, hfield, herror⟩

end ConfigLowering.Substitution
