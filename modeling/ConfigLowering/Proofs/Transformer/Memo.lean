import ConfigLowering.Proofs.Arguments
import ConfigLowering.Proofs.Transformer.Rules

/-!
# Kept results

The engine keeps one result for a config node and one for a code object, from one root to the
next and also when a root fails. For local rules nothing of that shows: every root comes to what
plain recursion makes of it, up to the identities of the objects made. What carries this is that
a result is kept only when it is the outcome of a transformation that is complete.
-/

namespace ConfigLowering

variable {σ ε α β γ δ : Type}

/-! ## Outcomes -/

/-- Both fail with one error, or both succeed with values that are related. -/
inductive OutcomesMatch (related : α → β → Prop) : Except ε α → Except ε β → Prop
  | error (error : ε) : OutcomesMatch related (.error error) (.error error)
  | ok {value : α} {other : β} (h : related value other) :
      OutcomesMatch related (.ok value) (.ok other)

def IsContents (result expected : Value) : Prop := expected = result.contents

theorem OutcomesMatch.map_contents {outcome expected : Except ε Value}
    (h : OutcomesMatch IsContents outcome expected) : outcome.map Value.contents = expected := by
  cases h with
  | error error => rfl
  | ok h => exact congrArg Except.ok h.symm

def Arguments.contents (arguments : Arguments Value) : Arguments Value :=
  ⟨Value.relabelEntries (fun _ => ⟨0⟩) arguments.entries⟩

/-! ## Carrying out rules -/

/-- What the engine keeps, and where it is, are the same. -/
structure TransformState.Untouched (before after : TransformState σ) : Prop where
  nodeResults : after.nodeResults = before.nodeResults
  codeResults : after.codeResults = before.codeResults
  path : after.path = before.path

/-- From every state the action comes to the outcome, and it leaves the engine alone. -/
def TransformM.Computes (related : α → β → Prop) (action : TransformM σ ε α)
    (expected : Located ε β) : Prop :=
  ∀ before, OutcomesMatch related (action.run.run before).1 (expected.atPath before.path) ∧
    before.Untouched (action.run.run before).2

inductive Plan.CarriesOut {parts : Type} (contents : parts → parts) :
    Plan σ ε parts → LocalPlan ε parts → Prop
  | replace (result : Value) : CarriesOut contents (.replace result) (.replace result.contents)
  | rebuild {finish : parts → TransformM σ ε Value} {rule : parts → Located ε Value}
      (h : ∀ given, (finish given).Computes IsContents (rule (contents given))) :
      CarriesOut contents (.rebuild finish) (.rebuild rule)

/-- The transformer does what the rules say, whatever the state. Its own part of the state may
change, as may the next identity, but no outcome depends on them. -/
structure Transformer.CarriesOut (transformer : Transformer σ ε) (rules : LocalRules ε) :
    Prop where
  ofGraphError : ∀ error, transformer.ofGraphError error = rules.ofGraphError error
  onNode : ∀ id buildable, (transformer.onNode id buildable).Computes
    (Plan.CarriesOut Arguments.contents) (rules.onNode id buildable)
  onValue : ∀ value, (transformer.onValue value).Computes
    (Plan.CarriesOut Value.contents) (rules.onValue value)

namespace TransformM

/-! ## Agreement under an invariant -/

/-- From a state with the invariant the action comes to the outcome, keeps the invariant, whether
it succeeds or fails, and ends where it started. -/
def Agrees (kept : TransformState σ → Prop) (related : α → β → Prop)
    (action : TransformM σ ε α) (expected : Located ε β) : Prop :=
  ∀ before, kept before →
    OutcomesMatch related (action.run.run before).1 (expected.atPath before.path) ∧
      kept (action.run.run before).2 ∧ (action.run.run before).2.path = before.path

/-- The invariant is about what the engine keeps. -/
def AboutResults (kept : TransformState σ → Prop) : Prop :=
  ∀ ⦃before after : TransformState σ⦄, kept before → after.nodeResults = before.nodeResults →
    after.codeResults = before.codeResults → kept after

variable {kept : TransformState σ → Prop} {related : α → β → Prop} {further : γ → δ → Prop}

theorem Computes.agrees {action : TransformM σ ε α} {expected : Located ε β}
    (h : action.Computes related expected) (hkept : AboutResults kept) :
    Agrees kept related action expected := by
  intro before hbefore
  obtain ⟨hmatch, huntouched⟩ := h before
  exact ⟨hmatch, hkept hbefore huntouched.nodeResults huntouched.codeResults, huntouched.path⟩

theorem agrees_pure {value : α} {other : β} (h : related value other) :
    Agrees kept related (pure value : TransformM σ ε α) (pure other) :=
  fun _ hbefore => ⟨.ok h, hbefore, rfl⟩

theorem agrees_throw (error : ε) :
    Agrees kept related (throw error : TransformM σ ε α) (throw fun _ => error) :=
  fun _ hbefore => ⟨.error error, hbefore, rfl⟩

theorem Agrees.bind {action : TransformM σ ε α} {expected : Located ε β}
    {next : α → TransformM σ ε γ} {follow : β → Located ε δ}
    (h : Agrees kept related action expected)
    (hnext : ∀ value other, related value other →
      Agrees kept further (next value) (follow other)) :
    Agrees kept further (action >>= next) (expected >>= follow) := by
  intro before hbefore
  obtain ⟨hmatch, hbetween, hpath⟩ := h before hbefore
  rw [ExceptT.run_bind, StateT.run_bind]
  rcases hrun : action.run.run before with ⟨outcome, between⟩
  rw [hrun] at hmatch hbetween hpath
  cases expected with
  | error raised =>
      cases hmatch
      exact ⟨.error _, hbetween, hpath⟩
  | ok other =>
      cases hmatch with
      | ok hrelated =>
          obtain ⟨hlast, hafter, hback⟩ := hnext _ _ hrelated between hbetween
          rw [hpath] at hlast hback
          exact ⟨hlast, hafter, hback⟩

theorem Agrees.below {action : TransformM σ ε α} {expected : Located ε β}
    (hkept : AboutResults kept) (h : Agrees kept related action expected) (step : PathStep) :
    Agrees kept related (below step action) (Located.below step expected) := by
  intro before hbefore
  obtain ⟨hmatch, hafter, hpath⟩ := h { before with path := before.path.child step }
    (hkept hbefore rfl rfl)
  rw [Located.atPath_below]
  refine ⟨hmatch, hkept hafter rfl rfl, ?_⟩
  exact (congrArg Path.parent hpath).trans (Path.parent_child _ _)

theorem agrees_freshCode_bind (hkept : AboutResults kept) {next : CodeId → TransformM σ ε α}
    {expected : Located ε β} (h : ∀ id, Agrees kept related (next id) expected) :
    Agrees kept related (freshCode >>= next) expected := by
  intro before hbefore
  exact h before.nextCode { before with nextCode := ⟨before.nextCode.index + 1⟩ }
    (hkept hbefore rfl rfl)

/-- What was kept is the outcome, and the outcome is what will be kept. -/
theorem Agrees.once {action : TransformM σ ε Value} {expected : Located ε Value}
    (h : Agrees kept IsContents action expected) (found : Option Value)
    (keep : Value → TransformState σ → TransformState σ)
    (hfound : ∀ result : Value, found = some result → expected = .ok result.contents)
    (hkeep : ∀ (result : Value) state, expected = .ok result.contents → kept state →
      kept (keep result state) ∧ (keep result state).path = state.path) :
    TransformM.Agrees kept IsContents
      (match found with
        | some result => pure result
        | none => do
            let result ← action
            modify (keep result)
            return result) expected := by
  intro before hbefore
  cases found with
  | some result =>
      rw [hfound result rfl]
      exact ⟨.ok rfl, hbefore, rfl⟩
  | none =>
      obtain ⟨hmatch, hafter, hpath⟩ := h before hbefore
      simp only [ExceptT.run_bind, StateT.run_bind]
      rcases hrun : action.run.run before with ⟨outcome, after⟩
      rw [hrun] at hmatch hafter hpath
      cases outcome with
      | error error => exact ⟨hmatch, hafter, hpath⟩
      | ok result =>
          -- Success at one path is success at every path, and may be kept.
          have hexpected : expected = .ok result.contents :=
            Located.atPath_eq_ok_iff.mp hmatch.map_contents.symm
          obtain ⟨hkept, hsame⟩ := hkeep result after hexpected hafter
          exact ⟨hmatch, hkept, hsame.trans hpath⟩

end TransformM

/-! ## The invariant -/

/-- What is kept for a node or an object is what comes of it. -/
structure Remembers (rules : LocalRules ε) (graph : ConfigGraph) (depth : Nat)
    (holds : Value → Prop) (state : TransformState σ) : Prop where
  nodes : ∀ id result, state.nodeResults.lookup id = some result →
    rules.ofNode graph depth id = .ok result.contents
  codes : ∀ value id result, holds value → value.codeId? = some id →
    state.codeResults.lookup id = some result →
      rules.transform graph depth value = .ok result.contents

variable {rules : LocalRules ε} {graph : ConfigGraph} {depth : Nat} {holds : Value → Prop}

theorem remembers_start (context : σ) (nextCode : CodeId) :
    Remembers rules graph depth holds (.start context nextCode) where
  nodes _ _ := nofun
  codes _ _ _ _ _ := nofun

open TransformM (Agrees AboutResults)

theorem aboutResults_remembers :
    AboutResults (σ := σ) (Remembers rules graph depth holds) := by
  intro before after h hnodes hcodes
  exact ⟨hnodes ▸ h.nodes, hcodes ▸ h.codes⟩

theorem agrees_onceForNode {action : TransformM σ ε Value} {id : NodeId}
    (h : Agrees (Remembers rules graph depth holds) IsContents action
      (rules.ofNode graph depth id)) :
    Agrees (Remembers rules graph depth holds) IsContents (TransformM.onceForNode id action)
      (rules.ofNode graph depth id) := by
  intro before hbefore
  refine h.once (before.nodeResults.lookup id)
    (fun result state => { state with nodeResults := (id, result) :: state.nodeResults })
    (hbefore.nodes id) (fun result state hresult hstate => ⟨⟨?_, hstate.codes⟩, rfl⟩)
    before hbefore
  intro other found hfound
  rw [Arguments.lookup_cons_ite] at hfound
  split at hfound
  · next hother =>
      obtain rfl := Option.some.inj hfound
      rw [hother, hresult]
  · exact hstate.nodes other found hfound

/-- One identity is one object among the values that are held. -/
theorem agrees_onceForCode (hheap : Heap graph holds) {action : TransformM σ ε Value}
    {value : Value} {id : CodeId} (hvalue : holds value) (hid : value.codeId? = some id)
    (h : Agrees (Remembers rules graph depth holds) IsContents action
      (rules.transform graph depth value)) :
    Agrees (Remembers rules graph depth holds) IsContents (TransformM.onceForCode id action)
      (rules.transform graph depth value) := by
  intro before hbefore
  refine h.once (before.codeResults.lookup id)
    (fun result state => { state with codeResults := (id, result) :: state.codeResults })
    (fun result => hbefore.codes value id result hvalue hid)
    (fun result state hresult hstate => ⟨⟨hstate.nodes, ?_⟩, rfl⟩) before hbefore
  intro other code found hother hcode hfound
  rw [Arguments.lookup_cons_ite] at hfound
  split at hfound
  · next heq =>
      obtain rfl := Option.some.inj hfound
      rw [hheap.coherent other value id hother hvalue (heq ▸ hcode) hid, hresult]
  · exact hstate.codes other code found hother hcode hfound

/-! ## The engine -/

namespace Transformer

open TransformM (agrees_pure agrees_throw agrees_freshCode_bind)

variable {transformer : Transformer σ ε} {kept : TransformState σ → Prop}

theorem agrees_follow {parts : Type} {contents : parts → parts} (hkept : AboutResults kept)
    {action : TransformM σ ε (Plan σ ε parts)} {rule : Located ε (LocalPlan ε parts)}
    (h : action.Computes (Plan.CarriesOut contents) rule) {transformed : TransformM σ ε parts}
    {expected : Located ε parts}
    (htransformed : Agrees kept (fun given other => other = contents given) transformed expected) :
    Agrees kept IsContents (action >>= fun plan => follow plan transformed)
      (rule >>= fun plan => LocalRules.follow plan expected) := by
  refine (h.agrees hkept).bind fun plan other hplan => ?_
  cases hplan with
  | replace result => exact agrees_pure rfl
  | rebuild hfinish =>
      refine htransformed.bind ?_
      rintro given _ rfl
      exact (hfinish given).agrees hkept

variable {enter : NodeId → TransformM σ ε Value} {further : NodeId → Located ε Value}

theorem agrees_transformItems (hkept : AboutResults kept) {items : List Value}
    (h : ∀ item ∈ items, Agrees kept IsContents (transformer.transformValue enter item)
      (rules.ofValue further item)) (position : Nat) :
    Agrees kept (fun results other => other = Value.relabelItems (fun _ => ⟨0⟩) results)
      (transformer.transformItems enter items position)
      (rules.ofItems further items position) := by
  induction items generalizing position with
  | nil => exact agrees_pure rfl
  | cons item items ih =>
      obtain ⟨hitem, hitems⟩ := List.forall_mem_cons.mp h
      refine (hitem.below hkept (.index position)).bind ?_
      rintro result _ rfl
      refine (ih hitems (position + 1)).bind ?_
      rintro results _ rfl
      exact agrees_pure rfl

theorem agrees_transformEntries (hkept : AboutResults kept) {entries : List (String × Value)}
    (h : ∀ item ∈ entries.map Prod.snd, Agrees kept IsContents
      (transformer.transformValue enter item) (rules.ofValue further item))
    (step : String → PathStep) :
    Agrees kept (fun results other => other = Value.relabelEntries (fun _ => ⟨0⟩) results)
      (transformer.transformEntries enter step entries)
      (rules.ofEntries further step entries) := by
  induction entries with
  | nil => exact agrees_pure rfl
  | cons entry entries ih =>
      obtain ⟨name, item⟩ := entry
      obtain ⟨hitem, hentries⟩ := List.forall_mem_cons.mp h
      refine (hitem.below hkept (step name)).bind ?_
      rintro result _ rfl
      refine (ih hentries).bind ?_
      rintro results _ rfl
      exact agrees_pure rfl

variable (hheap : Heap graph holds)
include hheap

theorem agrees_transformValue (hlocal : transformer.CarriesOut rules) {value : Value}
    (hvalue : holds value)
    (henter : ∀ id ∈ value.nodeReferences, holds (.node id) →
      Agrees (Remembers rules graph depth holds) IsContents (enter id)
        (rules.ofNode graph depth id)) :
    Agrees (Remembers rules graph depth holds) IsContents
      (transformer.transformValue enter value) (rules.transform graph depth value) := by
  have hkept : AboutResults (σ := σ) (Remembers rules graph depth holds) := aboutResults_remembers
  induction value using Value.induction_children with
  | step value ih =>
      have hchildren : value.asNode? = none → ∀ child ∈ value.children,
          Agrees (Remembers rules graph depth holds) IsContents
            (transformer.transformValue enter child) (rules.transform graph depth child) := by
        intro hnode child hchild
        have hpart : child ∈ graph.parts value := by
          rwa [graph.parts_eq_children hnode]
        exact ih child hchild (hheap.parts value hvalue child hpart) fun id hid =>
          henter id (Value.mem_nodeReferences_of_mem_children hchild hid)
      have hplan {transformed : TransformM σ ε Value} {expected : Located ε Value}
          (h : Agrees (Remembers rules graph depth holds) IsContents transformed expected) :=
        agrees_follow hkept (hlocal.onValue value) h
      cases value with
      | node id => exact henter id (by simp [Value.nodeReferences]) hvalue
      | list items =>
          rw [transformValue, LocalRules.transform, LocalRules.ofValue]
          refine hplan ((agrees_transformItems hkept (hchildren rfl) 0).bind ?_)
          rintro results _ rfl
          exact agrees_pure rfl
      | tuple items =>
          rw [transformValue, LocalRules.transform, LocalRules.ofValue]
          refine hplan ((agrees_transformItems hkept (hchildren rfl) 0).bind ?_)
          rintro results _ rfl
          exact agrees_pure rfl
      | dict entries =>
          rw [transformValue, LocalRules.transform, LocalRules.ofValue]
          refine hplan ((agrees_transformEntries hkept (hchildren rfl) .key).bind ?_)
          rintro results _ rfl
          exact agrees_pure rfl
      | call id callee positional named history =>
          rw [transformValue]
          refine agrees_onceForCode hheap hvalue rfl ?_
          rw [LocalRules.transform, LocalRules.ofValue]
          have hpositional := agrees_transformItems hkept
            (fun item hitem => hchildren rfl item (List.mem_append_left _ hitem)) 0
          have hnamed := agrees_transformEntries hkept
            (fun item hitem => hchildren rfl item (List.mem_append_right _ hitem)) .field
          refine hplan (hpositional.bind ?_)
          rintro first _ rfl
          refine hnamed.bind ?_
          rintro second _ rfl
          exact agrees_freshCode_bind hkept fun _ => agrees_pure rfl
      | tagged id tagNames item =>
          rw [transformValue]
          refine agrees_onceForCode hheap hvalue rfl ?_
          rw [LocalRules.transform, LocalRules.ofValue]
          have hitem := hchildren rfl item List.mem_cons_self
          refine hplan ((hitem.below hkept _).bind ?_)
          rintro result _ rfl
          exact agrees_freshCode_bind hkept fun _ => agrees_pure rfl
      | _ => exact hplan (agrees_pure rfl)

theorem agrees_transformNode (hgraph : graph.WellFormed) (hlocal : transformer.CarriesOut rules)
    (hdepth : graph.nodeCount < depth) {steps : Nat} {id : NodeId} (hnode : holds (.node id))
    (hsteps : graph.rank id ≤ steps) :
    Agrees (Remembers rules graph depth holds) IsContents
      (transformer.transformNode graph steps id) (rules.ofNode graph depth id) := by
  have hkept : AboutResults (σ := σ) (Remembers rules graph depth holds) := aboutResults_remembers
  -- The engine has fewer steps left at each reference; plain recursion stays at its full depth,
  -- so that a result kept further up or down is the same.
  induction steps generalizing id with
  | zero => exact absurd hsteps (Nat.not_le.mpr (graph.rank_pos id))
  | succ steps ih =>
      rw [transformNode]
      refine agrees_onceForNode ?_
      rw [rules.ofNode_eq_ofFound hgraph hdepth, LocalRules.ofFound, graph.node_eq]
      cases hfound : graph.get? id with
      | none =>
          simp only [Option.elim_none, hlocal.ofGraphError]
          exact agrees_throw _
      | some buildable =>
          have harguments : ∀ item ∈ buildable.arguments.values,
              Agrees (Remembers rules graph depth holds) IsContents
                (transformer.transformValue (transformer.transformNode graph steps) item)
                (rules.transform graph depth item) := by
            intro item hitem
            rw [← ConfigGraph.parts_node hfound] at hitem
            exact agrees_transformValue hheap hlocal (hheap.parts _ hnode item hitem)
              fun child hchild hholds =>
                ih hholds (hgraph.covers_argument hsteps hitem child hchild)
          have hentries := agrees_transformEntries hkept harguments .field
          refine agrees_follow hkept (hlocal.onNode id buildable) (hentries.bind ?_)
          rintro entries _ rfl
          exact agrees_pure rfl

/-- Unlike a part, a root starts at its own path and always ends at the root path. -/
theorem matches_runAt (hgraph : graph.WellFormed) (hlocal : transformer.CarriesOut rules)
    (hdepth : graph.nodeCount < depth) {root : Value} (hroot : holds root) (base : Path)
    {before after : TransformState σ} {outcome : Except ε Value}
    (hbefore : Remembers rules graph depth holds before)
    (hrun : (transformer.runAt graph root base).run.run before = (outcome, after)) :
    OutcomesMatch IsContents outcome ((rules.transform graph depth root).atPath base) ∧
      Remembers rules graph depth holds after ∧ after.path = .root := by
  obtain ⟨hmatch, hafter, -⟩ := agrees_transformValue hheap hlocal hroot
    (fun id _ hnode => agrees_transformNode hheap hgraph hlocal hdepth hnode (hgraph.rank_le id))
    { before with path := base } (aboutResults_remembers hbefore rfl rfl)
  cases hrun
  exact ⟨hmatch, aboutResults_remembers hafter rfl rfl, rfl⟩

end Transformer

end ConfigLowering
