import ConfigLowering.Proofs.Graph.Parts
import ConfigLowering.Proofs.Transformer.Outcome

/-!
# What transforming keeps

An action respects a relation when it leaves a state that is related to the one before,
whether it succeeds or fails. The engine respects what its own steps and those of its
transformer respect. There are two such relations here: a property of the transformer's own
state is kept, and the path is the same again.
-/

namespace ConfigLowering

namespace TransformM

variable {σ ε α β : Type}

def Respects (related : TransformState σ → TransformState σ → Prop)
    (action : TransformM σ ε α) : Prop :=
  ∀ before, related before (action.run.run before).2

theorem Respects.of_yields {related : TransformState σ → TransformState σ → Prop}
    {action : TransformM σ ε α} {before after : TransformState σ} {value : α}
    (h : action.Respects related) (hyields : action.Yields before value after) :
    related before after := by
  have hrelated := h before
  rwa [hyields] at hrelated

/-- The relation does not mind what the engine does by itself. -/
structure Frame (related : TransformState σ → TransformState σ → Prop) : Prop where
  refl : ∀ state, related state state
  trans : ∀ {first second third}, related first second → related second third →
    related first third
  nextCode : ∀ state next, related state { state with nextCode := next }
  nodeResults : ∀ state results, related state { state with nodeResults := results }
  codeResults : ∀ state results, related state { state with codeResults := results }
  below : ∀ {before after} step, related { before with path := before.path.child step } after →
    related before { after with path := after.path.parent }

variable {related : TransformState σ → TransformState σ → Prop} (frame : Frame related)
include frame

/-! ## Actions -/

theorem respects_pure (value : α) : (pure value : TransformM σ ε α).Respects related :=
  fun before => frame.refl before

theorem respects_throw (error : ε) : (throw error : TransformM σ ε α).Respects related :=
  fun before => frame.refl before

theorem respects_get :
    (get : TransformM σ ε (TransformState σ)).Respects related :=
  fun before => frame.refl before

theorem respects_freshCode : (freshCode : TransformM σ ε CodeId).Respects related :=
  fun before => frame.nextCode before _

theorem respects_currentPath : (currentPath : TransformM σ ε Path).Respects related :=
  fun before => frame.refl before

theorem Respects.bind {action : TransformM σ ε α} {next : α → TransformM σ ε β}
    (h : action.Respects related) (hnext : ∀ value, (next value).Respects related) :
    (action >>= next).Respects related := by
  intro before
  have hbetween := h before
  rw [ExceptT.run_bind, StateT.run_bind]
  rcases hrun : action.run.run before with ⟨outcome, between⟩
  rw [hrun] at hbetween
  cases outcome with
  | error error => exact hbetween
  | ok value => exact frame.trans hbetween (hnext value between)

theorem Respects.mapM {action : α → TransformM σ ε β} {items : List α}
    (h : ∀ item ∈ items, (action item).Respects related) :
    (items.mapM action).Respects related := by
  induction items with
  | nil => exact respects_pure frame []
  | cons item items ih =>
      rw [List.mapM_cons]
      have hrest := ih fun other hother => h other (List.mem_cons_of_mem _ hother)
      exact (h item List.mem_cons_self).bind frame fun _ =>
        hrest.bind frame fun _ => respects_pure frame _

theorem Respects.foldlM {action : β → α → TransformM σ ε β} {items : List α}
    (h : ∀ item ∈ items, ∀ result, (action result item).Respects related) (start : β) :
    (items.foldlM action start).Respects related := by
  induction items generalizing start with
  | nil => exact respects_pure frame start
  | cons item items ih =>
      rw [List.foldlM_cons]
      exact (h item List.mem_cons_self start).bind frame fun result =>
        ih (fun other hother => h other (List.mem_cons_of_mem _ hother)) result

theorem Respects.below {action : TransformM σ ε α} (h : action.Respects related)
    (step : PathStep) : (TransformM.below step action).Respects related :=
  fun before => frame.below step (h { before with path := before.path.child step })

theorem Respects.once {action : TransformM σ ε Value} (h : action.Respects related)
    (found : Option Value) (keep : Value → TransformState σ → TransformState σ)
    (hkeep : ∀ result state, related state (keep result state)) :
    TransformM.Respects related (match found with
      | some result => pure result
      | none => do
          let result ← action
          modify (keep result)
          return result : TransformM σ ε Value) := by
  cases found with
  | some result => exact respects_pure frame result
  | none =>
      refine h.bind frame fun result => ?_
      have hmodify : (modify (keep result) : TransformM σ ε PUnit).Respects related :=
        fun before => hkeep result before
      exact hmodify.bind frame fun _ => respects_pure frame _

theorem Respects.onceForNode {action : TransformM σ ε Value} (h : action.Respects related)
    (id : NodeId) : (TransformM.onceForNode id action).Respects related :=
  (respects_get frame).bind frame fun state => h.once frame (state.nodeResults.lookup id)
    (fun result state => { state with nodeResults := (id, result) :: state.nodeResults })
    fun _ state => frame.nodeResults state _

theorem Respects.onceForCode {action : TransformM σ ε Value} (h : action.Respects related)
    (id : CodeId) : (TransformM.onceForCode id action).Respects related :=
  (respects_get frame).bind frame fun state => h.once frame (state.codeResults.lookup id)
    (fun result state => { state with codeResults := (id, result) :: state.codeResults })
    fun _ state => frame.codeResults state _

omit frame

theorem respects_get_bind {next : TransformState σ → TransformM σ ε α}
    (h : ∀ before, related before ((next before).run.run before).2) :
    (get >>= next).Respects related :=
  h

/-! ## Two relations -/

def Keeps (kept : σ → Prop) (before after : TransformState σ) : Prop :=
  kept before.context → kept after.context

theorem frame_keeps (kept : σ → Prop) : Frame (Keeps kept) where
  refl _ h := h
  trans h h' hfirst := h' (h hfirst)
  nextCode _ _ h := h
  nodeResults _ _ h := h
  codeResults _ _ h := h
  below _ h := h

def SamePath (before after : TransformState σ) : Prop := after.path = before.path

theorem frame_samePath : Frame (SamePath (σ := σ)) where
  refl _ := rfl
  trans h h' := Eq.trans h' h
  nextCode _ _ := rfl
  nodeResults _ _ := rfl
  codeResults _ _ := rfl
  below step h := by
    unfold SamePath at h ⊢
    rw [h, Path.parent_child]

end TransformM

namespace Transformer

open TransformM (Frame respects_pure respects_throw respects_freshCode)

variable {σ ε : Type}

/-- A transformer respects a relation at the values that some predicate holds, which come with
their parts, as long as the transformation of these parts respects it. -/
structure Respects (transformer : Transformer σ ε) (graph : ConfigGraph)
    (related : TransformState σ → TransformState σ → Prop) (holds : Value → Prop) : Prop where
  parts : ∀ whole, holds whole → ∀ part ∈ graph.parts whole, holds part
  onNode : ∀ id buildable, holds (.node id) → graph.get? id = some buildable →
    ∀ transformed : TransformM σ ε (Arguments Value), transformed.Respects related →
      (transformer.onNode id buildable >>= fun plan => follow plan transformed).Respects related
  onValue : ∀ value, holds value → ∀ transformed : TransformM σ ε Value,
    transformed.Respects related →
      (transformer.onValue value >>= fun plan => follow plan transformed).Respects related

variable {transformer : Transformer σ ε} {graph : ConfigGraph}
  {related : TransformState σ → TransformState σ → Prop} {holds : Value → Prop}
  {enter : NodeId → TransformM σ ε Value} (frame : Frame related)
include frame

/-! ## Values -/

theorem respects_transformItems (position : Nat) {items : List Value}
    (h : ∀ item ∈ items, (transformer.transformValue enter item).Respects related) :
    (transformer.transformItems enter items position).Respects related := by
  induction items generalizing position with
  | nil => exact respects_pure frame []
  | cons item items ih =>
      have hitem := (h item List.mem_cons_self).below frame (.index position)
      have hitems := ih (position + 1) fun other hother => h other (List.mem_cons_of_mem _ hother)
      exact hitem.bind frame fun _ => hitems.bind frame fun _ => respects_pure frame _

theorem respects_transformEntries (step : String → PathStep) {entries : List (String × Value)}
    (h : ∀ item ∈ entries.map Prod.snd,
      (transformer.transformValue enter item).Respects related) :
    (transformer.transformEntries enter step entries).Respects related := by
  induction entries with
  | nil => exact respects_pure frame []
  | cons entry entries ih =>
      obtain ⟨name, item⟩ := entry
      have hitem := (h item List.mem_cons_self).below frame (step name)
      have hentries := ih fun other hother => h other (List.mem_cons_of_mem _ hother)
      exact hitem.bind frame fun _ => hentries.bind frame fun _ => respects_pure frame _

theorem respects_transformValue (h : transformer.Respects graph related holds)
    (henter : ∀ id, holds (.node id) → (enter id).Respects related) {value : Value}
    (hvalue : holds value) : (transformer.transformValue enter value).Respects related := by
  induction value using Value.induction_children with
  | step value ih =>
      have hchildren : value.asNode? = none → ∀ part ∈ value.children,
          (transformer.transformValue enter part).Respects related := fun hnode part hpart =>
        ih part hpart (h.parts value hvalue part (graph.parts_eq_children hnode ▸ hpart))
      cases value with
      | node id => exact henter id hvalue
      | list items =>
          rw [transformValue]
          refine h.onValue _ hvalue _ ?_
          exact (respects_transformItems frame 0 (hchildren rfl)).bind frame fun _ =>
            respects_pure frame _
      | tuple items =>
          rw [transformValue]
          refine h.onValue _ hvalue _ ?_
          exact (respects_transformItems frame 0 (hchildren rfl)).bind frame fun _ =>
            respects_pure frame _
      | dict entries =>
          rw [transformValue]
          refine h.onValue _ hvalue _ ?_
          exact (respects_transformEntries frame .key (hchildren rfl)).bind frame fun _ =>
            respects_pure frame _
      | call id callee positional named history =>
          rw [transformValue]
          refine (h.onValue _ hvalue _ ?_).onceForCode frame id
          have hpositional := respects_transformItems frame 0 fun item hitem =>
            hchildren rfl item (List.mem_append_left _ hitem)
          have hnamed := respects_transformEntries frame .field fun item hitem =>
            hchildren rfl item (List.mem_append_right _ hitem)
          exact hpositional.bind frame fun _ => hnamed.bind frame fun _ =>
            (respects_freshCode frame).bind frame fun _ => respects_pure frame _
      | tagged id tagNames item =>
          rw [transformValue]
          refine (h.onValue _ hvalue _ ?_).onceForCode frame id
          have hitem := hchildren rfl item List.mem_cons_self
          exact (hitem.below frame _).bind frame fun _ =>
            (respects_freshCode frame).bind frame fun _ => respects_pure frame _
      | _ => exact h.onValue _ hvalue _ (respects_pure frame _)

/-! ## Nodes and roots -/

theorem respects_transformNode (h : transformer.Respects graph related holds) (depth : Nat)
    {id : NodeId} (hnode : holds (.node id)) :
    (transformer.transformNode graph depth id).Respects related := by
  induction depth generalizing id with
  | zero => exact respects_throw frame _
  | succ depth ih =>
      rw [transformNode]
      refine TransformM.Respects.onceForNode frame ?_ id
      cases hfound : graph.get? id with
      | none =>
          rw [graph.node_eq, hfound]
          exact respects_throw frame _
      | some buildable =>
          rw [graph.node_eq, hfound]
          refine h.onNode id buildable hnode hfound _ ?_
          have harguments := respects_transformEntries frame .field fun argument hargument =>
            respects_transformValue frame h (fun _ => ih) (h.parts _ hnode argument
              (ConfigGraph.parts_node hfound ▸ hargument))
          exact harguments.bind frame fun _ => respects_pure frame _

theorem respects_transformRoot (h : transformer.Respects graph related holds) {root : Value}
    (hroot : holds root) : (transformer.transformRoot graph root).Respects related :=
  respects_transformValue frame h (fun _ => respects_transformNode frame h _) hroot

omit frame

theorem keeps_runAt {kept : σ → Prop} (h : transformer.Respects graph (TransformM.Keeps kept) holds)
    {root : Value} (hroot : holds root) (base : Path) :
    (transformer.runAt graph root base).Respects (TransformM.Keeps kept) :=
  fun before hbefore => respects_transformRoot (TransformM.frame_keeps kept) h hroot
    { before with path := base } hbefore

end Transformer

end ConfigLowering
