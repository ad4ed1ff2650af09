import ConfigLowering.Proofs.Value.Renaming
import ConfigLowering.Proofs.Value.Parts
import ConfigLowering.Transformer

/-!
# Actions that mirror each other

Two actions mirror each other under a view of states when they have the same outcome and leave
states of which one is the view of the other. The engine carries this from its transformer to
everything that it transforms, whether it succeeds or fails.
-/

namespace ConfigLowering

variable {σ τ ε α β : Type}

/-- The view shows what the engine uses besides the results kept for nodes. -/
structure TransformState.Shows (view : TransformState σ → TransformState τ) : Prop where
  nextCode : ∀ state, (view state).nextCode = state.nextCode
  codeResults : ∀ state, (view state).codeResults = state.codeResults
  path : ∀ state, (view state).path = state.path
  withNextCode : ∀ state next,
    view { state with nextCode := next } = { view state with nextCode := next }
  withCodeResults : ∀ state results,
    view { state with codeResults := results } = { view state with codeResults := results }
  withPath : ∀ state path, view { state with path := path } = { view state with path := path }

namespace TransformM

/-- The other action has the same outcome, and leaves the view of the state that is left. -/
def Mirrors (view : TransformState σ → TransformState τ) (action : TransformM σ ε α)
    (other : TransformM τ ε α) : Prop :=
  ∀ before, other.run.run (view before) =
    ((action.run.run before).1, view (action.run.run before).2)

variable {view : TransformState σ → TransformState τ}

/-! ## Actions -/

theorem mirrors_pure (value : α) :
    Mirrors view (pure value : TransformM σ ε α) (pure value) :=
  fun _ => rfl

theorem mirrors_throw (error : ε) :
    Mirrors view (throw error : TransformM σ ε α) (throw error) :=
  fun _ => rfl

theorem mirrors_get_bind {next : TransformState σ → TransformM σ ε α}
    {further : TransformState τ → TransformM τ ε α}
    (h : ∀ before, (further (view before)).run.run (view before) =
      (((next before).run.run before).1, view ((next before).run.run before).2)) :
    Mirrors view (get >>= next) (get >>= further) :=
  h

theorem mirrors_modify {change : TransformState σ → TransformState σ}
    {further : TransformState τ → TransformState τ}
    (h : ∀ state, further (view state) = view (change state)) :
    Mirrors view (modify change : TransformM σ ε PUnit) (modify further) :=
  fun before => congrArg (Prod.mk _) (h before)

theorem mirrors_freshCode (hview : TransformState.Shows view) :
    Mirrors view (freshCode : TransformM σ ε CodeId) freshCode := by
  intro before
  change (Except.ok (view before).nextCode,
    { view before with nextCode := ⟨(view before).nextCode.index + 1⟩ }) = _
  rw [hview.nextCode, ← hview.withNextCode]
  rfl

theorem mirrors_currentPath (hview : TransformState.Shows view) :
    Mirrors view (currentPath : TransformM σ ε Path) currentPath := by
  intro before
  change (Except.ok (view before).path, view before) = _
  rw [hview.path]
  rfl

theorem Mirrors.bind {action : TransformM σ ε α} {other : TransformM τ ε α}
    {next : α → TransformM σ ε β} {further : α → TransformM τ ε β}
    (h : Mirrors view action other)
    (hnext : ∀ value, Mirrors view (next value) (further value)) :
    Mirrors view (action >>= next) (other >>= further) := by
  intro before
  rw [ExceptT.run_bind, StateT.run_bind, ExceptT.run_bind, StateT.run_bind, h before]
  rcases action.run.run before with ⟨outcome, between⟩
  cases outcome with
  | error error => rfl
  | ok value => exact hnext value between

theorem mirrors_mapM {ι : Type} {action : ι → TransformM σ ε β} {further : ι → TransformM τ ε β}
    {items : List ι} (h : ∀ item ∈ items, Mirrors view (action item) (further item)) :
    Mirrors view (items.mapM action) (items.mapM further) := by
  induction items with
  | nil => exact mirrors_pure []
  | cons item items ih =>
      rw [List.mapM_cons, List.mapM_cons]
      obtain ⟨hitem, hitems⟩ := List.forall_mem_cons.mp h
      exact hitem.bind fun _ => (ih hitems).bind fun _ => mirrors_pure _

theorem mirrors_foldlM {ι : Type} {action : β → ι → TransformM σ ε β}
    {further : β → ι → TransformM τ ε β}
    (h : ∀ result item, Mirrors view (action result item) (further result item))
    (items : List ι) (start : β) :
    Mirrors view (items.foldlM action start) (items.foldlM further start) := by
  induction items generalizing start with
  | nil => exact mirrors_pure start
  | cons item items ih =>
      rw [List.foldlM_cons, List.foldlM_cons]
      exact (h start item).bind ih

/-! ## Operations of the engine -/

theorem Mirrors.around {action : TransformM σ ε α} {other : TransformM τ ε α}
    (h : Mirrors view action other) {enter leave : TransformState σ → TransformState σ}
    {enter' leave' : TransformState τ → TransformState τ}
    (henter : ∀ state, enter' (view state) = view (enter state))
    (hleave : ∀ state, leave' (view state) = view (leave state)) :
    TransformM.Mirrors view
      (ExceptT.mk do
        modify enter
        let outcome ← action.run
        modify leave
        return outcome)
      (ExceptT.mk do
        modify enter'
        let outcome ← other.run
        modify leave'
        return outcome) := by
  intro before
  change ((other.run.run (enter' (view before))).1,
    leave' (other.run.run (enter' (view before))).2) = _
  rw [henter, h (enter before), hleave]
  rfl

theorem Mirrors.below {action : TransformM σ ε α} {other : TransformM τ ε α}
    (hview : TransformState.Shows view) (h : Mirrors view action other) (step : PathStep) :
    Mirrors view (below step action) (below step other) := by
  have hmove : ∀ (state : TransformState σ) (move : Path → Path),
      { view state with path := move (view state).path } =
        view { state with path := move state.path } := by
    intro state move
    rw [hview.path]
    exact (hview.withPath state _).symm
  exact h.around (hmove · (Path.child · step)) (hmove · Path.parent)

theorem Mirrors.once {action : TransformM σ ε Value} {other : TransformM τ ε Value}
    (h : Mirrors view action other) (found : Option Value)
    {keep : Value → TransformState σ → TransformState σ}
    {further : Value → TransformState τ → TransformState τ}
    (hkeep : ∀ result state, further result (view state) = view (keep result state)) :
    TransformM.Mirrors view
      (match found with
        | some result => pure result
        | none => do
            let result ← action
            modify (keep result)
            return result : TransformM σ ε Value)
      (match found with
        | some result => pure result
        | none => do
            let result ← other
            modify (further result)
            return result) := by
  cases found with
  | some result => exact mirrors_pure result
  | none =>
      exact h.bind fun result => (mirrors_modify (hkeep result)).bind fun _ => mirrors_pure _

/-- The view shows under another number what is kept for a node. -/
theorem Mirrors.onceForNode {action : TransformM σ ε Value} {other : TransformM τ ε Value}
    (h : Mirrors view action other) {id id' : NodeId}
    (hlookup : ∀ state, (view state).nodeResults.lookup id' = state.nodeResults.lookup id)
    (hkeep : ∀ result state,
      { view state with nodeResults := (id', result) :: (view state).nodeResults } =
        view { state with nodeResults := (id, result) :: state.nodeResults }) :
    Mirrors view (onceForNode id action) (onceForNode id' other) := by
  refine mirrors_get_bind fun before => ?_
  rw [hlookup]
  exact h.once (before.nodeResults.lookup id) (fun result state => hkeep result state) before

theorem Mirrors.onceForCode {action : TransformM σ ε Value} {other : TransformM τ ε Value}
    (hview : TransformState.Shows view) (h : Mirrors view action other) (id : CodeId) :
    Mirrors view (onceForCode id action) (onceForCode id other) := by
  refine mirrors_get_bind fun before => ?_
  rw [hview.codeResults]
  refine h.once (before.codeResults.lookup id) (fun result state => ?_) before
  rw [hview.codeResults]
  exact (hview.withCodeResults state _).symm

end TransformM

namespace Transformer

open TransformM (Mirrors mirrors_pure mirrors_freshCode)

/-- The other transformer does the same under the view, in a graph whose nodes may have other
numbers. -/
structure MirroredBy (transformer : Transformer σ ε) (other : Transformer τ ε)
    (view : TransformState σ → TransformState τ) (change : NodeId → NodeId) : Prop where
  onNode : ∀ id buildable, ∀ (transformed : TransformM σ ε (Arguments Value))
    (further : TransformM τ ε (Arguments Value)), Mirrors view transformed further →
      Mirrors view (transformer.onNode id buildable >>= fun plan => follow plan transformed)
        (other.onNode (change id) (buildable.rename change) >>= fun plan => follow plan further)
  onValue : ∀ value, ∀ (transformed : TransformM σ ε Value) (further : TransformM τ ε Value),
    Mirrors view transformed further →
      Mirrors view (transformer.onValue value >>= fun plan => follow plan transformed)
        (other.onValue (value.rename change) >>= fun plan => follow plan further)

variable {transformer : Transformer σ ε} {other : Transformer τ ε}
  {view : TransformState σ → TransformState τ} {change : NodeId → NodeId}
  {enter : NodeId → TransformM σ ε Value} {further : NodeId → TransformM τ ε Value}
  (hview : TransformState.Shows view)
include hview

theorem mirrors_transformItems {items : List Value}
    (h : ∀ item ∈ items, Mirrors view (transformer.transformValue enter item)
      (other.transformValue further (item.rename change))) (position : Nat) :
    Mirrors view (transformer.transformItems enter items position)
      (other.transformItems further (Value.renameItems change items) position) := by
  induction items generalizing position with
  | nil => exact mirrors_pure []
  | cons item items ih =>
      obtain ⟨hitem, hitems⟩ := List.forall_mem_cons.mp h
      exact (hitem.below hview (.index position)).bind fun _ =>
        (ih hitems (position + 1)).bind fun _ => mirrors_pure _

theorem mirrors_transformEntries {entries : List (String × Value)}
    (h : ∀ item ∈ entries.map Prod.snd, Mirrors view (transformer.transformValue enter item)
      (other.transformValue further (item.rename change))) (step : String → PathStep) :
    Mirrors view (transformer.transformEntries enter step entries)
      (other.transformEntries further step (Value.renameEntries change entries)) := by
  induction entries with
  | nil => exact mirrors_pure []
  | cons entry entries ih =>
      obtain ⟨name, item⟩ := entry
      obtain ⟨hitem, hentries⟩ := List.forall_mem_cons.mp h
      exact (hitem.below hview (step name)).bind fun _ =>
        (ih hentries).bind fun _ => mirrors_pure _

theorem mirrors_transformValue (h : transformer.MirroredBy other view change) {value : Value}
    (henter : ∀ id ∈ value.nodeReferences, Mirrors view (enter id) (further (change id))) :
    Mirrors view (transformer.transformValue enter value)
      (other.transformValue further (value.rename change)) := by
  induction value using Value.induction_children with
  | step value ih =>
      have hchildren : ∀ child ∈ value.children,
          Mirrors view (transformer.transformValue enter child)
            (other.transformValue further (child.rename change)) := fun child hchild =>
        ih child hchild fun id hid =>
          henter id (Value.mem_nodeReferences_of_mem_children hchild hid)
      cases value with
      | node id => exact henter id (by simp [Value.nodeReferences])
      | list items =>
          rw [transformValue, Value.rename, transformValue]
          refine h.onValue (.list items) _ _ ?_
          exact (mirrors_transformItems hview hchildren 0).bind fun _ => mirrors_pure _
      | tuple items =>
          rw [transformValue, Value.rename, transformValue]
          refine h.onValue (.tuple items) _ _ ?_
          exact (mirrors_transformItems hview hchildren 0).bind fun _ => mirrors_pure _
      | dict entries =>
          rw [transformValue, Value.rename, transformValue]
          refine h.onValue (.dict entries) _ _ ?_
          exact (mirrors_transformEntries hview hchildren .key).bind fun _ => mirrors_pure _
      | call id callee positional named history =>
          rw [transformValue, Value.rename, transformValue]
          refine (h.onValue (.call id callee positional named history) _ _ ?_).onceForCode hview id
          have hpositional := mirrors_transformItems hview
            (fun item hitem => hchildren item (List.mem_append_left _ hitem)) 0
          have hnamed := mirrors_transformEntries hview
            (fun item hitem => hchildren item (List.mem_append_right _ hitem)) .field
          exact hpositional.bind fun _ => hnamed.bind fun _ =>
            (mirrors_freshCode hview).bind fun _ => mirrors_pure _
      | tagged id tagNames item =>
          rw [transformValue, Value.rename, transformValue]
          refine (h.onValue (.tagged id tagNames item) _ _ ?_).onceForCode hview id
          have hitem := hchildren item List.mem_cons_self
          exact (hitem.below hview _).bind fun _ =>
            (mirrors_freshCode hview).bind fun _ => mirrors_pure _
      | _ => exact h.onValue _ _ _ (mirrors_pure _)

end Transformer

end ConfigLowering
