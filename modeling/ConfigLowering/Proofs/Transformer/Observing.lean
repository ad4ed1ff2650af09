import ConfigLowering.Proofs.Transformer.Mirroring
import ConfigLowering.Proofs.Transformer.Order

/-!
# Transforming beside a trace

An action can run beside a trace that it does not see. A transformer that does what another one
does and writes notes besides gives the same results and failures, once the trace is forgotten.
-/

namespace ConfigLowering

variable {σ ε α β : Type}

namespace TransformState

def forget (state : TransformState (σ × Trace)) : TransformState σ :=
  { state with context := state.context.1 }

theorem shows_forget : Shows (forget (σ := σ)) :=
  ⟨fun _ => rfl, fun _ => rfl, fun _ => rfl, fun _ _ => rfl, fun _ _ => rfl, fun _ _ => rfl⟩

end TransformState

namespace TransformM

open TransformState (forget)

/-- Runs an action that does not know of the trace. -/
def beside (action : TransformM σ ε α) : TransformM (σ × Trace) ε α :=
  ExceptT.mk fun state =>
    let (outcome, after) := action.run.run state.forget
    (outcome, { after with context := (after.context, state.context.2) })

def note (change : Trace → Trace) : TransformM (σ × Trace) ε Unit :=
  modify fun state => { state with context := (state.context.1, change state.context.2) }

theorem mirrors_beside (action : TransformM σ ε α) : Mirrors forget (beside action) action := by
  intro before
  rfl

theorem Mirrors.note_bind {next : Unit → TransformM (σ × Trace) ε α} {other : TransformM σ ε α}
    (h : Mirrors forget (next ()) other) (change : Trace → Trace) :
    Mirrors forget (note change >>= next) other :=
  fun before => h { before with context := (before.context.1, change before.context.2) }

theorem yields_beside {action : TransformM σ ε α} {before after : TransformState (σ × Trace)}
    {value : α} :
    (beside action).Yields before value after ↔
      ∃ between, action.Yields before.forget value between ∧
        after = { between with context := (between.context, before.context.2) } := by
  change ((action.run.run before.forget).1, { (action.run.run before.forget).2 with
    context := ((action.run.run before.forget).2.context, before.context.2) }) = _ ↔ _
  unfold Yields
  rcases action.run.run before.forget with ⟨outcome, between⟩
  constructor
  · rintro ⟨⟩
    exact ⟨between, rfl, rfl⟩
  · rintro ⟨_, ⟨⟩, rfl⟩
    rfl

/-- The action leaves alone what the engine keeps. -/
def LeavesKept (action : TransformM σ ε α) : Prop :=
  ∀ before value after, action.Yields before value after →
    after.nodeResults = before.nodeResults ∧ after.codeResults = before.codeResults

theorem LeavesKept.notes {action : TransformM σ ε α} (h : action.LeavesKept) :
    Notes id (beside action) := by
  intro before value after hyields
  obtain ⟨between, haction, rfl⟩ := yields_beside.mp hyields
  obtain ⟨hnodes, hcodes⟩ := h _ _ _ haction
  exact ⟨hnodes, hcodes, rfl⟩

theorem notes_note (change : Trace → Trace) :
    Notes (σ := σ) (ε := ε) change (note change) := by
  intro before value after hyields
  obtain rfl := (yields_modify _).mp hyields
  exact ⟨rfl, rfl, rfl⟩

end TransformM

namespace Transformer

open TransformM (Mirrors mirrors_pure mirrors_throw)
open TransformState (forget shows_forget)

/-- The transformer does what the other one does, beside a trace. -/
structure Observes (transformer : Transformer (σ × Trace) ε) (other : Transformer σ ε) : Prop where
  same : transformer.MirroredBy other forget id
  ofGraphError : ∀ error, transformer.ofGraphError error = other.ofGraphError error

variable {transformer : Transformer (σ × Trace) ε} {other : Transformer σ ε}

theorem Observes.mirrors_transformValue (h : transformer.Observes other)
    {enter : NodeId → TransformM (σ × Trace) ε Value} {further : NodeId → TransformM σ ε Value}
    (henter : ∀ id, Mirrors forget (enter id) (further id)) (value : Value) :
    Mirrors forget (transformer.transformValue enter value)
      (other.transformValue further value) := by
  have hvalue : Mirrors forget (transformer.transformValue enter value)
      (other.transformValue further (value.rename id)) :=
    Transformer.mirrors_transformValue shows_forget h.same fun child _ => henter child
  rwa [Value.rename_id] at hvalue

theorem Observes.mirrors_transformNode (h : transformer.Observes other) (graph : ConfigGraph)
    (depth : Nat) (node : NodeId) :
    Mirrors forget (transformer.transformNode graph depth node)
      (other.transformNode graph depth node) := by
  induction depth generalizing node with
  | zero =>
      rw [transformNode, transformNode, h.ofGraphError]
      exact mirrors_throw _
  | succ depth ih =>
      rw [transformNode, transformNode]
      refine Mirrors.onceForNode ?_ (fun _ => rfl) fun _ _ => rfl
      cases graph.node node with
      | error error =>
          simp only [h.ofGraphError]
          exact mirrors_throw _
      | ok buildable =>
          have harguments : Mirrors forget
              (transformer.transformEntries (transformer.transformNode graph depth) .field
                buildable.arguments.entries)
              (other.transformEntries (other.transformNode graph depth) .field
                (Value.renameEntries id buildable.arguments.entries)) := by
            refine mirrors_transformEntries shows_forget (fun argument _ => ?_) .field
            rw [Value.rename_id]
            exact h.mirrors_transformValue ih argument
          rw [Value.renameEntries_id] at harguments
          have hnode := h.same.onNode node buildable _ _
            (harguments.bind fun arguments => mirrors_pure (⟨arguments⟩ : Arguments Value))
          rwa [Buildable.rename_id] at hnode

theorem Observes.mirrors_runAt (h : transformer.Observes other) (graph : ConfigGraph)
    (root : Value) (base : Path) :
    Mirrors forget (transformer.runAt graph root base) (other.runAt graph root base) := by
  have htransformed : Mirrors forget (transformer.transformRoot graph root)
      (other.transformRoot graph root) :=
    h.mirrors_transformValue (h.mirrors_transformNode graph (graph.nodeCount + 1)) root
  exact htransformed.around (fun _ => rfl) fun _ => rfl

end Transformer

end ConfigLowering
