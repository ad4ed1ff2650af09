import ConfigLowering.Expansion
import ConfigLowering.Proofs.Transformer.Memo

/-!
# Expansions are local

The ready-made transformers note what they visit, but what they make does not depend on their
notes: each carries out local rules.
-/

namespace ConfigLowering.Expansion

def ruleForNode (expansion : Expansion) (buildable : Buildable) :
    LocalPlan ExpansionError (Arguments Value) :=
  match expansion with
  | outline => .replace (.symbol buildable.callable)
  | call => .rebuild fun arguments =>
      .ok (.call ⟨0⟩ buildable.callable.qualifiedName [] arguments.entries [])
  | dictionary | doubled => .rebuild fun arguments => .ok (.dict arguments.entries)

def ruleForValue (expansion : Expansion) (value : Value) :
    Located ExpansionError (LocalPlan ExpansionError Value) :=
  match expansion, value with
  | _, .str text =>
      if text = refusedText then .error .refused else .ok (.replace value)
  | doubled, .int number => .ok (.replace (.int (2 * number)))
  | _, _ => .ok (.rebuild .ok)

def rules (expansion : Expansion) : LocalRules ExpansionError where
  ofGraphError := .graphFailed
  onNode _ buildable := .ok (expansion.ruleForNode buildable)
  onValue := expansion.ruleForValue

theorem computes_note_bind {α β : Type} {related : α → β → Prop} {visit : Visit}
    {action : ExpansionM α} {expected : Located ExpansionError β}
    (h : action.Computes related expected) :
    TransformM.Computes related (note visit >>= fun _ => action) expected := by
  intro before
  obtain ⟨hmatch, huntouched⟩ :=
    h { before with context := before.context.push (before.path, visit) }
  exact ⟨hmatch, huntouched.nodeResults, huntouched.codeResults, huntouched.path⟩

theorem carriesOut_planNode (expansion : Expansion) (buildable : Buildable) :
    (expansion.planNode buildable).CarriesOut Arguments.contents
      (expansion.ruleForNode buildable) := by
  cases expansion with
  | outline => exact .replace (.symbol buildable.callable)
  | call => exact .rebuild fun _ _ => ⟨.ok rfl, rfl, rfl, rfl⟩
  | dictionary => exact .rebuild fun _ _ => ⟨.ok rfl, rfl, rfl, rfl⟩
  | doubled => exact .rebuild fun _ _ => ⟨.ok rfl, rfl, rfl, rfl⟩

theorem computes_replace (value : Value) :
    TransformM.Computes (Plan.CarriesOut Value.contents)
      (pure (.replace value) : ExpansionM (Plan VisitLog ExpansionError Value))
      (.ok (.replace value.contents)) :=
  fun _ => ⟨.ok (.replace value), rfl, rfl, rfl⟩

theorem computes_rebuild :
    TransformM.Computes (Plan.CarriesOut Value.contents)
      (pure (.rebuild pure) : ExpansionM (Plan VisitLog ExpansionError Value))
      (.ok (.rebuild .ok)) :=
  fun _ => ⟨.ok (.rebuild fun _ _ => ⟨.ok rfl, rfl, rfl, rfl⟩), rfl, rfl, rfl⟩

theorem computes_planValue (expansion : Expansion) (value : Value) :
    (expansion.planValue value).Computes (Plan.CarriesOut Value.contents)
      (expansion.ruleForValue value) := by
  cases value with
  | str text =>
      have hplan : expansion.planValue (.str text) =
          if text = refusedText then do throw (.refused (← TransformM.currentPath))
          else return .replace (.str text) := by cases expansion <;> rfl
      have hrule : expansion.ruleForValue (.str text) =
          if text = refusedText then .error .refused else .ok (.replace (.str text)) := by
        cases expansion <;> rfl
      rw [hplan, hrule]
      split
      · exact fun before => ⟨.error (ExpansionError.refused before.path), rfl, rfl, rfl⟩
      · exact computes_replace (.str text)
  | int number =>
      cases expansion with
      | doubled => exact computes_replace (.int (2 * number))
      | outline | call | dictionary => exact computes_rebuild
  | _ => cases expansion <;> exact computes_rebuild

theorem carriesOut_transformer (expansion : Expansion) :
    expansion.transformer.CarriesOut expansion.rules where
  ofGraphError _ := rfl
  onNode _ buildable := computes_note_bind fun _ =>
    ⟨.ok (expansion.carriesOut_planNode buildable), rfl, rfl, rfl⟩
  onValue value := computes_note_bind (expansion.computes_planValue value)

end ConfigLowering.Expansion
