import ConfigLowering.Proofs.Outcome
import ConfigLowering.Transformer

/-!
# Outcomes of transforming

What an action that succeeds gave and left behind, step by step: each way of making
an action has one equivalence that takes its outcome apart.
-/

namespace ConfigLowering.TransformM

variable {σ ε α β : Type}

/-- Run from one state, the action gives a value and leaves another state. -/
def Yields (action : TransformM σ ε α) (before : TransformState σ) (value : α)
    (after : TransformState σ) : Prop :=
  action.run.run before = (.ok value, after)

variable {before after : TransformState σ} {value : α}

/-! ## Steps -/

@[simp] theorem yields_pure (given : α) :
    (pure given : TransformM σ ε α).Yields before value after ↔
      value = given ∧ after = before := by
  simp only [Yields, ExceptT.run_pure, StateT.run_pure]
  constructor
  · rintro ⟨⟩
    exact ⟨rfl, rfl⟩
  · rintro ⟨rfl, rfl⟩
    rfl

@[simp] theorem yields_bind (action : TransformM σ ε α) (next : α → TransformM σ ε β)
    {result : β} :
    (action >>= next).Yields before result after ↔
      ∃ value between, action.Yields before value between ∧
        (next value).Yields between result after :=
  run_bind_eq_ok_iff action next

theorem Yields.of_pure {given : α}
    (h : (pure given : TransformM σ ε α).Yields before value after) :
    value = given ∧ after = before :=
  (yields_pure given).mp h

theorem Yields.of_bind {action : TransformM σ ε α} {next : α → TransformM σ ε β}
    {result : β} (h : (action >>= next).Yields before result after) :
    ∃ value between, action.Yields before value between ∧
      (next value).Yields between result after :=
  (yields_bind action next).mp h

@[simp] theorem yields_throw (error : ε) :
    ¬ (throw error : TransformM σ ε α).Yields before value after := by
  rintro ⟨⟩

@[simp] theorem yields_get {state : TransformState σ} :
    (get : TransformM σ ε (TransformState σ)).Yields before state after ↔
      state = before ∧ after = before := by
  simp only [Yields]
  constructor
  · rintro ⟨⟩
    exact ⟨rfl, rfl⟩
  · rintro ⟨rfl, rfl⟩
    rfl

theorem yields_get_bind (next : TransformState σ → TransformM σ ε α) :
    (get >>= next).Yields before value after ↔ (next before).Yields before value after :=
  Iff.rfl

@[simp] theorem yields_set (state : TransformState σ) {result : PUnit} :
    (set state : TransformM σ ε PUnit).Yields before result after ↔ after = state := by
  simp only [Yields]
  constructor
  · rintro ⟨⟩
    rfl
  · rintro rfl
    rfl

@[simp] theorem yields_modify (change : TransformState σ → TransformState σ)
    {result : PUnit} :
    (modify change : TransformM σ ε PUnit).Yields before result after ↔
      after = change before := by
  simp only [Yields]
  constructor
  · rintro ⟨⟩
    rfl
  · rintro rfl
    rfl

/-- What each action gives agrees with its item in some respect, and so do the lists. -/
theorem map_eq_of_mapM {γ : Type} {ofItem : α → γ} {ofResult : β → γ}
    {action : α → TransformM σ ε β} {items : List α} {results : List β}
    (h : ∀ item before result after, (action item).Yields before result after →
      ofResult result = ofItem item)
    (hyields : (items.mapM action).Yields before results after) :
    results.map ofResult = items.map ofItem := by
  induction items generalizing results before with
  | nil =>
      obtain ⟨rfl, rfl⟩ := hyields.of_pure
      rfl
  | cons item items ih =>
      rw [List.mapM_cons] at hyields
      obtain ⟨result, between, hitem, hyields⟩ := hyields.of_bind
      obtain ⟨rest, _, hrest, hpure⟩ := hyields.of_bind
      obtain ⟨rfl, rfl⟩ := hpure.of_pure
      rw [List.map_cons, List.map_cons, h _ _ _ _ hitem, ih hrest]

/-! ## Operations of the engine -/

@[simp] theorem yields_freshCode {id : CodeId} :
    (freshCode : TransformM σ ε CodeId).Yields before id after ↔
      id = before.nextCode ∧
        after = { before with nextCode := ⟨before.nextCode.index + 1⟩ } := by
  simp only [freshCode, yields_bind, yields_get, yields_set, yields_pure]
  constructor
  · rintro ⟨_, _, ⟨rfl, rfl⟩, _, _, rfl, rfl, rfl⟩
    exact ⟨rfl, rfl⟩
  · rintro ⟨rfl, rfl⟩
    exact ⟨before, before, ⟨rfl, rfl⟩, ⟨⟩, _, rfl, rfl, rfl⟩

theorem yields_around (enter leave : TransformState σ → TransformState σ)
    (action : TransformM σ ε α) :
    TransformM.Yields (ExceptT.mk do
        modify enter
        let outcome ← action.run
        modify leave
        return outcome) before value after ↔
      ∃ between, action.Yields (enter before) value between ∧ after = leave between := by
  change ((action.run.run (enter before)).1, leave (action.run.run (enter before)).2) = _ ↔ _
  simp only [Yields]
  rcases action.run.run (enter before) with ⟨outcome, between⟩
  constructor
  · rintro ⟨⟩
    exact ⟨between, rfl, rfl⟩
  · rintro ⟨_, ⟨⟩, rfl⟩
    rfl

theorem yields_below (step : PathStep) (action : TransformM σ ε α) :
    (below step action).Yields before value after ↔
      ∃ between, action.Yields { before with path := before.path.child step } value between ∧
        after = { between with path := between.path.parent } :=
  yields_around _ _ action

/-- A result that was found stands; otherwise the action gives it and it is kept. -/
theorem yields_once (found : Option Value)
    (keep : Value → TransformState σ → TransformState σ)
    (action : TransformM σ ε Value) {value : Value} :
    TransformM.Yields (match found with
        | some result => pure result
        | none => do
            let result ← action
            modify (keep result)
            return result) before value after ↔
      (found = some value ∧ after = before) ∨
        (found = none ∧ ∃ between, action.Yields before value between ∧
          after = keep value between) := by
  cases found with
  | some result => simp [eq_comm]
  | none =>
      simp only [yields_bind, yields_modify, yields_pure]
      constructor
      · rintro ⟨_, between, haction, ⟨⟩, _, rfl, rfl, rfl⟩
        exact .inr ⟨trivial, between, haction, rfl⟩
      · rintro (⟨hfound, -⟩ | ⟨-, between, haction, rfl⟩)
        · contradiction
        · exact ⟨value, between, haction, by simp⟩

theorem yields_onceForNode (id : NodeId) (action : TransformM σ ε Value) {value : Value} :
    (onceForNode id action).Yields before value after ↔
      (before.nodeResults.lookup id = some value ∧ after = before) ∨
        (before.nodeResults.lookup id = none ∧ ∃ between, action.Yields before value between ∧
          after = { between with nodeResults := (id, value) :: between.nodeResults }) :=
  yields_once (before.nodeResults.lookup id)
    (fun result state => { state with nodeResults := (id, result) :: state.nodeResults }) action

theorem yields_onceForCode (id : CodeId) (action : TransformM σ ε Value) {value : Value} :
    (onceForCode id action).Yields before value after ↔
      (before.codeResults.lookup id = some value ∧ after = before) ∨
        (before.codeResults.lookup id = none ∧ ∃ between, action.Yields before value between ∧
          after = { between with codeResults := (id, value) :: between.codeResults }) :=
  yields_once (before.codeResults.lookup id)
    (fun result state => { state with codeResults := (id, result) :: state.codeResults }) action

end ConfigLowering.TransformM
