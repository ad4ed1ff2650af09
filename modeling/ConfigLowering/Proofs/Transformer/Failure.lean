import ConfigLowering.Proofs.Transformer.Outcome

/-!
# Failures of transforming

Where an action that fails does so: in one of its parts, which comes after parts that
succeed.
-/

namespace ConfigLowering.TransformM

variable {σ ε α β : Type}

def Raises (action : TransformM σ ε α) (before : TransformState σ) (error : ε) : Prop :=
  ∃ after, action.run.run before = (.error error, after)

variable {before after : TransformState σ} {value : α} {error : ε}

theorem Yields.not_raises {action : TransformM σ ε α} (h : action.Yields before value after) :
    ¬ action.Raises before error := by
  rintro ⟨last, herror⟩
  cases h.symm.trans herror

theorem Yields.unique {action : TransformM σ ε α} {other : α} {last : TransformState σ}
    (h : action.Yields before value after) (h' : action.Yields before other last) :
    other = value ∧ last = after := by
  cases h.symm.trans h'
  exact ⟨rfl, rfl⟩

/-! ## Steps -/

@[simp] theorem raises_pure (given : α) :
    ¬ (pure given : TransformM σ ε α).Raises before error := by
  rintro ⟨after, ⟨⟩⟩

@[simp] theorem raises_throw (given : ε) :
    (throw given : TransformM σ ε α).Raises before error ↔ error = given := by
  unfold Raises
  constructor
  · rintro ⟨after, ⟨⟩⟩
    rfl
  · rintro rfl
    exact ⟨before, rfl⟩

@[simp] theorem raises_modify (change : TransformState σ → TransformState σ) :
    ¬ (modify change : TransformM σ ε PUnit).Raises before error := by
  rintro ⟨after, ⟨⟩⟩

@[simp] theorem raises_freshCode :
    ¬ (freshCode : TransformM σ ε CodeId).Raises before error := by
  rintro ⟨after, ⟨⟩⟩

theorem raises_bind (action : TransformM σ ε α) (next : α → TransformM σ ε β) :
    (action >>= next).Raises before error ↔
      action.Raises before error ∨
        ∃ value between, action.Yields before value between ∧
          (next value).Raises between error := by
  unfold Raises Yields
  rw [ExceptT.run_bind, StateT.run_bind]
  rcases hrun : action.run.run before with ⟨outcome | value, between⟩
  · constructor
    · rintro ⟨after, ⟨⟩⟩
      exact .inl ⟨between, rfl⟩
    · rintro (⟨after, ⟨⟩⟩ | ⟨_, _, ⟨⟩, _⟩)
      exact ⟨between, rfl⟩
  · constructor
    · intro hnext
      exact .inr ⟨value, between, rfl, hnext⟩
    · rintro (⟨after, ⟨⟩⟩ | ⟨_, _, ⟨⟩, hnext⟩)
      exact hnext

theorem Yields.raises_bind_iff {action : TransformM σ ε α} {next : α → TransformM σ ε β}
    (h : action.Yields before value after) :
    (action >>= next).Raises before error ↔ (next value).Raises after error := by
  rw [raises_bind]
  constructor
  · rintro (hraises | ⟨other, between, hother, hnext⟩)
    · exact absurd hraises h.not_raises
    · obtain ⟨rfl, rfl⟩ := h.unique hother
      exact hnext
  · intro hnext
    exact .inr ⟨value, after, h, hnext⟩

theorem raises_bind_pure (action : TransformM σ ε α) (result : α → β) :
    (do return result (← action) : TransformM σ ε β).Raises before error ↔
      action.Raises before error := by
  rw [raises_bind]
  simp

/-! ## Operations of the engine -/

theorem raises_around (enter leave : TransformState σ → TransformState σ)
    (action : TransformM σ ε α) :
    TransformM.Raises (ExceptT.mk do
        modify enter
        let outcome ← action.run
        modify leave
        return outcome) before error ↔ action.Raises (enter before) error := by
  unfold Raises
  change (∃ after, ((action.run.run (enter before)).1, leave (action.run.run (enter before)).2) =
    (.error error, after)) ↔ _
  rcases action.run.run (enter before) with ⟨outcome, between⟩
  constructor
  · rintro ⟨after, ⟨⟩⟩
    exact ⟨between, rfl⟩
  · rintro ⟨after, ⟨⟩⟩
    exact ⟨leave between, rfl⟩

theorem raises_below (step : PathStep) (action : TransformM σ ε α) :
    (below step action).Raises before error ↔
      action.Raises { before with path := before.path.child step } error :=
  raises_around _ _ action

theorem raises_once (found : Option Value)
    (keep : Value → TransformState σ → TransformState σ) (action : TransformM σ ε Value) :
    TransformM.Raises (match found with
        | some result => pure result
        | none => do
            let result ← action
            modify (keep result)
            return result) before error ↔ found = none ∧ action.Raises before error := by
  cases found with
  | some result => simp
  | none =>
      have hkeep : ∀ value between,
          ¬ (do modify (keep value); return value : TransformM σ ε Value).Raises between error := by
        intro value between
        rw [raises_bind]
        simp
      rw [raises_bind]
      simp only [hkeep, and_false, exists_false, or_false, true_and]

theorem raises_onceForNode (id : NodeId) (action : TransformM σ ε Value) :
    (onceForNode id action).Raises before error ↔
      before.nodeResults.lookup id = none ∧ action.Raises before error :=
  raises_once (before.nodeResults.lookup id)
    (fun result state => { state with nodeResults := (id, result) :: state.nodeResults }) action

theorem raises_onceForCode (id : CodeId) (action : TransformM σ ε Value) :
    (onceForCode id action).Raises before error ↔
      before.codeResults.lookup id = none ∧ action.Raises before error :=
  raises_once (before.codeResults.lookup id)
    (fun result state => { state with codeResults := (id, result) :: state.codeResults }) action

end ConfigLowering.TransformM
