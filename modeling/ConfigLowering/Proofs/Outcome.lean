/-!
# Actions that may fail

Two actions in a row succeed when the first one does and the second one does after it,
whether a failure keeps the state or there is none. Checks pass when their conditions hold.
-/

namespace ConfigLowering

variable {σ ε α β : Type}

theorem exists_of_isOk {outcome : Except ε α} (h : outcome.isOk) :
    ∃ value, outcome = .ok value := by
  cases outcome with
  | error error => contradiction
  | ok value => exact ⟨value, rfl⟩

theorem bind_eq_ok_iff (outcome : Except ε α) (next : α → Except ε β) {result : β} :
    outcome >>= next = .ok result ↔ ∃ value, outcome = .ok value ∧ next value = .ok result := by
  cases outcome with
  | error error =>
      constructor
      · rintro ⟨⟩
      · rintro ⟨_, ⟨⟩, _⟩
  | ok value =>
      constructor
      · intro hnext
        exact ⟨value, rfl, hnext⟩
      · rintro ⟨_, ⟨⟩, hnext⟩
        exact hnext

theorem mapM_eq_ok_iff {step : α → Except ε β} {known : α → Prop} {expected : α → β}
    (h : ∀ item result, step item = .ok result ↔ known item ∧ result = expected item)
    (items : List α) {results : List β} :
    items.mapM step = .ok results ↔
      (∀ item ∈ items, known item) ∧ results = items.map expected := by
  induction items generalizing results with
  | nil => simp [pure, Except.pure, eq_comm]
  | cons item items ih =>
      simp only [List.mapM_cons, bind_eq_ok_iff, h, ih, List.forall_mem_cons, List.map_cons]
      constructor
      · rintro ⟨_, ⟨hitem, rfl⟩, _, ⟨hitems, rfl⟩, ⟨⟩⟩
        exact ⟨⟨hitem, hitems⟩, rfl⟩
      · rintro ⟨⟨hitem, hitems⟩, rfl⟩
        exact ⟨_, ⟨hitem, rfl⟩, _, ⟨hitems, rfl⟩, rfl⟩

/-- What every step keeps is kept by a run over a list. -/
theorem kept_of_foldlM_eq_ok (kept : β → Prop) {step : β → α → Except ε β}
    (h : ∀ before item after, kept before → step before item = .ok after → kept after)
    {items : List α} {before after : β} (hbefore : kept before)
    (hok : items.foldlM step before = .ok after) : kept after := by
  induction items generalizing before with
  | nil => exact Except.ok.inj hok ▸ hbefore
  | cons item items ih =>
      rw [List.foldlM_cons, bind_eq_ok_iff] at hok
      obtain ⟨between, hstep, hrest⟩ := hok
      exact ih (h before item between hbefore hstep) hrest

theorem forM_eq_ok_iff (check : α → Except ε Unit) (items : List α) :
    items.forM check = .ok () ↔ ∀ item ∈ items, check item = .ok () := by
  induction items with
  | nil => simp [List.forM, pure, Except.pure]
  | cons item items ih =>
      change (check item >>= fun _ => items.forM check) = .ok () ↔ _
      rw [bind_eq_ok_iff, ih, List.forall_mem_cons]
      exact ⟨fun ⟨_, hitem, hitems⟩ => ⟨hitem, hitems⟩, fun ⟨hitem, hitems⟩ => ⟨(), hitem, hitems⟩⟩

theorem guard_eq_ok_iff (condition : Bool) (error : ε) (next : Except ε α) (result : α) :
    (if !condition then throw error >>= fun _ : Unit => next else next) = .ok result ↔
      condition ∧ next = .ok result := by
  cases condition
  · simp [bind, Except.bind, throw, throwThe, MonadExceptOf.throw]
  · simp

theorem unless_eq_ok_iff (condition : Bool) (error : ε) :
    (if !condition then throw error else pure () : Except ε Unit) = .ok () ↔ condition := by
  cases condition <;> simp [pure, Except.pure, throw, throwThe, MonadExceptOf.throw]

theorem run_bind_eq_ok_iff (action : ExceptT ε (StateM σ) α)
    (next : α → ExceptT ε (StateM σ) β) {before after : σ} {result : β} :
    (action >>= next).run.run before = (.ok result, after) ↔
      ∃ value between, action.run.run before = (.ok value, between) ∧
        (next value).run.run between = (.ok result, after) := by
  simp only [ExceptT.run_bind, StateT.run_bind]
  rcases hrun : action.run.run before with ⟨outcome, between⟩
  cases outcome with
  | error error =>
      constructor
      · rintro ⟨⟩
      · rintro ⟨_, _, ⟨⟩, _⟩
  | ok value =>
      constructor
      · intro hnext
        exact ⟨value, between, rfl, hnext⟩
      · rintro ⟨_, _, ⟨⟩, hnext⟩
        exact hnext

end ConfigLowering
