import Mathlib.Data.List.Basic

/-!
# Checks of a list

A loop that checks one member after the other succeeds when every check does,
and fails with the error of the first check that fails.
-/

namespace ConfigLowering

variable {α ε : Type}

def checkEach (check : α → Except ε Unit) (items : List α) : Except ε PUnit :=
  forIn items PUnit.unit fun item _ => do
    check item
    pure (ForInStep.yield PUnit.unit)

theorem checkEach_nil (check : α → Except ε Unit) : checkEach check [] = .ok () := rfl

theorem checkEach_cons (check : α → Except ε Unit) (item : α) (items : List α) :
    checkEach check (item :: items) =
      match check item with
      | .ok () => checkEach check items
      | .error error => .error error := by
  simp only [checkEach, List.forIn_cons]
  cases check item <;> rfl

theorem checkEach_eq_ok_iff (check : α → Except ε Unit) (items : List α) :
    checkEach check items = .ok () ↔ ∀ item ∈ items, check item = .ok () := by
  induction items with
  | nil => simp [checkEach_nil]
  | cons item items ih =>
      rw [checkEach_cons]
      cases h : check item with
      | ok => simp [ih, h]
      | error error => simp [h]

theorem checkEach_eq_error_iff (check : α → Except ε Unit) (items : List α) (error : ε) :
    checkEach check items = .error error ↔
      ∃ before item rest, items = before ++ item :: rest ∧
        (∀ other ∈ before, check other = .ok ()) ∧ check item = .error error := by
  induction items with
  | nil => simp [checkEach_nil]
  | cons item items ih =>
      rw [checkEach_cons]
      cases h : check item with
      | ok =>
          simp only [ih]
          constructor
          · rintro ⟨before, failing, rest, rfl, hbefore, hfailing⟩
            exact ⟨item :: before, failing, rest, rfl, by simpa [h] using hbefore, hfailing⟩
          · rintro ⟨before, failing, rest, heq, hbefore, hfailing⟩
            cases before with
            | nil =>
                obtain ⟨rfl, -⟩ := List.cons.inj heq
                rw [h] at hfailing
                contradiction
            | cons first before =>
                obtain ⟨rfl, rfl⟩ := List.cons.inj heq
                exact ⟨before, failing, rest, rfl, fun other hother =>
                  hbefore other (List.mem_cons_of_mem _ hother), hfailing⟩
      | error actual =>
          constructor
          · intro heq
            exact ⟨[], item, items, rfl, by simp, by rw [h, Except.error.inj heq]⟩
          · rintro ⟨before, failing, rest, heq, hbefore, hfailing⟩
            cases before with
            | nil =>
                obtain ⟨rfl, -⟩ := List.cons.inj heq
                rw [← h, hfailing]
            | cons first before =>
                obtain ⟨rfl, -⟩ := List.cons.inj heq
                rw [hbefore item List.mem_cons_self] at h
                contradiction

end ConfigLowering
