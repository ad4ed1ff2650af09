import Mathlib.Data.List.Basic
import ConfigLowering.Fixture

/-!
# Refilling call trees

A tree that is refilled with as many fixtures as it has holds these fixtures, in
their order.
-/

namespace ConfigLowering.CallTree

mutual

theorem refill_spec (tree : CallTree) (given : List Fixture)
    (h : tree.fixtures.length ≤ given.length) :
    (tree.refill given).1.fixtures = given.take tree.fixtures.length ∧
      (tree.refill given).2 = given.drop tree.fixtures.length := by
  cases tree with
  | node fixture children =>
      cases given with
      | nil => simp [fixtures] at h
      | cons first given =>
          simp only [fixtures, List.length_cons, Nat.add_le_add_iff_right] at h
          obtain ⟨hfixtures, hrest⟩ := refillAll_spec children given h
          simp [refill, fixtures, hfixtures, hrest]

theorem refillAll_spec (trees : List CallTree) (given : List Fixture)
    (h : (fixturesOfAll trees).length ≤ given.length) :
    fixturesOfAll (refillAll trees given).1 = given.take (fixturesOfAll trees).length ∧
      (refillAll trees given).2 = given.drop (fixturesOfAll trees).length := by
  cases trees with
  | nil => simp [refillAll, fixturesOfAll]
  | cons tree trees =>
      simp only [fixturesOfAll, List.length_append] at h
      obtain ⟨hfirst, hleft⟩ := refill_spec tree given (by omega)
      obtain ⟨hothers, hrest⟩ := refillAll_spec trees (given.drop tree.fixtures.length)
        (by simp only [List.length_drop]; omega)
      simp [refillAll, fixturesOfAll, hleft, hfirst, hothers, hrest, List.take_add]

end

theorem fixtures_withFixtures (tree : CallTree) {given : List Fixture}
    (h : given.length = tree.fixtures.length) :
    (tree.withFixtures given).fixtures = given := by
  rw [withFixtures, (refill_spec tree given (Nat.le_of_eq h.symm)).1, ← h, List.take_length]

end ConfigLowering.CallTree
