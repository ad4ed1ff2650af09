import Mathlib.Data.List.Basic
import ConfigLowering.Fixture

/-!
# Fixtures with other values

A fixture and a call tree with another value in each place of a body. What stays then is the
outline: the tree itself, and the names, parameters and variables of its fixtures.
-/

namespace ConfigLowering

/-! ## Fixtures -/

namespace Fixture

/-- The values of a body's slots. -/
def values (fixture : Fixture) : List Value := fixture.bodySlots.map Prod.fst

theorem values_eq (fixture : Fixture) :
    fixture.values = fixture.declarations.map Variable.expression ++ [fixture.output] := by
  have hexpressions : (fixture.declarations.zipIdx.map fun declaration =>
      declaration.1.expression) =
      (fixture.declarations.zipIdx.map Prod.fst).map Variable.expression := by
    rw [List.map_map]
    rfl
  rw [List.zipIdx_map_fst] at hexpressions
  simp [values, bodySlots, Function.comp_def, hexpressions]

def map (change : Value → Value) (fixture : Fixture) : Fixture :=
  { fixture with
    declarations := fixture.declarations.map fun declaration =>
      { declaration with expression := change declaration.expression }
    output := change fixture.output }

/-- The fixture apart from the values of its body. -/
def outline (fixture : Fixture) : Fixture := fixture.map fun _ => .none

theorem values_map (change : Value → Value) (fixture : Fixture) :
    (fixture.map change).values = fixture.values.map change := by
  simp [values_eq, map, Function.comp_def]

theorem bodySlots_map (change : Value → Value) (fixture : Fixture) :
    (fixture.map change).bodySlots =
      fixture.bodySlots.map fun (value, path) => (change value, path) := by
  simp [bodySlots, map, List.zipIdx_map, Function.comp_def]

theorem map_map (first second : Value → Value) (fixture : Fixture) :
    (fixture.map first).map second = fixture.map (second ∘ first) := by
  simp [map, Function.comp_def]

theorem outline_map (change : Value → Value) (fixture : Fixture) :
    (fixture.map change).outline = fixture.outline :=
  map_map change _ fixture

theorem outline_replaceBody {fixture : Fixture} {declarations : List Variable}
    (hnames : declarations.map Variable.name = fixture.declarations.map Variable.name)
    (output : Value) : (fixture.replaceBody declarations output).outline = fixture.outline := by
  have hdeclarations := congrArg (List.map fun name => (⟨name, .none⟩ : Variable)) hnames
  rw [List.map_map, List.map_map] at hdeclarations
  simpa [outline, map, replaceBody, Function.comp_def] using hdeclarations

theorem declarations_ext {first second : List Variable}
    (hnames : first.map Variable.name = second.map Variable.name)
    (hexpressions : first.map Variable.expression = second.map Variable.expression) :
    first = second := by
  induction first generalizing second with
  | nil => simpa using hnames.symm
  | cons declaration first ih =>
      cases second with
      | nil => simp at hnames
      | cons other second =>
          obtain ⟨hname, hnames⟩ := List.cons.inj hnames
          obtain ⟨hexpression, hexpressions⟩ := List.cons.inj hexpressions
          rw [ih hnames hexpressions]
          cases declaration
          cases other
          simp_all

/-- Outline and values are all that there is to a fixture. -/
theorem eq_of_outline {first second : Fixture} (houtline : first.outline = second.outline)
    (hvalues : first.values = second.values) : first = second := by
  obtain ⟨name, parameters, declarations, output⟩ := first
  obtain ⟨name', parameters', declarations', output'⟩ := second
  rw [values_eq, values_eq] at hvalues
  obtain ⟨hexpressions, houtput⟩ := List.append_inj' hvalues rfl
  obtain rfl : output = output' := (List.cons.inj houtput).1
  simp only [outline, map, mk.injEq, and_true] at houtline
  obtain ⟨rfl, rfl, hdeclarations⟩ := houtline
  have hnames := congrArg (List.map Variable.name) hdeclarations
  rw [List.map_map, List.map_map] at hnames
  rw [declarations_ext hnames hexpressions]

end Fixture

/-! ## Call trees -/

namespace CallTree

mutual

def map (change : Value → Value) : CallTree → CallTree
  | .node fixture children => .node (fixture.map change) (mapAll change children)

def mapAll (change : Value → Value) : List CallTree → List CallTree
  | [] => []
  | tree :: trees => tree.map change :: mapAll change trees

end

/-- The tree apart from the values in the bodies of its fixtures. -/
def outline (tree : CallTree) : CallTree := tree.map fun _ => .none

variable (change : Value → Value)

mutual

theorem fixtures_map (tree : CallTree) :
    (tree.map change).fixtures = tree.fixtures.map (Fixture.map change) := by
  cases tree with
  | node fixture children => simp [map, fixtures, fixturesOfAll_mapAll children]

theorem fixturesOfAll_mapAll (trees : List CallTree) :
    fixturesOfAll (mapAll change trees) = (fixturesOfAll trees).map (Fixture.map change) := by
  cases trees with
  | nil => rfl
  | cons tree trees =>
      simp [mapAll, fixturesOfAll, fixtures_map tree, fixturesOfAll_mapAll trees]

end

mutual

theorem map_refill (tree : CallTree) (given : List Fixture) :
    (tree.map change).refill (given.map (Fixture.map change)) =
      ((tree.refill given).1.map change, (tree.refill given).2.map (Fixture.map change)) := by
  cases tree with
  | node fixture children =>
      cases given with
      | nil => rfl
      | cons first given => simp [map, refill, mapAll_refillAll children given]

theorem mapAll_refillAll (trees : List CallTree) (given : List Fixture) :
    refillAll (mapAll change trees) (given.map (Fixture.map change)) =
      (mapAll change (refillAll trees given).1,
        (refillAll trees given).2.map (Fixture.map change)) := by
  cases trees with
  | nil => rfl
  | cons tree trees =>
      simp [mapAll, refillAll, map_refill tree given,
        mapAll_refillAll trees (tree.refill given).2]

end

mutual

theorem refill_fixtures (tree : CallTree) (rest : List Fixture) :
    tree.refill (tree.fixtures ++ rest) = (tree, rest) := by
  cases tree with
  | node fixture children => simp [fixtures, refill, refillAll_fixturesOfAll children rest]

theorem refillAll_fixturesOfAll (trees : List CallTree) (rest : List Fixture) :
    refillAll trees (fixturesOfAll trees ++ rest) = (trees, rest) := by
  cases trees with
  | nil => rfl
  | cons tree trees =>
      simp [fixturesOfAll, refillAll, refill_fixtures tree, refillAll_fixturesOfAll trees rest]

end

theorem withFixtures_fixtures (tree : CallTree) : tree.withFixtures tree.fixtures = tree := by
  have hrefill := tree.refill_fixtures []
  rw [List.append_nil] at hrefill
  rw [withFixtures, hrefill]

/-- Fixtures of the same outlines do not change the outline of a tree. -/
theorem outline_withFixtures (tree : CallTree) {given : List Fixture}
    (h : given.map Fixture.outline = tree.fixtures.map Fixture.outline) :
    (tree.withFixtures given).outline = tree.outline := by
  have hrefill := congrArg Prod.fst (map_refill (fun _ => .none) tree given)
  have hgiven : given.map (Fixture.map fun _ => .none) = tree.outline.fixtures :=
    h.trans (fixtures_map (fun _ => .none) tree).symm
  rw [hgiven] at hrefill
  exact hrefill.symm.trans tree.outline.withFixtures_fixtures

end CallTree

end ConfigLowering
