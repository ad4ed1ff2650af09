import ConfigLowering.Path
import ConfigLowering.Value

/-!
# Fixtures

A fixture is a generated function: variable declarations and an output value.
Fixtures call fixtures, which makes a tree of them; its order is parents before
children.
-/

namespace ConfigLowering

structure Variable where
  name : String
  expression : Value

structure Fixture where
  name : String
  parameters : List String
  declarations : List Variable
  output : Value

namespace Fixture

def ofOutput (name : String) (output : Value) : Fixture := ⟨name, [], [], output⟩

/-! ## Bodies -/

def variablePath (position : Nat) : Path :=
  ⟨[.field "variables", .index position, .field "expression"]⟩

def outputPath : Path := ⟨[.field "output_value"]⟩

/-- The expression of each variable, then the output, with their paths. -/
def bodySlots (fixture : Fixture) : List (Value × Path) :=
  fixture.declarations.zipIdx.map
      (fun (declaration, position) => (declaration.expression, variablePath position)) ++
    [(fixture.output, outputPath)]

def replaceBody (fixture : Fixture) (declarations : List Variable) (output : Value) :
    Fixture :=
  { fixture with declarations, output }

end Fixture

/-! ## Call trees -/

inductive CallTree where
  | node (fixture : Fixture) (children : List CallTree)

namespace CallTree

def ofFixture (fixture : Fixture) : CallTree := .node fixture []

mutual

/-- The fixtures of the tree, parents before children. -/
def fixtures : CallTree → List Fixture
  | .node fixture children => fixture :: fixturesOfAll children

def fixturesOfAll : List CallTree → List Fixture
  | [] => []
  | tree :: trees => tree.fixtures ++ fixturesOfAll trees

end

mutual

/-- Puts fixtures into the places of the tree in its order and gives those that
are left over. -/
def refill : CallTree → List Fixture → CallTree × List Fixture
  | .node fixture children, [] => (.node fixture children, [])
  | .node _ children, fixture :: fixtures =>
      let (children, rest) := refillAll children fixtures
      (.node fixture children, rest)

def refillAll : List CallTree → List Fixture → List CallTree × List Fixture
  | [], fixtures => ([], fixtures)
  | tree :: trees, fixtures =>
      let (tree, rest) := tree.refill fixtures
      let (trees, rest) := refillAll trees rest
      (tree :: trees, rest)

end

def withFixtures (tree : CallTree) (fixtures : List Fixture) : CallTree :=
  (tree.refill fixtures).1

end CallTree

end ConfigLowering
