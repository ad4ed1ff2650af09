import ConfigLowering.Task
import ConfigLowering.Transformer

/-!
# Symbol substitution

Turns fixture bodies into code. A config node becomes a call of its wrapper
type with the callable as positional argument, an importable symbol becomes a
symbol reference, and an argument whose field is tagged is wrapped with its
tags. Code that a body already holds keeps its shape.
-/

namespace ConfigLowering

namespace Substitution

abbrev SubstitutionM := TransformM ImportManager LoweringError

/-- The name of a symbol, which is registered now if it was not. -/
def nameOf (symbol : Symbol) : SubstitutionM String := do
  let state ← get
  let (outcome, imports) := state.context.add symbol
  set { state with context := imports }
  match outcome with
  | .ok name => return name
  | .error error => throw (.importFailed error)

/-! ## Config nodes -/

/-- Wraps the argument of one tagged field. A field without tags is not listed
among the tags of a node, so there is always a tag to wrap it with. -/
def attachTags (buildable : Buildable) (arguments : Arguments Value)
    (field : String) (tags : TagSet) : SubstitutionM (Arguments Value) := do
  match arguments.get? field with
  | none =>
      throw (.taggedFieldNotSet field buildable.display arguments.names
        (← TransformM.currentPath))
  | some _ =>
      let tagNames ← tags.toList.mapM nameOf
      let id ← TransformM.freshCode
      return arguments.modify field (.tagged id tagNames ·)

def finishNode (history : Buildable → History) (buildable : Buildable)
    (callee : String) (arguments : Arguments Value) : SubstitutionM Value := do
  let arguments ← buildable.tags.toList.foldlM
    (fun arguments (field, tags) => attachTags buildable arguments field tags) arguments
  let id ← TransformM.freshCode
  return .call id callee [.reference buildable.callable] arguments.entries
    (history buildable)

/-! ## The transformer -/

def transformer (baseModule : String) (history : Buildable → History) :
    Transformer ImportManager LoweringError where
  ofGraphError := .graphFailed
  onNode _ buildable := do
    let callee ← nameOf (buildable.kind.wrapper baseModule)
    let _ ← nameOf buildable.callable
    return .rebuild (finishNode history buildable callee)
  onValue value := do
    match value with
    | .symbol symbol =>
        if value.role = .importableSymbol then
          let _ ← nameOf symbol
          return .replace (.reference symbol)
        else return .replace value
    | _ => return .rebuild pure

/-! ## Fixtures -/

/-- What one fixture leaves to the next. -/
structure Progress where
  imports : ImportManager
  nextCode : CodeId

def substituteBody (graph : ConfigGraph)
    (transformer : Transformer ImportManager LoweringError) (fixture : Fixture) :
    SubstitutionM Fixture := do
  let declarations ← fixture.declarations.zipIdx.mapM fun (declaration, position) => do
    let expression ← transformer.runAt graph declaration.expression
      (Fixture.variablePath position)
    return { declaration with expression }
  let output ← transformer.runAt graph fixture.output Fixture.outputPath
  return fixture.replaceBody declarations output

/-- Transforms one fixture, whose values share what they have in common. -/
def substituteFixture (graph : ConfigGraph) (baseModule : String)
    (history : Buildable → History) (fixture : Fixture) (progress : Progress) :
    Except LoweringError Fixture × Progress :=
  let (outcome, state) :=
    (substituteBody graph (transformer baseModule history) fixture).run.run
      (.start progress.imports progress.nextCode)
  (outcome, ⟨state.context, state.nextCode⟩)

/-- Transforms fixtures up to the first that fails. That one and those after it
stay as they are. -/
def substituteFixtures (graph : ConfigGraph) (baseModule : String)
    (history : Buildable → History) :
    List Fixture → Progress → Except LoweringError Unit × List Fixture × Progress
  | [], progress => (.ok (), [], progress)
  | fixture :: fixtures, progress =>
      match substituteFixture graph baseModule history fixture progress with
      | (.error error, progress) => (.error error, fixture :: fixtures, progress)
      | (.ok transformed, progress) =>
          let (outcome, fixtures, progress) :=
            substituteFixtures graph baseModule history fixtures progress
          (outcome, transformed :: fixtures, progress)

end Substitution

/-- Transforms the bodies of a task's fixtures, with comments on the arguments
of the calls made. -/
def Task.substituteWith (task : Task) (history : Buildable → History) :
    Except LoweringError Unit × Task :=
  let (outcome, fixtures, progress) :=
    Substitution.substituteFixtures task.graph task.baseModule history task.fixtures
      ⟨task.imports, task.nextCode⟩
  (outcome, { task with
    imports := progress.imports
    nextCode := progress.nextCode
    callTree := task.callTree.withFixtures fixtures })

def noHistory (_ : Buildable) : History := []

def Task.substitute (task : Task) : Except LoweringError Unit × Task :=
  task.substituteWith noHistory

/-- Comments each argument with its node and the number of its tags. -/
def argumentHistory (buildable : Buildable) : History :=
  buildable.arguments.names.map fun name =>
    (name, buildable.display ++ " tags=" ++ toString (buildable.tagsOf name).size)

end ConfigLowering
