import ConfigLowering.Task
import ConfigLowering.Walk

/-!
# Import registration

Registers every symbol that the generated module will refer to: callables,
wrapper types and tags of the config nodes, and plain symbols in the bodies.
The imports are final before any pass binds names of its own.
-/

namespace ConfigLowering

structure ImportSummary where
  /-- Config nodes met, once for each fixture that reaches them. -/
  configNodes : Nat
  symbols : Nat
  /-- Plain symbols that cannot be imported. -/
  skipped : Nat
  deriving DecidableEq, Repr

def ImportSummary.empty : ImportSummary := ⟨0, 0, 0⟩

def ImportSummary.needsBaseModule (summary : ImportSummary) : Bool :=
  0 < summary.configNodes

/-- Registration may fail, and keeps the imports made so far when it does. -/
abbrev RegistrationM := ExceptT LoweringError (StateM ImportManager)

namespace RegistrationM

def require (symbol : Symbol) : RegistrationM Unit := do
  let (outcome, manager) := (← get).add symbol
  set manager
  match outcome with
  | .ok _ => return ()
  | .error error => throw (.importFailed error)

def requireModule (module : String) : RegistrationM Unit := do
  let (outcome, manager) := (← get).addModule module
  set manager
  match outcome with
  | .ok _ => return ()
  | .error error => throw (.importFailed error)

/-- Registers a symbol if it can be imported; the answer says whether it can. -/
def offer (symbol : Symbol) : RegistrationM Bool := do
  let (outcome, manager) := (← get).add symbol
  set manager
  return outcome.isOk

end RegistrationM

namespace Registration

open RegistrationM

def registerNode (baseModule : String) (buildable : Buildable) : RegistrationM Unit := do
  require buildable.callable
  require (buildable.kind.wrapper baseModule)
  buildable.allTags.forM require

def registerVisit (baseModule : String) (summary : ImportSummary) :
    Visit → RegistrationM ImportSummary
  | .node _ buildable => do
      registerNode baseModule buildable
      return { summary with configNodes := summary.configNodes + 1 }
  | .value (.symbol symbol) => do
      if !symbol.isPlain then return summary
      else if ← offer symbol then
        return { summary with symbols := summary.symbols + 1 }
      else return { summary with skipped := summary.skipped + 1 }
  | .value _ => return summary

def registerFixture (graph : ConfigGraph) (baseModule : String)
    (summary : ImportSummary) (fixture : Fixture) : RegistrationM ImportSummary := do
  match graph.iterateAll fixture.bodySlots with
  | .error error => throw (.graphFailed error)
  | .ok entries =>
      entries.foldlM (fun summary (visit, _) => registerVisit baseModule summary visit)
        summary

def registerFixtures (graph : ConfigGraph) (baseModule : String)
    (fixtures : List Fixture) : RegistrationM ImportSummary := do
  let summary ← fixtures.foldlM (registerFixture graph baseModule) .empty
  if summary.needsBaseModule then requireModule baseModule
  return summary

end Registration

/-- Registers what the fixtures of a task refer to. -/
def Task.registerImports (task : Task) : Except LoweringError ImportSummary × Task :=
  let (outcome, imports) :=
    (Registration.registerFixtures task.graph task.baseModule task.fixtures).run.run
      task.imports
  (outcome, { task with imports })

end ConfigLowering
