import ConfigLowering.Proofs.Imports.Registering
import ConfigLowering.Registration

/-!
# Permanence

Whatever is done with a manager, the symbols that have names keep them, and the imports of one
moment stand first among those of every later moment. What fails changes nothing.
-/

namespace ConfigLowering.ImportManager

variable {settings : ImportSettings} {manager after : ImportManager}

/-! ## Runs -/

/-- The manager after a run of operations, some of which may fail. -/
def performAll (manager : ImportManager) (operations : List Operation) : ImportManager :=
  operations.foldl perform manager

@[simp] theorem performAll_nil (manager : ImportManager) : manager.performAll [] = manager := rfl

@[simp] theorem performAll_cons (manager : ImportManager) (operation : Operation)
    (operations : List Operation) :
    manager.performAll (operation :: operations) =
      (manager.perform operation).performAll operations := rfl

@[simp] theorem performAll_append (manager : ImportManager) (operations more : List Operation) :
    manager.performAll (operations ++ more) =
      (manager.performAll operations).performAll more := by
  simp [performAll]

theorem Reachable.performAll (h : Reachable settings manager) (operations : List Operation) :
    Reachable settings (manager.performAll operations) := by
  induction operations generalizing manager with
  | nil => exact h
  | cons operation operations ih => exact ih (h.perform operation)

theorem reachable_iff_performAll :
    Reachable settings manager ↔
      ∃ operations, manager = (ofSettings settings).performAll operations := by
  constructor
  · intro h
    induction h with
    | start => exact ⟨[], rfl⟩
    | perform operation _ ih =>
        obtain ⟨operations, rfl⟩ := ih
        exact ⟨operations ++ [operation], by simp⟩
  · rintro ⟨operations, rfl⟩
    exact Reachable.start.performAll operations

/-! ## Growing by a run -/

theorem extendedBy_perform (manager : ImportManager) (operation : Operation) :
    manager.ExtendedBy (manager.perform operation) := by
  obtain ⟨symbol, name, hadd⟩ | ⟨module, localName, hadd⟩ | ⟨name, hsame⟩ | hsame :=
    manager.perform_cases operation
  · exact extendedBy_add hadd
  · exact extendedBy_addModule hadd
  · rw [hsame]
    exact manager.extendedBy_withBound name
  · rw [hsame]
    exact .refl manager

theorem extendedBy_performAll (manager : ImportManager) (operations : List Operation) :
    manager.ExtendedBy (manager.performAll operations) := by
  induction operations generalizing manager with
  | nil => exact .refl manager
  | cons operation operations ih => exact (manager.extendedBy_perform operation).trans (ih _)

/-! ## Answers -/

/-- What an operation gives: a name, an alias, or the reason why it fails. -/
def answer (manager : ImportManager) : Operation → Except ImportError String
  | .add symbol => (manager.add symbol).1
  | .addModule module => (manager.addModule module).1
  | .bind name => .ok name
  | .bindFresh base => .ok (manager.space.bindFresh base).1

theorem perform_of_answer_error {operation : Operation} {error : ImportError}
    (h : manager.answer operation = .error error) : manager.perform operation = manager := by
  cases operation with
  | add symbol => exact (add_eq_error_iff.mp (Prod.ext h rfl)).2.2.2
  | addModule module => exact (addModule_eq_error_iff.mp (Prod.ext h rfl)).2.2
  | bind name => simp [answer] at h
  | bindFresh base => simp [answer] at h

theorem run_get_bind {α : Type} (next : ImportManager → RegistrationM α) (manager : ImportManager) :
    (get >>= next).run.run manager = (next manager).run.run manager := rfl

/-- The actions of registration take over what a registration leaves, also when it fails. -/
theorem run_require_of_error {symbol : Symbol} {error : ImportError}
    (h : (manager.add symbol).1 = .error error) :
    (RegistrationM.require symbol).run.run manager = (.error (.importFailed error), manager) := by
  have hsame : manager.perform (.add symbol) = manager := perform_of_answer_error h
  have hadd : manager.add symbol = (.error error, manager) := Prod.ext h hsame
  rw [RegistrationM.require, run_get_bind, hadd]
  rfl

theorem run_requireModule_of_error {module : String} {error : ImportError}
    (h : (manager.addModule module).1 = .error error) :
    (RegistrationM.requireModule module).run.run manager =
      (.error (.importFailed error), manager) := by
  have hsame : manager.perform (.addModule module) = manager := perform_of_answer_error h
  have hadd : manager.addModule module = (.error error, manager) := Prod.ext h hsame
  rw [RegistrationM.requireModule, run_get_bind, hadd]
  rfl

/-! ## Names -/

theorem add_of_nameOf? {symbol : Symbol} {name : String}
    (h : manager.nameOf? symbol = some name) : manager.add symbol = (.ok name, manager) := by
  rw [add_eq, h]

theorem nameOf?_performAll {symbol : Symbol} {name : String}
    (h : manager.add symbol = (.ok name, after)) (operations : List Operation) {same : Symbol}
    (hsame : same.key = symbol.key) :
    (after.performAll operations).nameOf? same = some name := by
  have hname : after.nameOf? symbol = some name := (grows_add h).2
  rw [nameOf?, hsame]
  exact (after.extendedBy_performAll operations).names symbol.key name hname

/-- A symbol that was added has its name for ever, whatever kind it is given later, and adding
it again changes nothing. Imports are only added behind those there are, so a module keeps its
alias. An operation that fails leaves all as it was, also inside registration. -/
theorem names_are_permanent (manager : ImportManager) :
    (∀ symbol name after, manager.add symbol = (.ok name, after) →
      ∀ operations same, same.key = symbol.key →
        (after.performAll operations).nameOf? same = some name ∧
          (after.performAll operations).add same = (.ok name, after.performAll operations)) ∧
      (∀ operations, manager.imports <+: (manager.performAll operations).imports ∧
        ∀ module localName, manager.aliasOf? module = some localName →
          (manager.performAll operations).aliasOf? module = some localName) ∧
      (∀ operation error, manager.answer operation = .error error →
        manager.perform operation = manager) ∧
      (∀ symbol error, (manager.add symbol).1 = .error error →
        (RegistrationM.require symbol).run.run manager =
          (.error (.importFailed error), manager)) ∧
      ∀ module error, (manager.addModule module).1 = .error error →
        (RegistrationM.requireModule module).run.run manager =
          (.error (.importFailed error), manager) := by
  refine ⟨?_, ?_, fun _ _ h => perform_of_answer_error h, fun _ _ h => run_require_of_error h,
    fun _ _ h => run_requireModule_of_error h⟩
  · intro symbol name after h operations same hsame
    have hname := nameOf?_performAll h operations hsame
    exact ⟨hname, add_of_nameOf? hname⟩
  · intro operations
    have hextended := manager.extendedBy_performAll operations
    exact ⟨hextended.imports, hextended.modules⟩

/-- Other symbols and names that compete with `layers`, and two operations that fail. -/
def competingOperations : List Operation := [
  .add (.builtin "layers"), .bindFresh "layers", .addModule "not a module",
  .add (.classType "vendor.layers" "Encoder"), .bind "layers_4",
  .add (.function "models.layers" "build.<locals>.inner"), .addModule "other.layers"]

def withEncoder : ImportManager :=
  (ofSettings .default).perform (.add (.classType "models.layers" "Encoder"))

theorem names_are_permanent_competingOperations :
    (ofSettings .default).add (.classType "models.layers" "Encoder") =
        (.ok "layers.Encoder", withEncoder) ∧
      (withEncoder.performAll competingOperations).add (.function "models.layers" "Encoder") =
        (.ok "layers.Encoder", withEncoder.performAll competingOperations) ∧
      withEncoder.aliasOf? "models.layers" = some "layers" ∧
      (withEncoder.performAll competingOperations).aliasOf? "models.layers" = some "layers" ∧
      withEncoder.answer (.addModule "not a module") = .error (.invalidModulePath "not a module") ∧
      withEncoder.perform (.addModule "not a module") = withEncoder := by
  have hadd : (ofSettings .default).add (.classType "models.layers" "Encoder") =
      (.ok "layers.Encoder", withEncoder) := Prod.ext (by decide +kernel) rfl
  have halias : withEncoder.aliasOf? "models.layers" = some "layers" := by decide +kernel
  have hfailed : withEncoder.answer (.addModule "not a module") =
      .error (.invalidModulePath "not a module") := by decide +kernel
  obtain ⟨hnames, -⟩ := names_are_permanent (ofSettings .default)
  obtain ⟨-, himports, hfails, -⟩ := names_are_permanent withEncoder
  obtain ⟨-, hrepeated⟩ := hnames _ _ _ hadd competingOperations
    (.function "models.layers" "Encoder") rfl
  exact ⟨hadd, hrepeated, halias, (himports competingOperations).2 _ _ halias, hfailed,
    hfails _ _ hfailed⟩

end ConfigLowering.ImportManager
