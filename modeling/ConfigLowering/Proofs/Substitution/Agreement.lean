import ConfigLowering.CommandLine.Execution
import ConfigLowering.Proofs.Registration.Completeness
import ConfigLowering.Proofs.Substitution.Faithful
import ConfigLowering.Proofs.Substitution.Keeping

/-!
# The imports of both passes agree

Registration sees every value that the substitution sees. So a task that is registered is
substituted without another import or name, and the imports that are shown for a document
are those of the module that is generated from it.
-/

namespace ConfigLowering

/-! ## The passes -/

namespace Task

open Registration (KnowsBelow)

variable {task registered : Task} {summary : ImportSummary}

theorem imports_substituteWith (h : task.registerImports = (.ok summary, registered))
    (history : Buildable → History) :
    (registered.substituteWith history).2.imports = registered.imports := by
  obtain ⟨hsame, hknows⟩ := knowsBelow_of_registerImports h
  rw [hsame] at hknows ⊢
  refine substituteWith_keeps (· = registered.imports)
    (KnowsBelow task.graph task.baseModule registered.imports) history
    (fun _ hwhole _ => hwhole.part) hknows ?_ rfl
  rintro value visit hvalue hvisit symbol hsymbol manager name after rfl hadd
  exact ImportManager.add_of_knows (hvalue.knows hvisit symbol hsymbol) hadd

end Task

/-! ## The commands -/

namespace CommandLine

/-- The text of generated code whose imports and functions are these. -/
def moduleText (settings : Settings) (compact : Bool) (imports : List Import)
    (functions : Json) : String :=
  let json := Json.object [("imports", .ofList Import.toJson imports), ("functions", functions)]
  (if settings.pretty && !compact then json.pretty else json.compact) ++ "\n"

variable {settings : Settings} {files : Workspace} {input text : String} {compact : Bool}

theorem registered_eq_ok {task known : Task} {summary : ImportSummary}
    (h : registered task = .ok (summary, known)) :
    task.registerImports = (.ok summary, known) := by
  rw [registered] at h
  split at h
  · next hregistered =>
      obtain ⟨rfl, rfl⟩ := Prod.mk.inj (Except.ok.inj h)
      exact hregistered
  · contradiction

theorem substituted_eq_ok {task lowered : Task} (h : substituted task = .ok lowered) :
    task.substituteWith noHistory = (.ok (), lowered) := by
  rw [substituted] at h
  split at h
  · next hsubstituted => exact Except.ok.inj h ▸ hsubstituted
  · contradiction

theorem imports_generatedText (h : generatedText settings files input compact = .ok text) :
    ∃ task summary known functions,
      loadTask settings files input = .ok task ∧
      registered task = .ok (summary, known) ∧
      text = moduleText settings compact known.imports.imports functions := by
  obtain ⟨task, hload, h⟩ := (bind_eq_ok_iff _ _).mp h
  obtain ⟨⟨summary, known⟩, hregistered, h⟩ := (bind_eq_ok_iff _ _).mp h
  obtain ⟨lowered, hsubstituted, h⟩ := (bind_eq_ok_iff _ _).mp h
  have himports := Task.imports_substituteWith (registered_eq_ok hregistered) noHistory
  rw [substituted_eq_ok hsubstituted] at himports
  refine ⟨task, summary, known, .ofList Fixture.toJson lowered.fixtures, hload, hregistered, ?_⟩
  rw [moduleText, ← himports]
  exact (Except.ok.inj h).symm

/-- Once a task is registered, its substitution leaves the imports as they are, whether it
succeeds or not. So wherever code is generated, the imports that are shown are those of the
code. -/
theorem registration_settles_imports :
    (∀ (task known : Task) (summary : ImportSummary) (history : Buildable → History),
      task.registerImports = (.ok summary, known) →
        (known.substituteWith history).2.imports = known.imports) ∧
    ∀ (settings : Settings) (files : Workspace) (input text : String) (compact : Bool),
      generatedText settings files input compact = .ok text →
        ∃ (summary : ImportSummary) (known : Task) (functions : Json),
          text = moduleText settings compact known.imports.imports functions ∧
          ∀ (options : Options) (format : ImportsFormat),
            showImports options settings files input format =
              .ok (.success (importsText options.quiet known summary format)) := by
  refine ⟨fun task known summary history h => Task.imports_substituteWith h history, ?_⟩
  intro settings files input text compact h
  obtain ⟨task, summary, known, functions, hload, hregistered, htext⟩ := imports_generatedText h
  refine ⟨summary, known, functions, htext, fun options format => ?_⟩
  rw [showImports, bind_eq_ok_iff]
  refine ⟨task, hload, (bind_eq_ok_iff _ _).mpr ⟨(summary, known), hregistered, rfl⟩⟩

def oneNode : GraphDocument where
  nodes := [⟨"a", .config, .function "models" "Model", []⟩]
  fixture := .entry "build" [] [] (.node "a") []

def oneNodeFiles : Workspace where
  tree := .directory [("work", .directory [("doc.json", .file oneNode.toJson.compact.toUTF8)])]
  directory := "/work"

theorem isOk_generatedText_oneNode :
    (generatedText .default oneNodeFiles "doc.json" true).isOk := by
  decide +kernel

theorem registration_settles_imports_oneNode :
    (Task.sharedBody.registerImports.2.substituteWith noHistory).2.imports =
        Task.sharedBody.registerImports.2.imports ∧
      ∃ text, generatedText .default oneNodeFiles "doc.json" true = .ok text ∧
        ∃ (summary : ImportSummary) (known : Task) (functions : Json),
          text = moduleText .default true known.imports.imports functions ∧
          ∀ (options : Options) (format : ImportsFormat),
            showImports options .default oneNodeFiles "doc.json" format =
              .ok (.success (importsText options.quiet known summary format)) := by
  constructor
  · have hregistered : Task.sharedBody.registerImports.1 = .ok ⟨2, 0, 0⟩ := by decide +kernel
    have hrun : Task.sharedBody.registerImports =
        (.ok ⟨2, 0, 0⟩, Task.sharedBody.registerImports.2) := by rw [← hregistered]
    exact registration_settles_imports.1 _ _ _ noHistory hrun
  · obtain ⟨text, htext⟩ := exists_of_isOk isOk_generatedText_oneNode
    exact ⟨text, htext, registration_settles_imports.2 _ _ _ _ _ htext⟩

end CommandLine

end ConfigLowering
