import ConfigLowering.Proofs.Document.Tasks
import ConfigLowering.Proofs.Registration.Tasks
import ConfigLowering.Proofs.Settings.Validation
import ConfigLowering.Proofs.Substitution.Agreement
import ConfigLowering.Proofs.Substitution.Verdict

/-!
# Generation under valid settings

Settings decide how imports are named. Whether code can be generated from a document does not
depend on them, as long as symbols can be imported from the base module.
-/

namespace ConfigLowering

/-! ## Other settings for a task -/

/-- The task with no imports yet, under other settings. -/
def Task.withSettings (task : Task) (settings : ImportSettings) : Task :=
  { task with imports := .ofSettings settings, baseModule := settings.baseModule }

theorem GraphDocument.toTask_withSettings (document : GraphDocument)
    (settings other : ImportSettings) :
    document.toTask other = (document.toTask settings).map fun (task, positions) =>
      (task.withSettings other, positions) := by
  rw [toTask, toTask]
  cases document.buildGraph with
  | error error => rfl
  | ok built =>
      obtain ⟨graph, positions⟩ := built
      change (document.fixture.toCallTree positions >>= _) =
        Except.map _ (document.fixture.toCallTree positions >>= _)
      cases document.fixture.toCallTree positions <;> rfl

namespace Task

open ImportManager (Reachable)

variable {task registered : Task} {summary : ImportSummary}

theorem Registrable.withSettings (h : task.Registrable) {settings : ImportSettings}
    (hwrapper : ∀ kind : BuildableKind, (kind.wrapper settings.baseModule).isImportable) :
    (task.withSettings settings).Registrable where
  known := h.known
  importable id buildable hreaches hfound := by
    obtain ⟨hcallable, -, htags⟩ := h.importable id buildable hreaches hfound
    exact ⟨hcallable, hwrapper buildable.kind, htags⟩

theorem heap_of_codeless (h : task.Codeless) : Heap task.graph task.Reaches where
  parts := by
    rintro whole ⟨fixture, hfixture, root, hroot, hbelow⟩ part hpart
    exact ⟨fixture, hfixture, root, hroot, hbelow.tail hpart⟩
  coherent := by
    rintro first second id ⟨fixture, hfixture, root, hroot, hbelow⟩ - hid -
    have hcode := h fixture hfixture root hroot first hbelow
    cases first <;> simp_all [Value.isCode, Value.codeId?]

/-- A registered task without code objects is substituted exactly when no tag is on an unset
field. -/
theorem substituteWith_eq_ok_iff (hgraph : task.graph.WellFormed) (hcodeless : task.Codeless)
    (h : task.registerImports = (.ok summary, registered)) (history : Buildable → History) :
    (registered.substituteWith history).1 = .ok () ↔
      ∀ fixture ∈ task.fixtures, ¬ fixture.Lacking task.graph := by
  obtain ⟨hsame, hknows⟩ := knowsBelow_of_registerImports h
  have hheap := heap_of_codeless hcodeless
  have hvalues : ∀ fixture ∈ task.fixtures, ∀ value ∈ fixture.values, task.Reaches value :=
    fun fixture hfixture value hvalue => ⟨fixture, hfixture, value, hvalue, .refl⟩
  constructor
  · intro hok
    obtain ⟨made, hlowered⟩ := substituteWith_lowered hok
    rw [hsame] at hlowered
    exact hlowered.not_lacking hgraph hheap hvalues
  · intro hlacking
    cases herror : (registered.substituteWith history).1 with
    | ok answer => rfl
    | error error =>
        rw [hsame] at herror
        obtain ⟨earlier, fixture, later, hfixtures, -, id, path, haccounts⟩ :=
          Substitution.accounts_of_substituteFixtures hgraph hheap hvalues hknows
            (Prod.ext herror rfl)
        have hfixture : fixture ∈ task.fixtures := by simp [hfixtures]
        exact absurd (haccounts.lacking hgraph) (hlacking fixture hfixture)

/-- Neither pass over a task without code objects fails because of its settings, when the
wrappers in the base module can be imported. -/
theorem substituted_withSettings (hgraph : task.graph.WellFormed) (hcodeless : task.Codeless)
    {base settings : ImportSettings} (hreachable : Reachable base task.imports)
    (hwrapper : ∀ kind : BuildableKind, (kind.wrapper settings.baseModule).isImportable)
    (hregistered : task.registerImports = (.ok summary, registered)) {history : Buildable → History}
    (hsubstituted : (registered.substituteWith history).1 = .ok ()) :
    ∃ counted after, (task.withSettings settings).registerImports = (.ok counted, after) ∧
      (after.substituteWith history).1 = .ok () := by
  have hother : (task.withSettings settings).graph.WellFormed ∧
      (task.withSettings settings).Codeless := ⟨hgraph, hcodeless⟩
  have hstart : Reachable settings (task.withSettings settings).imports := .start
  -- What can be registered depends on the settings through the wrappers only.
  have hregistrable : task.Registrable :=
    (exists_registerImports_iff hgraph hreachable).mp ⟨summary, by rw [hregistered]⟩
  obtain ⟨counted, hcounted⟩ :=
    (exists_registerImports_iff hother.1 hstart).mpr (hregistrable.withSettings hwrapper)
  have hagain : (task.withSettings settings).registerImports =
      (.ok counted, (task.withSettings settings).registerImports.2) := Prod.ext hcounted rfl
  -- What can be substituted does not depend on them at all.
  have hlacking : ∀ fixture ∈ task.fixtures, ¬ fixture.Lacking task.graph :=
    (substituteWith_eq_ok_iff hgraph hcodeless hregistered history).mp hsubstituted
  exact ⟨counted, _, hagain,
    (substituteWith_eq_ok_iff hother.1 hother.2 hagain history).mpr hlacking⟩

end Task

/-! ## Generated text -/

namespace CommandLine

open ImportManager (Reachable ofSettings)

variable {settings other : Settings} {files : Workspace} {input : String} {compact : Bool}

theorem loadTask_withSettings (settings other : Settings) (files : Workspace) (input : String) :
    loadTask other files input =
      (loadTask settings files input).map (·.withSettings other.imports) := by
  unfold loadTask
  cases files.readText input with
  | error error => rfl
  | ok text =>
      simp only
      cases GraphDocument.parse text with
      | none => rfl
      | some document =>
          simp only [Settings.forTasks_eq_imports,
            document.toTask_withSettings settings.imports other.imports]
          cases document.toTask settings.imports <;> rfl

theorem toTask_of_loadTask {task : Task} (h : loadTask settings files input = .ok task) :
    ∃ document positions, GraphDocument.toTask document settings.imports = .ok (task, positions) := by
  unfold loadTask at h
  split at h
  · contradiction
  · split at h
    · contradiction
    · next document _ =>
        split at h
        · contradiction
        · next built positions hbuilt =>
            rw [← Except.ok.inj h]
            exact ⟨document, positions, hbuilt⟩

/-- Code is generated from a document when its task is built, registered and substituted. -/
theorem exists_generatedText_iff :
    (∃ text, generatedText settings files input compact = .ok text) ↔
      ∃ task summary known, loadTask settings files input = .ok task ∧
        task.registerImports = (.ok summary, known) ∧
        (known.substituteWith noHistory).1 = .ok () := by
  constructor
  · rintro ⟨text, h⟩
    obtain ⟨task, hload, h⟩ := (bind_eq_ok_iff _ _).mp h
    obtain ⟨⟨summary, known⟩, hregistered, h⟩ := (bind_eq_ok_iff _ _).mp h
    obtain ⟨lowered, hsubstituted, -⟩ := (bind_eq_ok_iff _ _).mp h
    exact ⟨task, summary, known, hload, registered_eq_ok hregistered,
      congrArg Prod.fst (substituted_eq_ok hsubstituted)⟩
  · rintro ⟨task, summary, known, hload, hregistered, hsubstituted⟩
    have hknown : registered task = .ok (summary, known) := by rw [registered, hregistered]
    have hlowered : substituted known = .ok (known.substituteWith noHistory).2 := by
      rw [substituted, Task.substitute, ← Prod.eta (known.substituteWith noHistory), hsubstituted]
    rw [generatedText, hload]
    exact ⟨_, (bind_eq_ok_iff _ _).mpr ⟨task, rfl, (bind_eq_ok_iff _ _).mpr
      ⟨(summary, known), hknown, (bind_eq_ok_iff _ _).mpr ⟨_, hlowered, rfl⟩⟩⟩⟩

/-- What is generated under some settings is generated under any others whose base module has
wrappers that can be imported. -/
theorem exists_generatedText_of_settings
    (hwrapper : ∀ kind : BuildableKind, (kind.wrapper settings.imports.baseModule).isImportable)
    (h : ∃ text, generatedText other files input compact = .ok text) :
    ∃ text, generatedText settings files input compact = .ok text := by
  obtain ⟨task, summary, known, hload, hregistered, hsubstituted⟩ := exists_generatedText_iff.mp h
  obtain ⟨document, positions, htask⟩ := toTask_of_loadTask hload
  obtain ⟨hcodeless, himports⟩ := document.codeless_toTask htask
  have hgraph : task.graph.WellFormed := by
    obtain ⟨graph, hbuilt, -, rfl⟩ := document.toTask_eq_ok htask
    exact (GraphDocument.of_buildGraph hbuilt).2.2.1
  have hreachable : Reachable other.imports task.imports := himports ▸ .start
  obtain ⟨counted, after, hcounted, hafter⟩ :=
    task.substituted_withSettings hgraph hcodeless hreachable hwrapper hregistered hsubstituted
  refine exists_generatedText_iff.mpr ⟨_, counted, after, ?_, hcounted, hafter⟩
  rw [loadTask_withSettings other, hload]
  rfl

/-! ## Valid settings -/

/-- Valid settings keep all their aliases, and their base module can be imported whatever was
done with the imports before. Unless it is the script's module, so can the wrappers in it, and
what cannot be generated under these settings cannot be generated under any. -/
theorem valid_settings_serve (h : settings.validate = .ok ()) :
    (ofSettings settings.imports).aliases = settings.imports.aliases ∧
      (∀ manager, Reachable settings.imports manager →
        (∃ localName after,
          manager.addModule settings.imports.baseModule = (.ok localName, after)) ∧
        (settings.imports.baseModule ≠ Symbol.scriptModule → ∀ kind : BuildableKind,
          ∃ name after,
            manager.add (kind.wrapper settings.imports.baseModule) = (.ok name, after))) ∧
      (settings.imports.baseModule ≠ Symbol.scriptModule →
        ∀ (other : Settings) (files : Workspace) (input : String) (compact : Bool),
          (∃ text, generatedText other files input compact = .ok text) →
            ∃ text, generatedText settings files input compact = .ok text) := by
  have hvalid := (settings.validate_eq_ok_iff.mp h).1
  refine ⟨hvalid.aliases_ofSettings, fun manager hreachable =>
    ⟨hvalid.exists_addModule manager, fun hbase kind => ?_⟩, fun hbase other files input compact => ?_⟩
  · exact (hreachable.exists_add_iff _).mpr ((hvalid.isImportable_wrapper_iff kind).mpr hbase)
  · exact exists_generatedText_of_settings fun kind =>
      (hvalid.isImportable_wrapper_iff kind).mpr hbase

/-- A base module of two segments, whose alias is a reserved name. -/
def companySettings : Settings :=
  { Settings.default with imports := {
    baseModule := "acme.config"
    aliases := Std.ExtTreeMap.ofList [("acme.config", "cfg"), ("numpy", "np")]
    collision := .qualify
    reservedNames := ["cfg"] } }

theorem valid_settings_serve_company :
    companySettings.validate = .ok () ∧ companySettings.imports.baseModule ≠ Symbol.scriptModule ∧
      (ofSettings companySettings.imports).aliases = companySettings.imports.aliases ∧
      (∃ name after, ((ofSettings companySettings.imports).perform (.bind "acme_config")).add
        (BuildableKind.partialCall.wrapper companySettings.imports.baseModule) = (.ok name, after)) ∧
      (∃ text, generatedText .default oneNodeFiles "doc.json" true = .ok text) ∧
      ∃ text, generatedText companySettings oneNodeFiles "doc.json" true = .ok text := by
  have hvalid : companySettings.validate = .ok () := by decide +kernel
  have hbase : companySettings.imports.baseModule ≠ Symbol.scriptModule := by decide
  obtain ⟨haliases, hmanagers, hgenerated⟩ := valid_settings_serve hvalid
  have hdefault : ∃ text, generatedText .default oneNodeFiles "doc.json" true = .ok text :=
    exists_of_isOk isOk_generatedText_oneNode
  exact ⟨hvalid, hbase, haliases,
    (hmanagers _ (Reachable.start.perform (.bind "acme_config"))).2 hbase .partialCall, hdefault,
    hgenerated hbase _ _ _ _ hdefault⟩

def scriptSettings : Settings :=
  { Settings.default with imports := { ImportSettings.default with
    baseModule := Symbol.scriptModule } }

/-- The script's module passes validation, and no wrapper in it can be imported. -/
theorem valid_settings_fail_scriptModule :
    scriptSettings.validate = .ok () ∧
      ((ofSettings scriptSettings.imports).add
        (BuildableKind.config.wrapper scriptSettings.imports.baseModule)).1 =
        .error (.unresolvable (.classType "__main__" "Config")) := by
  decide +kernel

end CommandLine

end ConfigLowering
