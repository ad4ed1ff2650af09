import ConfigLowering.Proofs.Settings.Stated
import ConfigLowering.Settings.Loader

/-!
# Reading settings

A file gives the settings that its text parses to. A missing file gives none, and one that
cannot be read or parsed gives an error that names it. Without a directory for global settings
their file is missing.
-/

namespace ConfigLowering

theorem Workspace.exists?_of_readText {files : Workspace} {path text : String}
    (h : files.readText path = .ok text) : files.exists? path := by
  rw [Workspace.exists?, FileTree.exists?]
  rw [Workspace.readText, FileTree.readText, FileTree.readBytes] at h
  cases hfound : files.tree.lookup (files.place path) with
  | ok tree => rfl
  | error error =>
      rw [hfound] at h
      contradiction

namespace SettingsLoader

variable {files : Workspace} {path text : String} {settings : Settings} {stated : StatedSettings}

/-! ## One file -/

theorem readSettings_eq_ok_iff :
    readSettings files path = .ok settings ↔
      ∃ text, files.readText path = .ok text ∧ Settings.parse text = some settings := by
  unfold readSettings
  cases files.readText path with
  | error cause => simp
  | ok text =>
      simp only [Except.ok.injEq, exists_eq_left']
      generalize Settings.parse text = parsed
      cases parsed <;> simp

theorem readSettings_eq_error_iff {error : SettingsError} :
    readSettings files path = .error error ↔
      (∃ cause, files.readText path = .error cause ∧ error = .fileFailed .read path cause) ∨
        ∃ text, files.readText path = .ok text ∧ Settings.parse text = none ∧
          error = .malformed path := by
  unfold readSettings
  cases files.readText path with
  | error cause => simp [eq_comm]
  | ok text =>
      simp only [reduceCtorEq, false_and, exists_false, false_or, Except.ok.injEq, exists_eq_left']
      generalize Settings.parse text = parsed
      cases parsed <;> simp [eq_comm]

theorem readIfPresent_of_exists (h : files.exists? path) :
    readIfPresent files path = (readSettings files path).map some := if_pos h

theorem readIfPresent_eq_none_iff :
    readIfPresent files path = .ok none ↔ ¬ files.exists? path := by
  rw [readIfPresent]
  split
  · next hexists => cases readSettings files path <;> simp [Except.map, hexists]
  · next habsent => simp [habsent]

theorem readIfPresent_eq_some_iff :
    readIfPresent files path = .ok (some settings) ↔
      ∃ text, files.readText path = .ok text ∧ Settings.parse text = some settings := by
  rw [← readSettings_eq_ok_iff]
  by_cases hexists : files.exists? path
  · rw [readIfPresent_of_exists hexists]
    cases readSettings files path <;> simp [Except.map]
  · rw [readIfPresent, if_neg hexists]
    refine ⟨nofun, fun h => ?_⟩
    obtain ⟨text, hread, -⟩ := readSettings_eq_ok_iff.mp h
    exact absurd (Workspace.exists?_of_readText hread) hexists

theorem readIfPresent_eq_error_iff {error : SettingsError} :
    readIfPresent files path = .error error ↔
      files.exists? path ∧
        ((∃ cause, files.readText path = .error cause ∧ error = .fileFailed .read path cause) ∨
          ∃ text, files.readText path = .ok text ∧ Settings.parse text = none ∧
            error = .malformed path) := by
  rw [← readSettings_eq_error_iff, readIfPresent]
  split
  · next hexists => cases readSettings files path <;> simp [Except.map, hexists]
  · next habsent => simp [habsent]

theorem readIfPresent_eq_ok (hread : files.readText path = .ok text)
    (hparse : StatedSettings.parse text = some stated) :
    readIfPresent files path = .ok (some stated.complete) := by
  refine readIfPresent_eq_some_iff.mpr ⟨text, hread, ?_⟩
  rw [Settings.parse_eq, hparse, Option.map_some]

/-! ## The global file -/

/-- What the global file gives as it is now. -/
def readGlobal (directory : Option String) (files : Workspace) :
    Except SettingsError (Option Settings) :=
  match directory with
  | none => .ok none
  | some directory => readIfPresent files (joinPath directory fileName)

theorem readGlobal_eq_some_iff {directory : Option String} :
    readGlobal directory files = .ok (some settings) ↔
      ∃ path ∈ directory.map (joinPath · fileName), ∃ text,
        files.readText path = .ok text ∧ Settings.parse text = some settings := by
  cases directory with
  | none => simp [readGlobal]
  | some directory => simp [readGlobal, readIfPresent_eq_some_iff]

end SettingsLoader

end ConfigLowering
