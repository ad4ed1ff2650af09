import Mathlib.Data.List.DropRight
import ConfigLowering.Proofs.Settings.Inheritance

/-!
# The snapshot of the global file

While files change, a loader keeps to the global file as the first call that could read it found
it, until its cache is cleared. It remembers nothing else: no file that was missing or could not
be read, and none of the other files.
-/

namespace ConfigLowering.SettingsLoader

/-! ## Calls -/

inductive Call where
  | load (project : String) (overrides : Overrides)
  | loadGlobal
  | loadLocal (project : String)
  | loadFile (path : String) (overrides : Overrides)
  | clearCache

inductive Answer where
  | settings (outcome : Except SettingsError Settings)
  | layer (outcome : Except SettingsError (Option Settings))
  | cleared

def respond (loader : SettingsLoader) (files : Workspace) : Call → Answer × SettingsLoader
  | .load project overrides => (loader.load files project overrides).map .settings id
  | .loadGlobal => (loader.loadGlobal files).map .layer id
  | .loadLocal project => (.layer (loadLocal files project), loader)
  | .loadFile path overrides => (.settings (loadFile files path overrides), loader)
  | .clearCache => (.cleared, loader.clearCache)

namespace Call

def asksGlobal : Call → Bool
  | load _ _ | loadGlobal => true
  | _ => false

def clears : Call → Bool
  | clearCache => true
  | _ => false

end Call

/-! ## Sessions -/

/-- A loader among files that anyone may change. -/
structure Session where
  loader : SettingsLoader
  files : Workspace

inductive Event where
  /-- The files are these from now on. -/
  | change (files : Workspace)
  | call (call : Call)

namespace Session

/-- A new loader, with or without a directory for global settings. -/
def start (directory : Option String) (files : Workspace) : Session := ⟨⟨directory, none⟩, files⟩

def perform (session : Session) : Event → Session
  | .change files => { session with files }
  | .call call => { session with loader := (session.loader.respond session.files call).2 }

def performAll (session : Session) (events : List Event) : Session := events.foldl perform session

@[simp] theorem performAll_nil (session : Session) : session.performAll [] = session := rfl

@[simp] theorem performAll_cons (session : Session) (event : Event) (events : List Event) :
    session.performAll (event :: events) = (session.perform event).performAll events := rfl

end Session

/-! ## The snapshot -/

/-- A call, with the files as they are when it is made. -/
structure Moment where
  files : Workspace
  call : Call

def moments (files : Workspace) : List Event → List Moment
  | [] => []
  | .change files :: events => moments files events
  | .call call :: events => ⟨files, call⟩ :: moments files events

/-- The settings that a call finds in the global file, if it asks for them. -/
def Moment.found? (directory : Option String) (moment : Moment) : Option Settings :=
  if moment.call.asksGlobal then (readGlobal directory moment.files).toOption.join else none

theorem Moment.found?_eq_some_iff {directory : Option String} {moment : Moment}
    {settings : Settings} :
    moment.found? directory = some settings ↔
      moment.call.asksGlobal ∧ ∃ path ∈ directory.map (joinPath · fileName), ∃ text,
        moment.files.readText path = .ok text ∧ Settings.parse text = some settings := by
  rw [← readGlobal_eq_some_iff, Moment.found?]
  cases moment.call.asksGlobal with
  | false => simp
  | true => rcases readGlobal directory moment.files with error | _ | found <;> simp [Except.toOption]

/-- What the first call found that found something since the cache was cleared. -/
def snapshot? (directory : Option String) (moments : List Moment) : Option Settings :=
  (moments.rtakeWhile (!·.call.clears)).findSome? (Moment.found? directory)

theorem snapshot?_concat (directory : Option String) (moments : List Moment) (moment : Moment) :
    snapshot? directory (moments ++ [moment]) =
      if moment.call.clears then none
      else (snapshot? directory moments).or (moment.found? directory) := by
  rw [snapshot?, List.rtakeWhile_concat]
  cases hclears : moment.call.clears with
  | true => simp
  | false => simp [snapshot?]

/-- Without a directory nothing is ever found. -/
theorem snapshot?_none (moments : List Moment) : snapshot? none moments = none := by
  rw [snapshot?, List.findSome?_eq_none_iff]
  intro moment _
  rw [Moment.found?]
  split <;> rfl

/-! ## The global layer -/

/-- What the global file counts for: what is remembered of it, or else what it is now. -/
def globalLayer (directory : Option String) (files : Workspace) :
    Option Settings → Except SettingsError (Option Settings)
  | some settings => .ok (some settings)
  | none => readGlobal directory files

/-- The settings of a project by a global layer and the local file as it is now. -/
def settle (layer : Except SettingsError (Option Settings)) (files : Workspace)
    (project : String) (overrides : Overrides) : Except SettingsError Settings := do
  let globalSettings ← layer
  let localSettings ← readIfPresent files (localPath project)
  return (mergeOptional (mergeOptional .default globalSettings) localSettings).override overrides

theorem loadGlobal_eq (loader : SettingsLoader) (files : Workspace) :
    loader.loadGlobal files =
      (globalLayer loader.globalDirectory files loader.cachedGlobal, { loader with
        cachedGlobal :=
          (globalLayer loader.globalDirectory files loader.cachedGlobal).toOption.join }) := by
  obtain ⟨directory, cached⟩ := loader
  cases cached with
  | some settings => rfl
  | none =>
      cases directory with
      | none => rfl
      | some directory =>
          simp only [loadGlobal, globalPath?, Option.map_some, globalLayer, readGlobal]
          rcases readIfPresent files (joinPath directory fileName) with error | _ | settings <;> rfl

theorem load_eq (loader : SettingsLoader) (files : Workspace) (project : String)
    (overrides : Overrides) :
    loader.load files project overrides =
      (settle (loader.loadGlobal files).1 files project overrides, (loader.loadGlobal files).2) := by
  rw [load, settle, loadLocal]
  rcases loader.loadGlobal files with ⟨error | globalSettings, after⟩
  · rfl
  · cases readIfPresent files (localPath project) <;> rfl

/-- What is remembered is found in the global layer, and nothing else is. -/
theorem toOption_globalLayer (directory : Option String) (files : Workspace)
    (cached : Option Settings) :
    (globalLayer directory files cached).toOption.join =
      cached.or (readGlobal directory files).toOption.join := by
  cases cached <;> rfl

/-! ## Sessions keep to the snapshot -/

theorem globalDirectory_respond (loader : SettingsLoader) (files : Workspace) (call : Call) :
    (loader.respond files call).2.globalDirectory = loader.globalDirectory := by
  cases call <;> simp [respond, load_eq, loadGlobal_eq, clearCache]

theorem cachedGlobal_respond (loader : SettingsLoader) (files : Workspace) (call : Call) :
    (loader.respond files call).2.cachedGlobal =
      if call.clears then none
      else loader.cachedGlobal.or (Moment.found? loader.globalDirectory ⟨files, call⟩) := by
  cases call <;>
    simp [respond, load_eq, loadGlobal_eq, toOption_globalLayer, clearCache, Call.clears,
      Call.asksGlobal, Moment.found?]

/-- The session is one with this global directory, and its loader remembers the snapshot. -/
structure Session.Remembers (session : Session) (directory : Option String) (past : List Moment) :
    Prop where
  globalDirectory : session.loader.globalDirectory = directory
  cachedGlobal : session.loader.cachedGlobal = snapshot? directory past

namespace Session.Remembers

variable {session : Session} {directory : Option String} {past : List Moment}

theorem call (h : session.Remembers directory past) (call : Call) :
    (session.perform (.call call)).Remembers directory (past ++ [⟨session.files, call⟩]) where
  globalDirectory := (globalDirectory_respond _ _ _).trans h.globalDirectory
  cachedGlobal := by
    rw [snapshot?_concat, ← h.cachedGlobal, ← h.globalDirectory]
    exact cachedGlobal_respond _ _ _

theorem performAll (h : session.Remembers directory past) (events : List Event) :
    (session.performAll events).Remembers directory (past ++ moments session.files events) := by
  induction events generalizing session past with
  | nil => simpa [moments] using h
  | cons event events ih =>
      rw [performAll_cons]
      cases event with
      | change files => exact ih ⟨h.globalDirectory, h.cachedGlobal⟩
      | call call =>
          rw [moments, ← List.singleton_append, ← List.append_assoc]
          exact ih (h.call call)

end Session.Remembers

theorem Session.remembers_start (directory : Option String) (files : Workspace) :
    (start directory files).Remembers directory [] := ⟨rfl, rfl⟩

/-! ## Answers -/

end ConfigLowering.SettingsLoader
