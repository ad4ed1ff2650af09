import ConfigLowering.Proofs.Imports.Permanence

/-!
# Import statements

An import statement says which name it binds to which module. Read back, the statements of a
table bind its aliases to its modules, so a table is known from its statements.
-/

namespace ConfigLowering

/-! ## Words -/

def wordsOf (text : String) : List String :=
  (text.toList.splitOn ' ').map String.ofList

theorem wordsOf_intercalate {parts : List String} (h : ∀ part ∈ parts, ' ' ∉ part.toList)
    (hne : parts ≠ []) : wordsOf (" ".intercalate parts) = parts := by
  have hsplit : (" ".intercalate parts).toList.splitOn ' ' = parts.map String.toList := by
    rw [String.toList_intercalate]
    exact List.splitOn_intercalate ' ' (by simpa using h) (by simpa using hne)
  rw [wordsOf, hsplit, List.map_map]
  simp [Function.comp_def]

theorem space_not_mem_of_isIdentifier {name : String} (h : isIdentifier name) :
    ' ' ∉ name.toList :=
  fun hspace => absurd (isIdentifierPart_of_mem h ' ' hspace) (by decide)

theorem space_not_mem_of_isDottedPath {path : String} (h : isDottedPath path) :
    ' ' ∉ path.toList := by
  intro hspace
  obtain ⟨segment, hsegment, hmem⟩ := exists_segment_of_mem hspace (by decide)
  exact space_not_mem_of_isIdentifier (isIdentifier_of_mem_segments h hsegment) hmem

theorem space_not_mem_parentPath {path : String} (h : isDottedPath path)
    (hlength : 1 < (segments path).length) : ' ' ∉ (parentPath path).toList := by
  intro hspace
  apply space_not_mem_of_isDottedPath h
  rw [← parentPath_append_lastSegment hlength, String.toList_append, String.toList_append]
  exact List.mem_append_left _ (List.mem_append_left _ hspace)

namespace Import

/-! ## Three forms -/

inductive Form where
  | plain (module : String)
  | member (package name : String)
  | renamed (module localName : String)

namespace Form

def words : Form → List String
  | plain module => ["import", module]
  | member package name => ["from", package, "import", name]
  | renamed module localName => ["import", module, "as", localName]

def ofWords? : List String → Option Form
  | ["import", module] => some (.plain module)
  | ["from", package, "import", name] => some (.member package name)
  | ["import", module, "as", localName] => some (.renamed module localName)
  | _ => none

/-- What a statement of the form binds. The plain form has no rule for a path with dots, of which
it would bind the first segment. -/
def binding? : Form → Option Import
  | plain module => if '.' ∈ module.toList then none else some ⟨module, module⟩
  | member package name => some ⟨package ++ "." ++ name, name⟩
  | renamed module localName => some ⟨module, localName⟩

theorem ofWords?_words (form : Form) : ofWords? form.words = some form := by
  cases form <;> rfl

theorem words_ne_nil (form : Form) : form.words ≠ [] := by
  cases form <;> exact List.cons_ne_nil _ _

end Form

def readForm? (statement : String) : Option Form := Form.ofWords? (wordsOf statement)

def read? (statement : String) : Option Import := (readForm? statement).bind Form.binding?

/-! ## Statements of imports -/

def form (entry : Import) : Form :=
  if entry.module = entry.localName then .plain entry.module
  else if lastSegment entry.module = entry.localName && 1 < (segments entry.module).length then
    .member (parentPath entry.module) entry.localName
  else .renamed entry.module entry.localName

theorem statement_eq (entry : Import) : entry.statement = " ".intercalate entry.form.words := by
  apply String.toList_injective
  rw [statement, form]
  split
  · simp [Form.words]
  · split <;> simp [Form.words]

theorem form_cases (entry : Import) :
    (entry.module = entry.localName ∧ entry.form = .plain entry.module) ∨
      (1 < (segments entry.module).length ∧ lastSegment entry.module = entry.localName ∧
        entry.form = .member (parentPath entry.module) entry.localName) ∨
      entry.form = .renamed entry.module entry.localName := by
  rw [form]
  split
  · next hsame => exact .inl ⟨hsame, rfl⟩
  · split
    · next hmember =>
        obtain ⟨hlast, hlength⟩ := Bool.and_eq_true_iff.mp hmember
        exact .inr (.inl ⟨of_decide_eq_true hlength, of_decide_eq_true hlast, rfl⟩)
    · exact .inr (.inr rfl)

/-- A module can be imported, and its alias bound. -/
structure Proper (entry : Import) : Prop where
  module : isDottedPath entry.module
  localName : isIdentifier entry.localName

namespace Proper

variable {entry : Import}

theorem space_not_mem (h : entry.Proper) : ∀ word ∈ entry.form.words, ' ' ∉ word.toList := by
  have hmodule := space_not_mem_of_isDottedPath h.module
  have hname := space_not_mem_of_isIdentifier h.localName
  obtain ⟨-, hform⟩ | ⟨hlength, -, hform⟩ | hform := entry.form_cases
  · simpa [hform, Form.words] using hmodule
  · have hparent := space_not_mem_parentPath h.module hlength
    simpa [hform, Form.words] using ⟨hparent, hname⟩
  · simpa [hform, Form.words] using ⟨hmodule, hname⟩

theorem readForm?_statement (h : entry.Proper) : readForm? entry.statement = some entry.form := by
  rw [readForm?, statement_eq, wordsOf_intercalate h.space_not_mem entry.form.words_ne_nil,
    Form.ofWords?_words]

/-- The plain form is that of an import whose module is its alias. -/
theorem dot_not_mem (h : entry.Proper) {module : String} (hplain : entry.form = .plain module) :
    '.' ∉ module.toList := by
  obtain ⟨hsame, hform⟩ | ⟨-, -, hform⟩ | hform := entry.form_cases
  · obtain rfl : entry.module = module := Form.plain.inj (hform.symm.trans hplain)
    rw [hsame]
    exact dot_not_mem_of_isIdentifier h.localName
  · exact nomatch hform.symm.trans hplain
  · exact nomatch hform.symm.trans hplain

theorem binding?_form (h : entry.Proper) : entry.form.binding? = some entry := by
  obtain ⟨hsame, hform⟩ | ⟨hlength, hlast, hform⟩ | hform := entry.form_cases
  · rw [hform, Form.binding?, if_neg (h.dot_not_mem hform)]
    obtain ⟨module, localName⟩ := entry
    obtain rfl : module = localName := hsame
    rfl
  · rw [hform, Form.binding?, ← hlast, parentPath_append_lastSegment hlength, hlast]
  · rw [hform, Form.binding?]

theorem read?_statement (h : entry.Proper) : read? entry.statement = some entry := by
  rw [read?, h.readForm?_statement, Option.bind_some, h.binding?_form]

end Proper

end Import

/-! ## Tables -/

namespace ImportManager

variable {settings : ImportSettings} {manager : ImportManager}

theorem isDottedPath_of_registers (h : Reachable settings manager) {key : SymbolKey}
    (hkey : manager.Registers key) : isDottedPath key.module := by
  have himportable : (Symbol.object key.module key.qualname).isImportable := h.isImportable hkey
  exact isDottedPath_module himportable

/-- A module comes into the table for a symbol that can be imported, or as a dotted path. -/
theorem Reachable.isDottedPath_of_mem_imports (h : Reachable settings manager) :
    ∀ entry ∈ manager.imports, isDottedPath entry.module := by
  induction h with
  | start => simp [ofSettings]
  | @perform manager operation hreachable ih =>
      obtain ⟨symbol, name, hadd⟩ | ⟨module, localName, hadd⟩ | ⟨name, hsame⟩ | hsame :=
        manager.perform_cases operation
      · obtain ⟨added, himports, hadded⟩ := (gains_add hadd).imports
        rw [himports]
        refine List.forall_mem_append.mpr ⟨ih, fun entry hentry => ?_⟩
        obtain ⟨key, hkey, -, hmodule⟩ := hadded entry hentry
        rw [← hmodule]
        exact isDottedPath_of_registers (hreachable.perform operation) hkey
      · obtain ⟨added, himports, hadded⟩ := imports_of_addModule hadd
        rw [himports]
        refine List.forall_mem_append.mpr ⟨ih, fun entry hentry => ?_⟩
        rw [hadded entry hentry]
        exact (addModule_eq_ok_iff.mp hadd).1
      · rw [hsame]
        exact ih
      · rw [hsame]
        exact ih

theorem Reachable.proper (h : Reachable settings manager) {entry : Import}
    (hentry : entry ∈ manager.imports) : entry.Proper :=
  ⟨h.isDottedPath_of_mem_imports entry hentry, h.wellFormed.identifiers entry hentry⟩

theorem Reachable.map_read? (h : Reachable settings manager) :
    (manager.imports.map Import.statement).map Import.read? = manager.imports.map some := by
  rw [List.map_map]
  exact List.map_congr_left fun entry hentry => (h.proper hentry).read?_statement

/-- Each statement of a table binds the alias to the module, and only a module without dots has
the plain form. No other table has the same statements. -/
theorem statements_bind_table (h : Reachable settings manager) :
    (∀ entry ∈ manager.imports, Import.read? entry.statement = some entry ∧
      ∀ module, Import.readForm? entry.statement = some (.plain module) →
        '.' ∉ module.toList) ∧
      ∀ otherSettings other, Reachable otherSettings other →
        other.imports.map Import.statement = manager.imports.map Import.statement →
        other.imports = manager.imports := by
  refine ⟨fun entry hentry => ?_, fun otherSettings other hother hsame => ?_⟩
  · have hproper := h.proper hentry
    refine ⟨hproper.read?_statement, fun module hplain => hproper.dot_not_mem ?_⟩
    exact Option.some.inj (hproper.readForm?_statement.symm.trans hplain)
  · have hread := hother.map_read?
    rw [hsame, h.map_read?] at hread
    exact (List.map_injective_iff.mpr (fun _ _ => Option.some.inj) hread).symm

/-- All three forms, two of them for modules with dots, and an alias behind a number. -/
def mixedTable : ImportManager :=
  (ofSettings .default).performAll [
    .addModule "numpy", .add (.classType "models.größe" "Encoder"),
    .add (.classType "vendor.größe" "Encoder"), .addModule "fiddle"]

def mixedStatements : List String := [
  "import numpy", "from models import größe", "import vendor.größe as größe_2",
  "import fiddle as fdl"]

/-- The alias behind a number may also be a preferred one. -/
def namedSettings : ImportSettings where
  baseModule := "fiddle"
  aliases := Std.ExtTreeMap.ofList [("vendor.größe", "größe_2"), ("fiddle", "fdl")]
  collision := .qualify
  reservedNames := []

def namedTable : ImportManager :=
  (ofSettings namedSettings).performAll [
    .addModule "numpy", .addModule "models.größe", .addModule "vendor.größe",
    .addModule "fiddle"]

theorem statements_bind_mixedTable :
    Reachable .default mixedTable ∧ Reachable namedSettings namedTable ∧
      mixedTable.imports.map Import.statement = mixedStatements ∧
      Import.read? "import vendor.größe as größe_2" = some ⟨"vendor.größe", "größe_2"⟩ ∧
      '.' ∉ "numpy".toList ∧ namedTable.imports = mixedTable.imports := by
  have hmixed : Reachable .default mixedTable := Reachable.start.performAll _
  have hnamed : Reachable namedSettings namedTable := Reachable.start.performAll _
  have hstatements : mixedTable.imports.map Import.statement = mixedStatements := by
    decide +kernel
  have hsame : namedTable.imports.map Import.statement = mixedStatements := by decide +kernel
  obtain ⟨hentries, htables⟩ := statements_bind_table hmixed
  have hrenamed : Import.read? (Import.statement ⟨"vendor.größe", "größe_2"⟩) = _ :=
    (hentries ⟨"vendor.größe", "größe_2"⟩ (by decide +kernel)).1
  have hplain : '.' ∉ "numpy".toList :=
    (hentries ⟨"numpy", "numpy"⟩ (by decide +kernel)).2 "numpy" rfl
  have hstatement : Import.statement ⟨"vendor.größe", "größe_2"⟩ =
      "import vendor.größe as größe_2" := by decide +kernel
  rw [hstatement] at hrenamed
  exact ⟨hmixed, hnamed, hstatements, hrenamed, hplain,
    htables _ _ hnamed (hsame.trans hstatements.symm)⟩

end ImportManager

end ConfigLowering
