import ConfigLowering.Proofs.Document.Tasks
import ConfigLowering.Proofs.Registration.Completeness
import ConfigLowering.Proofs.Substitution.Keeping
import ConfigLowering.Proofs.Value.Enclosing

/-!
# Generated bodies are closed

What holds of each value that the substitution makes holds everywhere in the bodies: the
results that it keeps and uses again were made in the same way. No config node and no
importable symbol is left, and the code that was made uses names that are registered.
-/

namespace ConfigLowering

namespace ImportManager

def HasName (manager : ImportManager) (name : String) : Prop :=
  ∃ key, manager.nameOfKey? key = some name

variable {before after : ImportManager}

theorem Grows.hasName (h : before.Grows after) {name : String} (hname : before.HasName name) :
    after.HasName name := by
  obtain ⟨key, hkey⟩ := hname
  exact ⟨key, h _ _ hkey⟩

theorem hasName_of_map {symbols : List Symbol} {names : List String}
    (h : symbols.map before.nameOf? = names.map some) : ∀ name ∈ names, before.HasName name := by
  intro name hname
  have hmem : some name ∈ symbols.map before.nameOf? := h ▸ List.mem_map_of_mem hname
  obtain ⟨symbol, -, hsymbol⟩ := List.mem_map.mp hmem
  exact ⟨symbol.key, hsymbol⟩

end ImportManager

namespace Substitution

variable {graph : ConfigGraph} {baseModule : String} {history : Buildable → History}
  {before after : State} {values results : List Value} {made : List Origin}
  {holds fine : Value → Prop} {imports : ImportManager}

/-! ## Finished nodes -/

/-- Only wrappers are put around arguments, with names that are registered then. -/
theorem wrapped_of_foldlM {buildable : Buildable} {fields : List (String × TagSet)}
    {arguments attached : Arguments Value}
    (h : (fields.foldlM (fun arguments (field, tags) =>
      attachTags buildable arguments field tags) arguments).Yields before attached after) :
    (∃ imports nextCode, before.context.Grows imports ∧
      after = { before with context := imports, nextCode }) ∧
    ((∀ id tagNames item, (∀ name ∈ tagNames, after.context.HasName name) → fine item →
        fine (.tagged id tagNames item)) →
      (∀ item ∈ arguments.values, fine item) → ∀ item ∈ attached.values, fine item) := by
  induction fields generalizing arguments before with
  | nil =>
      obtain ⟨rfl, rfl⟩ := h.of_pure
      exact ⟨⟨_, _, .refl _, rfl⟩, fun _ hfine => hfine⟩
  | cons entry fields ih =>
      rw [List.foldlM_cons] at h
      obtain ⟨first, between, hfirst, hrest⟩ := h.of_bind
      obtain ⟨imports, names, hgrows, hnames, rfl, rfl⟩ := attachTags_spec hfirst
      obtain ⟨⟨imports', nextCode, hgrows', rfl⟩, hattached⟩ := ih hrest
      refine ⟨⟨imports', nextCode, hgrows.trans hgrows', rfl⟩, fun htagged hfine => ?_⟩
      refine hattached htagged fun item hitem => ?_
      obtain hitem | ⟨old, hold, rfl⟩ := Arguments.mem_values_modify hitem
      · exact hfine item hitem
      · refine htagged _ _ _ (fun name hname => ?_) (hfine old hold)
        exact hgrows'.hasName (ImportManager.hasName_of_map hnames name hname)

theorem call_of_finishNode {buildable : Buildable} {callee : String}
    {arguments : Arguments Value} {result : Value}
    (h : (finishNode history buildable callee arguments).Yields before result after) :
    (∃ imports nextCode, before.context.Grows imports ∧
      after = { before with context := imports, nextCode }) ∧
    ∃ id entries, result = .call id callee [.reference buildable.callable] entries
        (history buildable) ∧
      ∀ fine : Value → Prop,
        (∀ id tagNames item, (∀ name ∈ tagNames, after.context.HasName name) → fine item →
          fine (.tagged id tagNames item)) →
        (∀ item ∈ arguments.values, fine item) → ∀ item ∈ entries.map Prod.snd, fine item := by
  rw [finishNode] at h
  obtain ⟨attached, between, hattached, h⟩ := h.of_bind
  obtain ⟨fresh, _, hfresh, hpure⟩ := h.of_bind
  obtain ⟨rfl, rfl⟩ := TransformM.yields_freshCode.mp hfresh
  obtain ⟨rfl, rfl⟩ := hpure.of_pure
  obtain ⟨⟨imports, nextCode, hgrows, rfl⟩, -⟩ :=
    @wrapped_of_foldlM before between (fun _ => True) _ _ _ _ hattached
  refine ⟨⟨imports, _, hgrows, rfl⟩, _, _, rfl, fun fine => ?_⟩
  exact (wrapped_of_foldlM hattached).2

theorem Run.grows (h : Run graph baseModule history before values results made after) :
    before.context.Grows after.context := by
  induction h with
  | nil state => exact .refl _
  | cons _ _ ihfirst ihrest => exact ihfirst.trans ihrest
  | moved start finish _ ih => exact ih
  | symbol hrole hadd => exact (ImportManager.grows_add hadd).1
  | plain _ _ _ _ ih => exact ih
  | knownCode => exact .refl _
  | code _ _ _ ih => exact ih
  | knownNode => exact .refl _
  | node _ _ hcallee hcallable _ hfinish ih =>
      obtain ⟨⟨imports, nextCode, hgrows, rfl⟩, -⟩ := call_of_finishNode hfinish
      exact (ImportManager.grows_add hcallee).1.trans
        ((ImportManager.grows_add hcallable).1.trans (ih.trans hgrows))

/-! ## Runs -/

/-- The property is one of all values that the substitution can make, from values of one
kind and with the names of one import manager. -/
structure Admits (imports : ImportManager) (holds fine : Value → Prop) : Prop where
  reference : ∀ symbol, imports.Knows symbol → fine (.reference symbol)
  call : ∀ id callee positional named comments, imports.HasName callee →
    fine (.call id callee positional named comments)
  tagged : ∀ id tagNames item, (∀ name ∈ tagNames, imports.HasName name) →
    fine (.tagged id tagNames item)
  rebuilt : ∀ value id results, holds value → value.role = .ordinary →
    fine (value.rebuild id results)

namespace Admits

variable (h : Admits imports holds fine)
include h

theorem everywhere_reference {symbol : Symbol} (hknown : imports.Knows symbol) :
    (Value.reference symbol).Everywhere fine :=
  (Value.everywhere_iff _).mpr ⟨h.reference symbol hknown, nofun⟩

theorem everywhere_tagged {tagNames : List String} {item : Value}
    (hnames : ∀ name ∈ tagNames, imports.HasName name) (hitem : item.Everywhere fine)
    (id : CodeId) : (Value.tagged id tagNames item).Everywhere fine :=
  (Value.everywhere_iff _).mpr
    ⟨h.tagged id tagNames item hnames, List.forall_mem_singleton.mpr hitem⟩

theorem everywhere_call {callee : String} {callable : Symbol} {entries : List (String × Value)}
    (hcallee : imports.HasName callee) (hcallable : imports.Knows callable)
    (hentries : ∀ item ∈ entries.map Prod.snd, item.Everywhere fine) (id : CodeId)
    (comments : History) :
    (Value.call id callee [.reference callable] entries comments).Everywhere fine := by
  refine (Value.everywhere_iff _).mpr ⟨h.call id callee _ entries comments hcallee, ?_⟩
  exact List.forall_mem_cons.mpr ⟨h.everywhere_reference hcallable, hentries⟩

theorem everywhere_finishNode {buildable : Buildable} {callee : String}
    {arguments : Arguments Value} {result : Value}
    (hfinish : (finishNode history buildable callee arguments).Yields before result after)
    (hlater : after.context.Grows imports) (hcallee : imports.HasName callee)
    (hcallable : imports.Knows buildable.callable)
    (harguments : ∀ item ∈ arguments.values, item.Everywhere fine) : result.Everywhere fine := by
  obtain ⟨-, id, entries, rfl, hentries⟩ := call_of_finishNode hfinish
  refine h.everywhere_call hcallee hcallable (hentries (·.Everywhere fine) ?_ harguments) id _
  intro id tagNames item hnames hitem
  exact h.everywhere_tagged (fun name hname => hlater.hasName (hnames name hname)) hitem id

end Admits

/-- The results that are kept have the property everywhere. -/
structure KeepsFine (fine : Value → Prop) (state : State) : Prop where
  nodes : ∀ entry ∈ state.nodeResults, entry.2.Everywhere fine
  codes : ∀ entry ∈ state.codeResults, entry.2.Everywhere fine

theorem Run.everywhere (hadmits : Admits imports holds fine)
    (hparts : ∀ whole, holds whole → ∀ part ∈ graph.parts whole, holds part)
    (h : Run graph baseModule history before values results made after)
    (hvalues : ∀ value ∈ values, holds value) (hlater : after.context.Grows imports)
    (hkept : KeepsFine fine before) :
    KeepsFine fine after ∧ ∀ result ∈ results, result.Everywhere fine := by
  -- Every state in between grows into the one whose imports give the names.
  induction h with
  | nil state => exact ⟨hkept, nofun⟩
  | cons hfirst hrest ihfirst ihrest =>
      obtain ⟨hvalue, hvalues⟩ := List.forall_mem_cons.mp hvalues
      obtain ⟨hbetween, hhead⟩ := ihfirst (List.forall_mem_singleton.mpr hvalue)
        (hrest.grows.trans hlater) hkept
      obtain ⟨hafter, htail⟩ := ihrest hvalues hlater hbetween
      exact ⟨hafter, List.forall_mem_cons.mpr ⟨List.forall_mem_singleton.mp hhead, htail⟩⟩
  | moved start finish _ ih =>
      obtain ⟨hafter, hresults⟩ := ih hvalues hlater ⟨hkept.nodes, hkept.codes⟩
      exact ⟨⟨hafter.nodes, hafter.codes⟩, hresults⟩
  | @symbol _ symbol name _ _ hadd =>
      have hknown : imports.Knows symbol :=
        hlater.knows ⟨name, (ImportManager.grows_add hadd).2⟩
      exact ⟨⟨hkept.nodes, hkept.codes⟩,
        List.forall_mem_singleton.mpr (hadmits.everywhere_reference hknown)⟩
  | plain hnode _ hrole hrun ih =>
      have hvalue := List.forall_mem_singleton.mp hvalues
      have hheld := hparts _ hvalue
      rw [graph.parts_eq_children hnode] at hheld
      obtain ⟨hafter, hresults⟩ := ih hheld hlater hkept
      refine ⟨hafter, List.forall_mem_singleton.mpr ?_⟩
      exact Value.everywhere_rebuild hrun.length_eq (hadmits.rebuilt _ _ _ hvalue hrole) hresults
  | knownCode _ hknown =>
      refine ⟨hkept, List.forall_mem_singleton.mpr ?_⟩
      exact hkept.codes _ (Arguments.mem_of_lookup hknown)
  | code hcode _ hrun ih =>
      have hvalue := List.forall_mem_singleton.mp hvalues
      have hheld := hparts _ hvalue
      rw [graph.parts_eq_children (Value.asNode?_of_codeId? hcode)] at hheld
      obtain ⟨hafter, hresults⟩ := ih hheld hlater hkept
      have hresult : ∀ id, (Value.rebuild id _ _).Everywhere fine := fun id =>
        Value.everywhere_rebuild hrun.length_eq
          (hadmits.rebuilt _ id _ hvalue (Value.role_of_codeId? hcode)) hresults
      exact ⟨⟨hafter.nodes, List.forall_mem_cons.mpr ⟨hresult _, hafter.codes⟩⟩,
        List.forall_mem_singleton.mpr (hresult _)⟩
  | knownNode hknown =>
      refine ⟨hkept, List.forall_mem_singleton.mpr ?_⟩
      exact hkept.nodes _ (Arguments.mem_of_lookup hknown)
  | node _ hnode hcallee hcallable hrun hfinish ih =>
      have hheld := hparts _ (List.forall_mem_singleton.mp hvalues)
      rw [ConfigGraph.parts_node hnode] at hheld
      obtain ⟨⟨imports', nextCode, hgrows, hsame⟩, -⟩ := call_of_finishNode hfinish
      have hlater' : imports'.Grows imports := by
        rw [hsame] at hlater
        exact hlater
      obtain ⟨hbetween, hresults⟩ := ih hheld (hgrows.trans hlater') ⟨hkept.nodes, hkept.codes⟩
      have hlast := hrun.grows.trans (hgrows.trans hlater')
      obtain ⟨-, hcallee⟩ := ImportManager.grows_add hcallee
      obtain ⟨hgrowsCallable, hcallable⟩ := ImportManager.grows_add hcallable
      have hcall := hadmits.everywhere_finishNode hfinish hlater
        ((hgrowsCallable.trans hlast).hasName ⟨_, hcallee⟩) (hlast.knows ⟨_, hcallable⟩)
        (fun item hitem => by
          obtain ⟨entry, hentry, rfl⟩ := List.mem_map.mp hitem
          exact hresults entry.2 (List.of_mem_zip hentry).2)
      rw [hsame]
      exact ⟨⟨List.forall_mem_cons.mpr ⟨hcall, hbetween.nodes⟩, hbetween.codes⟩,
        List.forall_mem_singleton.mpr hcall⟩

theorem Lowered.everywhere (hadmits : Admits imports holds fine)
    (hparts : ∀ whole, holds whole → ∀ part ∈ graph.parts whole, holds part)
    {fixtures transformed : List Fixture} {first last : Progress} {made : List (List Origin)}
    (h : Lowered graph baseModule history first fixtures transformed made last)
    (hvalues : ∀ fixture ∈ fixtures, ∀ value ∈ fixture.values, holds value)
    (hlater : last.imports.Grows imports) :
    first.imports.Grows last.imports ∧
      ∀ fixture ∈ transformed, ∀ value ∈ fixture.values, value.Everywhere fine := by
  induction h with
  | nil progress => exact ⟨.refl _, nofun⟩
  | cons hrun _ ih =>
      obtain ⟨hvalue, hothers⟩ := List.forall_mem_cons.mp hvalues
      obtain ⟨hgrows, hrest⟩ := ih hothers hlater
      -- A body starts with nothing kept.
      obtain ⟨-, hresults⟩ := hrun.everywhere hadmits hparts hvalue (hgrows.trans hlater)
        ⟨nofun, nofun⟩
      exact ⟨hrun.grows.trans hgrows, List.forall_mem_cons.mpr ⟨hresults, hrest⟩⟩

end Substitution

/-! ## Tasks -/

namespace Task

open Substitution (Admits)

variable {task : Task} {history : Buildable → History}

theorem everywhere_substituteWith {holds fine : Value → Prop}
    (hadmits : Admits (task.substituteWith history).2.imports holds fine)
    (hparts : ∀ whole, holds whole → ∀ part ∈ task.graph.parts whole, holds part)
    (hvalues : ∀ fixture ∈ task.fixtures, ∀ value ∈ fixture.values, holds value)
    (hok : (task.substituteWith history).1 = .ok ()) :
    ∀ lowered ∈ (task.substituteWith history).2.fixtures, ∀ value ∈ lowered.values,
      value.Everywhere fine := by
  obtain ⟨made, hlowered⟩ := substituteWith_lowered hok
  exact (hlowered.everywhere hadmits hparts hvalues (.refl _)).2

theorem wellFormed_substituteWith (himports : task.imports.WellFormed)
    (history : Buildable → History) : (task.substituteWith history).2.imports.WellFormed :=
  substituteWith_keeps ImportManager.WellFormed (fun _ => True) history
    (fun _ _ _ _ => trivial) (fun _ _ _ _ => trivial)
    (fun _ _ _ _ _ _ _ _ _ hmanager hadd => hmanager.add hadd) himports

end Task

/-! ## Names in generated code -/

namespace ImportManager

variable {manager : ImportManager}

/-- The name is registered, and its head is the alias of an import unless it is a builtin's
bare name. -/
def Resolves (manager : ImportManager) (name : String) : Prop :=
  ∃ key, manager.nameOfKey? key = some name ∧
    (manager.isAlias (splitAtFirstDot name).1 ∨
      key.module = Symbol.builtinsModule ∧ name = key.qualname)

/-- The value itself names registered symbols only, whatever its children name. -/
def Names (manager : ImportManager) : Value → Prop
  | .reference symbol => manager.Knows symbol
  | .call _ callee _ _ _ => manager.Resolves callee
  | .tagged _ tagNames _ => ∀ name ∈ tagNames, manager.Resolves name
  | _ => True

theorem WellFormed.resolves (h : manager.WellFormed) {name : String} (hname : manager.HasName name) :
    manager.Resolves name := by
  obtain ⟨key, hkey⟩ := hname
  refine ⟨key, hkey, ?_⟩
  obtain ⟨hmodule, hname, -, -⟩ | ⟨entry, hentry, -, rfl⟩ := h.names key name hkey
  · exact .inr ⟨hmodule, hname⟩
  · left
    rw [splitAtFirstDot_append (dot_not_mem_of_isIdentifier (h.identifiers entry hentry)),
      isAlias_iff]
    exact ⟨entry, hentry, rfl⟩

theorem names_of_codeless {value : Value} (h : value.isCode = false) : manager.Names value := by
  cases value <;> trivial

end ImportManager

namespace Substitution

theorem admits_ordinary (imports : ImportManager) :
    Admits imports (fun _ => True) fun value => value.role = .ordinary where
  reference _ _ := rfl
  call _ _ _ _ _ _ := rfl
  tagged _ _ _ _ := rfl
  rebuilt _ id results _ hrole := Value.role_rebuild id results hrole

theorem admits_names {imports : ImportManager} (h : imports.WellFormed) (graph : ConfigGraph) :
    Admits imports (fun value => ∀ part, graph.Below value part → part.isCode = false)
      imports.Names where
  reference _ hknown := hknown
  call _ _ _ _ _ hname := h.resolves hname
  tagged _ _ _ hnames := fun name hname => h.resolves (hnames name hname)
  rebuilt value id results hvalue _ := by
    apply ImportManager.names_of_codeless
    rw [Value.isCode_rebuild]
    exact hvalue value .refl

end Substitution

/-- Generated bodies are closed: no config node and no importable symbol is left at any depth.
Where no code was before, as in every document, all names in the code that was made resolve
by the imports in the end. -/
theorem Task.substituteWith_closed :
    (∀ (task : Task) (history : Buildable → History),
      (task.substituteWith history).1 = .ok () →
        (∀ lowered ∈ (task.substituteWith history).2.fixtures, ∀ value ∈ lowered.values,
          value.Everywhere fun part => part.role = .ordinary) ∧
        ∀ settings, ImportManager.Reachable settings task.imports → task.Codeless →
          ∀ lowered ∈ (task.substituteWith history).2.fixtures, ∀ value ∈ lowered.values,
            value.Everywhere (task.substituteWith history).2.imports.Names) ∧
    ∀ (document : GraphDocument) (settings : ImportSettings) (task : Task)
      (positions : NodePositions), document.toTask settings = .ok (task, positions) →
        task.Codeless ∧ ImportManager.Reachable settings task.imports := by
  constructor
  · intro task history hok
    constructor
    · exact everywhere_substituteWith (Substitution.admits_ordinary _) (fun _ _ _ _ => trivial)
        (fun _ _ _ _ => trivial) hok
    · intro settings hreachable hcodeless
      have hwell := wellFormed_substituteWith hreachable.wellFormed history
      exact everywhere_substituteWith (Substitution.admits_names hwell task.graph)
        (fun _ hwhole _ hpart part hbelow => hwhole part (.head hpart hbelow)) hcodeless hok
  · intro document settings task positions h
    obtain ⟨hcodeless, himports⟩ := document.codeless_toTask h
    exact ⟨hcodeless, himports ▸ .start⟩

/-- A node with a tagged argument, and a list of it and a builtin. -/
def taggedDocument : GraphDocument where
  nodes := [⟨"a", .config, .classType "models" "Model",
    [⟨"size", some (.int 1), [.classType "tags" "Size"]⟩]⟩]
  fixture := .entry "build" [] [] (.list [.node "a", .symbol (.builtin "len")]) []

theorem Task.substituteWith_closed_taggedDocument :
    ∃ task positions, taggedDocument.toTask .default = .ok (task, positions) ∧
      (task.substituteWith noHistory).1 = .ok () ∧
      ∀ lowered ∈ (task.substituteWith noHistory).2.fixtures, ∀ value ∈ lowered.values,
        value.Everywhere (fun part => part.role = .ordinary) ∧
        value.Everywhere (task.substituteWith noHistory).2.imports.Names := by
  have hrun : ((taggedDocument.toTask .default).map fun (task, _) =>
      (task.substituteWith noHistory).1) = .ok (.ok ()) := by decide +kernel
  cases htask : taggedDocument.toTask .default with
  | error error =>
      rw [htask] at hrun
      contradiction
  | ok result =>
      obtain ⟨task, positions⟩ := result
      rw [htask] at hrun
      have hok : (task.substituteWith noHistory).1 = .ok () := Except.ok.inj hrun
      obtain ⟨hcodeless, hreachable⟩ := substituteWith_closed.2 _ _ _ _ htask
      obtain ⟨hordinary, hnames⟩ := substituteWith_closed.1 _ _ hok
      exact ⟨task, positions, rfl, hok, fun lowered hlowered value hvalue =>
        ⟨hordinary lowered hlowered value hvalue,
          hnames _ hreachable hcodeless lowered hlowered value hvalue⟩⟩

end ConfigLowering
