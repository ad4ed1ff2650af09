import ConfigLowering.Proofs.Registration.Exactness

/-!
# What a task refers to

The symbols that the code of a task needs, read off its graph and bodies. Registration gives
names to exactly these.
-/

namespace ConfigLowering

theorem Buildable.mem_allTags_iff (buildable : Buildable) (tag : Symbol) :
    tag ∈ buildable.allTags ↔ ∃ field, buildable.hasTag field tag := by
  simp only [allTags, hasTag, tagsOf, List.mem_flatMap, Prod.exists,
    Std.ExtTreeMap.mem_toList_iff_getElem?_eq_some, Std.ExtTreeMap.getD_eq_getD_getElem?,
    Std.ExtTreeSet.mem_toList]
  constructor
  · rintro ⟨field, tags, htags, htag⟩
    exact ⟨field, by simpa [htags] using htag⟩
  · rintro ⟨field, htag⟩
    cases htags : buildable.tags[field]? with
    | none => simp [htags] at htag
    | some tags => exact ⟨field, tags, htags, by simpa [htags] using htag⟩

/-- The value stands in the fixture's body, or in an argument of a node that the body reaches. -/
def Fixture.Reaches (graph : ConfigGraph) (fixture : Fixture) (value : Value) : Prop :=
  ∃ root ∈ fixture.values, graph.Below root value

namespace Task

variable {task registered : Task} {summary : ImportSummary} {settings : ImportSettings}

def Reaches (task : Task) (value : Value) : Prop :=
  ∃ fixture ∈ task.fixtures, fixture.Reaches task.graph value

/-- The symbols that reached config nodes need, and the importable plain symbols that are
reached themselves. -/
inductive RefersTo (task : Task) : Symbol → Prop
  | callable {id : NodeId} {buildable : Buildable} :
      task.Reaches (.node id) → task.graph.get? id = some buildable →
      RefersTo task buildable.callable
  | wrapper {id : NodeId} {buildable : Buildable} :
      task.Reaches (.node id) → task.graph.get? id = some buildable →
      RefersTo task (task.wrapper buildable.kind)
  | tag {id : NodeId} {buildable : Buildable} {field : String} {tag : Symbol} :
      task.Reaches (.node id) → task.graph.get? id = some buildable →
      buildable.hasTag field tag → RefersTo task tag
  | plain {symbol : Symbol} :
      task.Reaches (.symbol symbol) → symbol.isPlain → symbol.isImportable → RefersTo task symbol

theorem refersTo_iff (symbol : Symbol) :
    task.RefersTo symbol ↔
      ∃ fixture ∈ task.fixtures, ∃ value ∈ fixture.values, ∃ visit,
        task.graph.Lists value visit ∧ symbol ∈ visit.symbols task.baseModule := by
  constructor
  · have hnode : ∀ {id buildable}, task.Reaches (.node id) →
        task.graph.get? id = some buildable → ∀ other ∈
          (Visit.node id buildable).symbols task.baseModule,
        ∃ fixture ∈ task.fixtures, ∃ value ∈ fixture.values, ∃ visit,
          task.graph.Lists value visit ∧ other ∈ visit.symbols task.baseModule := by
      rintro id buildable ⟨fixture, hfixture, root, hroot, hbelow⟩ hfound other hother
      exact ⟨fixture, hfixture, root, hroot, _,
        ⟨_, hbelow, ConfigGraph.visit?_node hfound⟩, hother⟩
    intro h
    cases h with
    | callable hreaches hfound => exact hnode hreaches hfound _ List.mem_cons_self
    | wrapper hreaches hfound =>
        exact hnode hreaches hfound _ (List.mem_cons_of_mem _ List.mem_cons_self)
    | tag hreaches hfound htag =>
        exact hnode hreaches hfound _ (List.mem_cons_of_mem _ (List.mem_cons_of_mem _
          ((Buildable.mem_allTags_iff _ _).mpr ⟨_, htag⟩)))
    | plain hreaches hplain himportable =>
        obtain ⟨fixture, hfixture, root, hroot, hbelow⟩ := hreaches
        refine ⟨fixture, hfixture, root, hroot, _, ⟨_, hbelow, ConfigGraph.visit?_value rfl⟩, ?_⟩
        simp [Visit.symbols, Value.role, hplain, himportable]
  · rintro ⟨fixture, hfixture, root, hroot, visit, ⟨part, hbelow, hpart⟩, hsymbol⟩
    have hreaches : task.Reaches part := ⟨fixture, hfixture, root, hroot, hbelow⟩
    cases part with
    | node id =>
        obtain ⟨buildable, hfound, rfl⟩ := Option.map_eq_some_iff.mp hpart
        simp only [Visit.symbols, List.mem_cons, Buildable.mem_allTags_iff] at hsymbol
        rcases hsymbol with rfl | rfl | ⟨field, htag⟩
        · exact .callable hreaches hfound
        · exact .wrapper hreaches hfound
        · exact .tag hreaches hfound htag
    | symbol other =>
        obtain rfl := Option.some.inj hpart
        rw [Visit.symbols] at hsymbol
        split at hsymbol
        · next hrole =>
            obtain rfl := List.mem_singleton.mp hsymbol
            rw [Value.role] at hrole
            split at hrole
            · next himportable =>
                obtain ⟨hplain, himportable⟩ := Bool.and_eq_true_iff.mp himportable
                exact .plain hreaches hplain himportable
            · contradiction
        · contradiction
    | _ =>
        obtain rfl := Option.some.inj hpart
        contradiction

/-! ## When registration succeeds -/

/-- All references in the bodies are known, and all that reached nodes need can be imported. -/
structure Registrable (task : Task) : Prop where
  known : ∀ fixture ∈ task.fixtures, ∀ value ∈ fixture.values, ∀ id ∈ value.nodeReferences,
    task.graph.contains id
  importable : ∀ id buildable, task.Reaches (.node id) → task.graph.get? id = some buildable →
    buildable.callable.isImportable ∧ (task.wrapper buildable.kind).isImportable ∧
      ∀ field tag, buildable.hasTag field tag → tag.isImportable

theorem importable_iff :
    (∀ symbol, task.RefersTo symbol → symbol.isImportable) ↔
      ∀ id buildable, task.Reaches (.node id) → task.graph.get? id = some buildable →
        buildable.callable.isImportable ∧ (task.wrapper buildable.kind).isImportable ∧
          ∀ field tag, buildable.hasTag field tag → tag.isImportable := by
  constructor
  · intro h id buildable hreaches hfound
    exact ⟨h _ (.callable hreaches hfound), h _ (.wrapper hreaches hfound),
      fun field tag htag => h _ (.tag hreaches hfound htag)⟩
  · intro h symbol hsymbol
    cases hsymbol with
    | callable hreaches hfound => exact (h _ _ hreaches hfound).1
    | wrapper hreaches hfound => exact (h _ _ hreaches hfound).2.1
    | tag hreaches hfound htag => exact (h _ _ hreaches hfound).2.2 _ _ htag
    | plain _ _ himportable => exact himportable

end Task

end ConfigLowering
