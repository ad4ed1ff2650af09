import ConfigLowering.Proofs.Document.Loading
import ConfigLowering.Proofs.Substitution.Idempotence

/-!
# Names of tags

A wrapper that the substitution makes for a field lists the names of the field's tags, in the
order of the tags. A name stands for a module and a qualified name, while a set of tags tells
its members apart by their kinds as well. So a name comes twice when two tags of the field
differ in nothing but their kind, and in no other case.
-/

namespace ConfigLowering

/-! ## Names and keys -/

namespace ImportManager

variable {manager : ImportManager} {symbols : List Symbol} {names : List String}

theorem WellFormed.map_decode? (h : manager.WellFormed)
    (hnames : symbols.map manager.nameOf? = names.map some) :
    names.map manager.decode? = (symbols.map Symbol.key).map some := by
  induction symbols generalizing names with
  | nil =>
      obtain rfl := List.map_eq_nil_iff.mp hnames.symm
      rfl
  | cons symbol symbols ih =>
      cases names with
      | nil => contradiction
      | cons name names =>
          obtain ⟨hname, hrest⟩ := List.cons.inj hnames
          rw [List.map_cons, h.decode?_eq_some hname, ih hrest]
          rfl

theorem map_nameOfKey? (hnames : symbols.map manager.nameOf? = names.map some) :
    (symbols.map Symbol.key).map manager.nameOfKey? = names.map some := by
  rw [← hnames, List.map_map]
  rfl

/-- Two symbols of a list have one name exactly when they have one key. -/
theorem WellFormed.getElem?_names_eq_iff (h : manager.WellFormed)
    (hnames : symbols.map manager.nameOf? = names.map some) (place other : Nat) :
    names[place]? = names[other]? ↔
      (symbols.map Symbol.key)[place]? = (symbols.map Symbol.key)[other]? := by
  have hdecode := fun place : Nat => congrArg (·[place]?) (h.map_decode? hnames)
  have hname := fun place : Nat => congrArg (·[place]?) (map_nameOfKey? hnames)
  simp only [List.getElem?_map (l := names), List.getElem?_map (f := some),
    List.getElem?_map (f := manager.nameOfKey?)] at hdecode hname
  constructor
  · intro heq
    apply Option.map_injective (Option.some_injective _)
    rw [← hdecode, ← hdecode, heq]
  · intro heq
    apply Option.map_injective (Option.some_injective _)
    rw [← hname, ← hname, heq]

theorem WellFormed.nodup_names_iff (h : manager.WellFormed)
    (hnames : symbols.map manager.nameOf? = names.map some) :
    names.Nodup ↔ (symbols.map Symbol.key).Nodup := by
  constructor
  · intro hnodup
    have hsome := hnodup.map (Option.some_injective String)
    rw [← map_nameOfKey? hnames] at hsome
    exact hsome.of_map
  · intro hnodup
    have hsome := hnodup.map (Option.some_injective SymbolKey)
    rw [← h.map_decode? hnames] at hsome
    exact hsome.of_map

/-- One name for each tag, in the order of the tags. -/
structure ListsTags (manager : ImportManager) (tags : TagSet) (names : List String) : Prop where
  listed : tags.toList.map manager.nameOf? = names.map some
  /-- The same name is the same module and qualified name. -/
  same : ∀ place other : Nat, names[place]? = names[other]? ↔
    (tags.toList.map Symbol.key)[place]? = (tags.toList.map Symbol.key)[other]?
  /-- No name comes twice unless two tags differ in their kind alone. -/
  once : names.Nodup ↔
    ∀ first second, first ∈ tags → second ∈ tags → first.key = second.key → first = second

theorem WellFormed.listsTags (h : manager.WellFormed) {tags : TagSet}
    (hnames : tags.toList.map manager.nameOf? = names.map some) :
    manager.ListsTags tags names where
  listed := hnames
  same := h.getElem?_names_eq_iff hnames
  once := by
    have hnodup : tags.toList.Nodup := tags.distinct_toList.imp fun hne heq =>
      hne (by rw [heq, Std.ReflOrd.compare_self])
    rw [h.nodup_names_iff hnames, List.nodup_map_iff_inj_on hnodup]
    simp only [Std.ExtTreeSet.mem_toList]
    exact ⟨fun hinj first second hfirst hsecond => hinj first hfirst second hsecond,
      fun hinj first hfirst second hsecond => hinj first second hfirst hsecond⟩

end ImportManager

/-! ## Wrappers in a translation -/

namespace Translation

variable {translation : Translation} {holds : Value → Prop} {tagNames : List String}
  {id : CodeId} {item : Value}

/-- Translating a value gives a wrapper only where a wrapper was. -/
theorem exists_tagged_of_translate {depth : Nat} {value : Value}
    (h : translation.translate depth value = some (.tagged id tagNames item)) :
    ∃ old inner, value = .tagged old tagNames inner ∧ id = translation.identity (.code old) := by
  obtain ⟨node, rfl⟩ | ⟨symbol, rfl, hrole⟩ | hrole := value.role_cases
  · cases depth with
    | zero => contradiction
    | succ depth =>
        obtain ⟨_, _, _, _, _, _, _, _, heq⟩ := call_of_ofNode h
        contradiction
  · simp only [translate, ofValue, hrole, if_true, Option.some.injEq] at h
    contradiction
  · obtain ⟨code, results, hcode, -, heq⟩ :=
      rebuild_of_ofValue (Value.asNode?_of_ordinary hrole) hrole h
    cases value with
    | tagged old oldNames inner =>
        obtain ⟨rfl, rfl, -⟩ := Value.tagged.inj heq
        exact ⟨old, inner, rfl, hcode old rfl⟩
    | _ => contradiction

/-- A wrapper was in the input, or is made for a field with the names of its tags. -/
theorem Makes.tagged_cases (hidentity : Function.Injective translation.identity) {origin : Origin}
    (hid : id = translation.identity origin)
    (h : translation.Makes holds origin (.tagged id tagNames item)) :
    (∃ old inner, origin = .code old ∧ holds (.tagged old tagNames inner)) ∨
      ∃ node buildable field, origin = .wrapper node field ∧
        translation.graph.get? node = some buildable ∧
        (buildable.tagsOf field).toList.map translation.imports.nameOf? = tagNames.map some := by
  cases h with
  | node h =>
      obtain ⟨_, _, hnode, -⟩ := exists_tagged_of_translate h
      contradiction
  | @wrapper depth node buildable field argument inner result hnode hentry hitem hattach =>
      rw [attach] at hattach
      split at hattach
      · -- Without tags the argument itself would have to be the wrapper of the field.
        obtain ⟨-, rfl⟩ := Prod.mk.inj (Option.some.inj hattach)
        obtain ⟨old, _, -, hcode⟩ := exists_tagged_of_translate hitem
        have hsame : Origin.wrapper node field = .code old := hidentity (hid.symm.trans hcode)
        contradiction
      · obtain ⟨names, hnames, ⟨⟩⟩ := Option.bind_eq_some_iff.mp hattach
        exact .inr ⟨node, buildable, field, rfl, hnode, results_of_mapM hnames⟩
  | code hvalue hcode h =>
      obtain ⟨old, inner, rfl, -⟩ := exists_tagged_of_translate h
      obtain rfl := Option.some.inj hcode
      exact .inl ⟨old, inner, rfl, hvalue⟩

end Translation

/-! ## Tasks of documents -/

namespace GraphDocument

variable {document : GraphDocument} {settings : ImportSettings} {task : Task}
  {positions : NodePositions}

/-- A task of a document has no code, neither in its bodies nor in its graph. -/
theorem not_isCode_of_contains (h : document.toTask settings = .ok (task, positions))
    {value : Value} (hvalue : task.Contains value) : value.isCode = false := by
  obtain ⟨graph, hgraph, -, rfl⟩ := toTask_eq_ok h
  obtain ⟨root, hroot, hbelow⟩ := hvalue
  refine graph.everywhere_below (codeless_arguments hgraph) ?_ hbelow value .refl
  obtain ⟨fixture, hfixture, hroot⟩ | ⟨id, hroot⟩ := hroot
  · exact FixtureEntry.codeless_toTree _ _ fixture hfixture root hroot
  · obtain hroot | ⟨other, buildable, hbuildable, hroot⟩ := ConfigGraph.mem_parts hroot
    · contradiction
    · exact codeless_arguments hgraph other buildable hbuildable root hroot

theorem coherent_toTask (h : document.toTask settings = .ok (task, positions)) :
    task.Coherent := by
  rintro first second id hfirst - hid -
  have hcode := not_isCode_of_contains h hfirst
  cases first <;> simp_all [Value.isCode, Value.codeId?]

theorem built_toTask (h : document.toTask settings = .ok (task, positions)) :
    task.graph.Built := by
  obtain ⟨graph, hgraph, -, rfl⟩ := toTask_eq_ok h
  exact built_buildGraph hgraph

end GraphDocument

namespace Task

variable {task : Task} {history : Buildable → History}

/-- Every wrapper in the new bodies was in the task with the same names, or is made for a field
and lists the names of its tags in their order. Two of the names are the same exactly when the
tags have the same module and qualified name, so a name comes twice only if two tags of the
field differ in their kind alone. Tasks of documents have no wrappers of their own. -/
theorem wrappers_list_tags (settings : ImportSettings) (history : Buildable → History) :
    (∀ task : Task, task.graph.Built → task.Coherent →
      ImportManager.Reachable settings task.imports →
      (task.substituteWith history).1 = .ok () →
        ∃ identity : Nat × Origin → CodeId, Function.Injective identity ∧
          ∀ (position : Nat) (lowered : Fixture),
            (task.substituteWith history).2.fixtures[position]? = some lowered →
            ∀ root ∈ lowered.values, ∀ id tagNames item,
              root.Encloses (.tagged id tagNames item) →
                (∃ old inner, id = identity (position, .code old) ∧
                  task.Contains (.tagged old tagNames inner)) ∨
                ∃ node buildable field, id = identity (position, .wrapper node field) ∧
                  task.graph.get? node = some buildable ∧
                  (task.substituteWith history).2.imports.ListsTags (buildable.tagsOf field)
                    tagNames) ∧
    ∀ (document : GraphDocument) (task : Task) (positions : NodePositions),
      document.toTask settings = .ok (task, positions) →
        task.graph.Built ∧ task.Coherent ∧ ImportManager.Reachable settings task.imports ∧
          ∀ id tagNames item, ¬ task.Contains (.tagged id tagNames item) := by
  constructor
  · intro task hgraph hcoherent hreachable hok
    have hwell := wellFormed_substituteWith hreachable.wellFormed history
    obtain ⟨identity, hinjective, hstands⟩ := stands_substituteWith hgraph hcoherent hok
    refine ⟨identity, hinjective, ?_⟩
    intro position lowered hlowered root hroot id tagNames item hpart
    obtain ⟨origin, hid, hmakes⟩ := hstands position lowered hlowered root hroot _ hpart id rfl
    have hposition : Function.Injective fun origin => identity (position, origin) :=
      fun first second heq => (Prod.mk.inj (hinjective heq)).2
    obtain ⟨old, inner, rfl, hold⟩ | ⟨node, buildable, field, rfl, hnode, hnames⟩ :=
      hmakes.tagged_cases hposition hid
    · exact .inl ⟨old, inner, hid, hold⟩
    · exact .inr ⟨node, buildable, field, hid, hnode, hwell.listsTags hnames⟩
  · intro document task positions h
    obtain ⟨-, himports⟩ := document.codeless_toTask h
    refine ⟨GraphDocument.built_toTask h, GraphDocument.coherent_toTask h, himports ▸ .start, ?_⟩
    intro id tagNames item hcontains
    have hcode := GraphDocument.not_isCode_of_contains h hcontains
    contradiction

end Task

/-! ## Two tags that differ in their kind -/

def Value.tagNames? : Value → Option (List String)
  | .tagged _ tagNames _ => some tagNames
  | _ => Option.none

theorem Value.tagNames?_eq_some_iff {value : Value} {tagNames : List String} :
    value.tagNames? = some tagNames ↔ ∃ id item, value = .tagged id tagNames item := by
  cases value <;> simp [tagNames?]

/-- The names of the wrappers around arguments of the calls that fixtures put out. -/
def Task.outputTagNames (task : Task) : List (List String) :=
  task.fixtures.flatMap fun fixture => fixture.output.children.filterMap Value.tagNames?

theorem Task.exists_encloses_of_mem_outputTagNames {task : Task} {tagNames : List String}
    (h : tagNames ∈ task.outputTagNames) :
    ∃ fixture ∈ task.fixtures, ∃ root ∈ fixture.values, ∃ id item,
      root.Encloses (.tagged id tagNames item) := by
  obtain ⟨fixture, hfixture, h⟩ := List.mem_flatMap.mp h
  obtain ⟨child, hchild, hnames⟩ := List.mem_filterMap.mp h
  obtain ⟨id, item, rfl⟩ := Value.tagNames?_eq_some_iff.mp hnames
  refine ⟨fixture, hfixture, fixture.output, ?_, id, item, .single hchild⟩
  rw [Fixture.values_eq]
  exact List.mem_append_right _ (List.mem_singleton_self _)

/-- One argument with a tag that is named once as a class and once as a function, and with a
tag of another name. -/
def taggedTwice : GraphDocument where
  nodes := [⟨"a", .config, .classType "models" "Model",
    [⟨"size", some (.int 1),
      [.classType "tags" "Size", .function "tags" "Size", .classType "tags" "Width"]⟩]⟩]
  fixture := .entry "build" [] [] (.node "a") []

theorem exists_substituted_taggedTwice :
    ∃ task positions, taggedTwice.toTask .default = .ok (task, positions) ∧
      (task.substituteWith noHistory).1 = .ok () ∧
      (task.substituteWith noHistory).2.outputTagNames =
        [["tags.Size", "tags.Size", "tags.Width"]] := by
  have hrun : ((taggedTwice.toTask .default).map fun (task, _) =>
      ((task.substituteWith noHistory).1, (task.substituteWith noHistory).2.outputTagNames)) =
        .ok (.ok (), [["tags.Size", "tags.Size", "tags.Width"]]) := by
    decide +kernel
  cases htask : taggedTwice.toTask .default with
  | error error =>
      rw [htask] at hrun
      contradiction
  | ok result =>
      obtain ⟨task, positions⟩ := result
      rw [htask] at hrun
      obtain ⟨hok, hnames⟩ := Prod.mk.inj (Except.ok.inj hrun)
      exact ⟨task, positions, rfl, hok, hnames⟩

theorem Task.wrappers_list_tags_taggedTwice :
    ∃ task positions, taggedTwice.toTask .default = .ok (task, positions) ∧
      (task.substituteWith noHistory).1 = .ok () ∧
      ∃ node buildable field, task.graph.get? node = some buildable ∧
        (task.substituteWith noHistory).2.imports.ListsTags (buildable.tagsOf field)
          ["tags.Size", "tags.Size", "tags.Width"] := by
  obtain ⟨task, positions, htask, hok, hnames⟩ := exists_substituted_taggedTwice
  refine ⟨task, positions, htask, hok, ?_⟩
  obtain ⟨hwrappers, hdocuments⟩ := wrappers_list_tags .default noHistory
  obtain ⟨hgraph, hcoherent, hreachable, hfree⟩ := hdocuments _ _ _ htask
  obtain ⟨identity, -, hwrappers⟩ := hwrappers _ hgraph hcoherent hreachable hok
  obtain ⟨lowered, hlowered, root, hroot, id, item, hpart⟩ :=
    exists_encloses_of_mem_outputTagNames (hnames ▸ List.mem_singleton_self _)
  obtain ⟨position, hposition⟩ := List.getElem?_of_mem hlowered
  obtain ⟨old, inner, -, hold⟩ | ⟨node, buildable, field, -, hnode, hlists⟩ :=
    hwrappers position lowered hposition root hroot id _ item hpart
  · exact absurd hold (hfree old _ inner)
  · exact ⟨node, buildable, field, hnode, hlists⟩

/-- The wrapper of a field has a name twice, and for one module and qualified name. -/
theorem Task.wrapper_repeats_name :
    ∃ task positions, taggedTwice.toTask .default = .ok (task, positions) ∧
      (task.substituteWith noHistory).1 = .ok () ∧
      ∃ lowered ∈ (task.substituteWith noHistory).2.fixtures, ∃ root ∈ lowered.values,
        ∃ id tagNames item, root.Encloses (.tagged id tagNames item) ∧ ¬ tagNames.Nodup := by
  obtain ⟨task, positions, htask, hok, hnames⟩ := exists_substituted_taggedTwice
  obtain ⟨lowered, hlowered, root, hroot, id, item, hpart⟩ :=
    exists_encloses_of_mem_outputTagNames (hnames ▸ List.mem_singleton_self _)
  exact ⟨task, positions, htask, hok, lowered, hlowered, root, hroot, id, _, item, hpart,
    by decide⟩

end ConfigLowering
