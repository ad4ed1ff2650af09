import ConfigLowering.Proofs.Substitution.Coherence
import ConfigLowering.Proofs.Substitution.Verdict

/-!
# The substitution is idempotent

The bodies that the substitution leaves hold neither config nodes nor importable symbols. A
second run finds nothing to do in them but to make every object anew: the bodies are the same
up to their identities, which are exchanged one for one.
-/

namespace ConfigLowering

/-! ## Finished values -/

/-- Nothing in the value is left to be substituted. -/
def Value.Finished (value : Value) : Prop := value.Everywhere fun part => part.role = .ordinary

theorem Value.Finished.children {value : Value} (h : value.Finished) :
    ∀ child ∈ value.children, child.Finished :=
  ((everywhere_iff value).mp h).2

theorem Value.Finished.role {value : Value} (h : value.Finished) : value.role = .ordinary :=
  h value .refl

namespace Value.Finished

variable {value : Value} {graph : ConfigGraph}

theorem part {part : Value} (h : value.Finished) (hpart : part ∈ graph.parts value) :
    part.Finished := by
  rw [graph.parts_eq_children (Value.asNode?_of_ordinary h.role)] at hpart
  exact h.children part hpart

theorem below {part : Value} (h : value.Finished) (hbelow : graph.Below value part) :
    part.Finished := by
  induction hbelow with
  | refl => exact h
  | tail _ hpart ih => exact ih.part hpart

theorem symbols_eq_nil (h : value.Finished) {visit : Visit}
    (hvisit : graph.visit? value = some visit) (baseModule : String) :
    visit.symbols baseModule = [] := by
  have hrole := h.role
  rw [ConfigGraph.visit?_value (Value.asNode?_of_ordinary hrole)] at hvisit
  obtain rfl := Option.some.inj hvisit
  cases value <;> simp_all [Visit.symbols]

theorem knowsBelow (h : value.Finished) (graph : ConfigGraph) (baseModule : String)
    (imports : ImportManager) : Registration.KnowsBelow graph baseModule imports value := by
  intro part hbelow
  have hpart := h.below hbelow
  have hvisit := graph.visit?_value (Value.asNode?_of_ordinary hpart.role)
  refine ⟨_, hvisit, ?_⟩
  rw [hpart.symbols_eq_nil hvisit]
  exact nofun

/-- The translation of a finished value only has other identities. -/
theorem translate (h : value.Finished) (translation : Translation) (depth : Nat) :
    translation.translate depth value =
      some (value.relabel fun id => translation.identity (.code id)) := by
  induction value using Value.induction_children with
  | step value ih =>
      let id := translation.identity (.code (value.codeId?.getD ⟨0⟩))
      have hid : ∀ code, value.codeId? = some code → id = translation.identity (.code code) :=
        fun code hcode => by simp [id, hcode]
      rw [Value.relabel_eq_rebuild _ value id hid]
      refine translation.ofValue_rebuild (translation.ofNode depth) id
        (Value.asNode?_of_ordinary h.role) h.role hid ?_
      rw [List.map_map]
      exact List.map_congr_left fun child hchild => ih child hchild (h.children child hchild)

end Value.Finished

theorem Fixture.not_lacking_of_finished {fixture : Fixture} {graph : ConfigGraph}
    (h : ∀ value ∈ fixture.values, value.Finished) : ¬ fixture.Lacking graph := by
  rintro ⟨value, hvalue, id, hbelow, -⟩
  exact absurd ((h value hvalue).below hbelow).role nofun

namespace Task

variable {task : Task} {history : Buildable → History}

/-- The value stands in a fixture's body. -/
def Encloses (task : Task) (value : Value) : Prop :=
  ∃ fixture ∈ task.fixtures, ∃ root ∈ fixture.values, root.Encloses value

/-! ## Tasks with finished bodies -/

/-- All bodies are finished, and an identity stands for one object in them. -/
structure Finished (task : Task) : Prop where
  values : ∀ fixture ∈ task.fixtures, ∀ value ∈ fixture.values, value.Finished
  coherent : ∀ first second id, task.Encloses first → task.Encloses second →
    first.codeId? = some id → second.codeId? = some id → first = second

theorem Finished.heap (h : task.Finished) : Heap task.graph task.Encloses where
  parts := by
    rintro whole ⟨fixture, hfixture, root, hroot, hwhole⟩ part hpart
    have hrole := h.values fixture hfixture root hroot whole hwhole
    rw [task.graph.parts_eq_children (Value.asNode?_of_ordinary hrole)] at hpart
    exact ⟨fixture, hfixture, root, hroot, hwhole.tail hpart⟩
  coherent := h.coherent

theorem encloses_of_values {fixture : Fixture} (hfixture : fixture ∈ task.fixtures)
    {value : Value} (hvalue : value ∈ fixture.values) : task.Encloses value :=
  ⟨fixture, hfixture, value, hvalue, .refl⟩

theorem Finished.substituteWith_ok (h : task.Finished) (hgraph : task.graph.WellFormed)
    (history : Buildable → History) : (task.substituteWith history).1 = .ok () := by
  cases hsubstituted : (task.substituteWith history).1 with
  | ok answer => rfl
  | error error =>
      obtain ⟨earlier, fixture, later, hfixtures, -, id, path, haccounts⟩ :=
        Substitution.accounts_of_substituteFixtures hgraph h.heap
          (fun _ hfixture _ hvalue => encloses_of_values hfixture hvalue)
          (fun fixture hfixture value hvalue =>
            (h.values fixture hfixture value hvalue).knowsBelow _ _ _)
          (Prod.ext hsubstituted rfl)
      have hfixture : fixture ∈ task.fixtures := by simp [hfixtures]
      exact absurd (haccounts.lacking hgraph)
        (Fixture.not_lacking_of_finished (h.values fixture hfixture))

theorem Finished.substituteWith_imports (h : task.Finished) (history : Buildable → History) :
    (task.substituteWith history).2.imports = task.imports := by
  refine substituteWith_keeps (· = task.imports) Value.Finished history
    (fun _ hwhole _ => hwhole.part) h.values ?_ rfl
  intro value visit hvalue hvisit symbol hsymbol
  rw [hvalue.symbols_eq_nil hvisit] at hsymbol
  contradiction

theorem outlines_substituteWith (task : Task) (history : Buildable → History) :
    (task.substituteWith history).2.fixtures.map Fixture.outline =
      task.fixtures.map Fixture.outline := by
  have houtline := congrArg CallTree.fixtures (task.outline_substituteWith history)
  rwa [CallTree.outline, CallTree.outline, CallTree.fixtures_map, CallTree.fixtures_map] at houtline

/-- The new bodies are the old ones with other identities. -/
theorem Finished.substituteWith_relabels (h : task.Finished) (hgraph : task.graph.WellFormed)
    (history : Buildable → History) :
    ∃ identity : Nat × Origin → CodeId, Function.Injective identity ∧
      ∀ (position : Nat) (fixture : Fixture), task.fixtures[position]? = some fixture →
        (task.substituteWith history).2.fixtures[position]? =
          some (fixture.map (Value.relabel fun id => identity (position, .code id))) := by
  obtain ⟨made, hlowered⟩ := substituteWith_lowered (h.substituteWith_ok hgraph history)
  obtain ⟨identity, hinjective, -, htranslates⟩ := hlowered.exists_identity hgraph h.heap
    (fun _ hfixture _ hvalue => encloses_of_values hfixture hvalue) (.refl _)
  refine ⟨identity, hinjective, fun position fixture hfixture => ?_⟩
  obtain ⟨hposition, heq⟩ := List.getElem?_eq_some_iff.mp hfixture
  rw [← hlowered.length_eq] at hposition
  have htranslated := htranslates position fixture _ hfixture
    (List.getElem?_eq_getElem hposition) _ (Nat.lt_succ_self _)
  have hfinished := h.values fixture (List.mem_of_getElem? hfixture)
  rw [List.map_congr_left fun value hvalue => (hfinished value hvalue).translate _ _,
    ← Function.comp_def some, ← List.map_map] at htranslated
  have houtlines := congrArg (·[position]?) (task.outlines_substituteWith history)
  simp only [List.getElem?_map, hfixture, List.getElem?_eq_getElem hposition, Option.map_some,
    Option.some.injEq] at houtlines
  rw [List.getElem?_eq_getElem hposition, Option.some.injEq]
  refine Fixture.eq_of_outline (houtlines.trans (Fixture.outline_map _ _).symm) ?_
  rw [Fixture.values_map]
  exact (List.map_injective_iff.mpr (Option.some_injective _) htranslated).symm

/-- Where every object belongs to one fixture, the new identities are given by one function. -/
theorem Finished.exists_change (h : task.Finished) (hgraph : task.graph.WellFormed)
    (history : Buildable → History) {owner : CodeId → Nat}
    (howner : ∀ (position : Nat) (fixture : Fixture), task.fixtures[position]? = some fixture →
      ∀ value ∈ fixture.values, ∀ id ∈ value.objects, owner id = position) :
    ∃ change : CodeId → CodeId, Function.Injective change ∧
      (task.substituteWith history).2.fixtures =
        task.fixtures.map (Fixture.map (Value.relabel change)) := by
  obtain ⟨identity, hinjective, hrelabels⟩ := h.substituteWith_relabels hgraph history
  let change : CodeId → CodeId := fun id => identity (owner id, .code id)
  have hchange : Function.Injective change := fun id id' heq =>
    Origin.code.inj (Prod.mk.inj (hinjective heq)).2
  refine ⟨change, hchange, List.ext_getElem? fun position => ?_⟩
  rw [List.getElem?_map]
  cases hfixture : task.fixtures[position]? with
  | none =>
      have hlength := congrArg List.length (task.outlines_substituteWith history)
      rw [List.length_map, List.length_map] at hlength
      rw [Option.map_none, List.getElem?_eq_none_iff, hlength]
      exact List.getElem?_eq_none_iff.mp hfixture
  | some fixture =>
      rw [hrelabels position fixture hfixture, Option.map_some, Option.some.injEq]
      refine Fixture.eq_of_outline ?_ ?_
      · rw [Fixture.outline_map, Fixture.outline_map]
      · rw [Fixture.values_map, Fixture.values_map]
        refine List.map_congr_left fun value hvalue => value.relabel_congr fun id hid => ?_
        rw [show change id = identity (owner id, .code id) from rfl,
          howner position fixture hfixture value hvalue id hid]

/-! ## The bodies that a run leaves -/

theorem stands_substituteWith (hgraph : task.graph.Built) (hcoherent : task.Coherent)
    (hok : (task.substituteWith history).1 = .ok ()) :
    ∃ identity : Nat × Origin → CodeId, Function.Injective identity ∧
      ∀ (position : Nat) (lowered : Fixture),
        (task.substituteWith history).2.fixtures[position]? = some lowered →
          ∀ value ∈ lowered.values, value.Everywhere
            ((task.translation history (task.substituteWith history).2.imports
              fun origin => identity (position, origin)).Stands task.Contains) := by
  obtain ⟨hlength, identity, hinjective, -, htranslates⟩ :=
    substituteWith_translates hgraph hcoherent hok
  refine ⟨identity, hinjective, fun position lowered hlowered value hvalue => ?_⟩
  obtain ⟨hposition, -⟩ := List.getElem?_eq_some_iff.mp hlowered
  rw [hlength] at hposition
  have htranslated := htranslates position _ lowered (List.getElem?_eq_getElem hposition) hlowered
    _ (Nat.lt_succ_self _)
  have hmem : some value ∈ lowered.values.map some := List.mem_map_of_mem hvalue
  rw [← htranslated] at hmem
  obtain ⟨old, hold, htranslate⟩ := List.mem_map.mp hmem
  exact Translation.stands_translate hcoherent.heap.parts
    (contains_of_values (List.getElem_mem hposition) hold) htranslate

theorem finished_substituteWith (hgraph : task.graph.Built) (hcoherent : task.Coherent)
    (hok : (task.substituteWith history).1 = .ok ()) :
    (task.substituteWith history).2.Finished where
  values := everywhere_substituteWith (Substitution.admits_ordinary _) (fun _ _ _ _ => trivial)
    (fun _ _ _ _ => trivial) hok
  coherent := by
    obtain ⟨identity, hinjective, hstands⟩ := stands_substituteWith hgraph hcoherent hok
    intro first second id ⟨fixture, hfixture, root, hroot, hfirst⟩
      ⟨fixture', hfixture', root', hroot', hsecond⟩ hid hid'
    obtain ⟨position, hposition⟩ := List.getElem?_of_mem hfixture
    obtain ⟨position', hposition'⟩ := List.getElem?_of_mem hfixture'
    obtain ⟨origin, horigin, hmakes⟩ := hstands position fixture hposition root hroot first hfirst
      id hid
    obtain ⟨origin', horigin', hmakes'⟩ :=
      hstands position' fixture' hposition' root' hroot' second hsecond id hid'
    obtain ⟨rfl, rfl⟩ := Prod.mk.inj (hinjective (horigin.symm.trans horigin'))
    exact hmakes.unique hgraph.wellFormed hcoherent.heap hmakes'

/-- No object stands in the bodies of two fixtures. -/
theorem exists_owner (hgraph : task.graph.Built) (hcoherent : task.Coherent)
    (hok : (task.substituteWith history).1 = .ok ()) :
    ∃ owner : CodeId → Nat, ∀ (position : Nat) (lowered : Fixture),
      (task.substituteWith history).2.fixtures[position]? = some lowered →
        ∀ value ∈ lowered.values, ∀ id ∈ value.objects, owner id = position := by
  obtain ⟨identity, hinjective, hstands⟩ := stands_substituteWith hgraph hcoherent hok
  have : Nonempty (Nat × Origin) := ⟨0, .node ⟨0⟩⟩
  refine ⟨fun id => (Function.invFun identity id).1, ?_⟩
  intro position lowered hlowered value hvalue id hid
  obtain ⟨part, hpart, hcode⟩ := Value.exists_encloses_of_mem_objects hid
  obtain ⟨origin, rfl, -⟩ := hstands position lowered hlowered value hvalue part hpart id hcode
  exact congrArg Prod.fst (Function.leftInverse_invFun hinjective (position, origin))

/-! ## A second run -/

/-- The object at each place of the bodies that holds one, fixture after fixture. -/
def objects (task : Task) : List CodeId :=
  task.fixtures.flatMap fun fixture => fixture.values.flatMap Value.objects

theorem objects_map {once twice : Task} {change : CodeId → CodeId}
    (h : twice.fixtures = once.fixtures.map (Fixture.map (Value.relabel change))) :
    twice.objects = once.objects.map change := by
  simp only [objects, h, List.flatMap_map, List.map_flatMap, Fixture.values_map,
    Value.objects_relabel]

/-- A second run succeeds, whatever its formatter, and adds no import. It only exchanges the
identities of the objects one for one: the bodies have the same contents, and two places
hold one object exactly when they did before. -/
theorem substituteWith_idempotent {once : Task} {first : Buildable → History}
    (hgraph : task.graph.Built) (hcoherent : task.Coherent)
    (h : task.substituteWith first = (.ok (), once)) (second : Buildable → History) :
    ∃ twice : Task, once.substituteWith second = (.ok (), twice) ∧
      twice.imports = once.imports ∧
      (∃ change : CodeId → CodeId, Function.Injective change ∧
        twice.fixtures = once.fixtures.map (Fixture.map (Value.relabel change))) ∧
      twice.fixtures.map (Fixture.map Value.contents) =
        once.fixtures.map (Fixture.map Value.contents) ∧
      ∀ place other : Nat, twice.objects[place]? = twice.objects[other]? ↔
        once.objects[place]? = once.objects[other]? := by
  have hok : (task.substituteWith first).1 = .ok () := congrArg Prod.fst h
  have hfinished := finished_substituteWith hgraph hcoherent hok
  obtain ⟨owner, howner⟩ := exists_owner hgraph hcoherent hok
  rw [h] at hfinished howner
  have hsame : once.graph = task.graph := congrArg (Task.graph ∘ Prod.snd) h.symm
  have hwell : once.graph.WellFormed := hsame ▸ hgraph.wellFormed
  obtain ⟨change, hchange, hfixtures⟩ := hfinished.exists_change hwell second howner
  refine ⟨_, Prod.ext (hfinished.substituteWith_ok hwell second) rfl,
    hfinished.substituteWith_imports second, ⟨change, hchange, hfixtures⟩, ?_, ?_⟩
  · rw [hfixtures, List.map_map]
    refine List.map_congr_left fun fixture _ => ?_
    rw [Function.comp_apply, Fixture.map_map]
    exact congrArg fixture.map (funext (Value.contents_relabel change))
  · intro place other
    rw [objects_map hfixtures, List.getElem?_map, List.getElem?_map]
    exact (Option.map_injective hchange).eq_iff

theorem substituteWith_idempotent_sharedBody :
    ∃ once twice : Task, sharedBody.substituteWith noHistory = (.ok (), once) ∧
      once.substituteWith argumentHistory = (.ok (), twice) ∧ twice.imports = once.imports ∧
      twice.fixtures.map (Fixture.map Value.contents) =
        once.fixtures.map (Fixture.map Value.contents) ∧
      twice.objects[0]? = twice.objects[3]? := by
  have hfirst : sharedBody.substituteWith noHistory =
      (.ok (), (sharedBody.substituteWith noHistory).2) := by
    rw [← substituteWith_sharedBody]
  obtain ⟨twice, hsecond, himports, -, hcontents, hsharing⟩ :=
    substituteWith_idempotent built_taggedPair coherent_sharedBody hfirst argumentHistory
  have hshared : (sharedBody.substituteWith noHistory).2.objects[0]? =
      (sharedBody.substituteWith noHistory).2.objects[3]? := by decide +kernel
  exact ⟨_, twice, hfirst, hsecond, himports, hcontents, (hsharing 0 3).mpr hshared⟩

end Task

end ConfigLowering
