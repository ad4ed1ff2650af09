import ConfigLowering.Proofs.Graph.Invariant
import ConfigLowering.Proofs.Substitution.Fixtures

/-!
# Substitution of a task

All runs of a task translate with the same names, those known in the end, and give no
identity twice: one numbering of fixtures and origins covers all of them.
-/

namespace ConfigLowering

/-! ## Numbered origins -/

/-- Origins together with the position of their fixture. -/
def numberOrigins : Nat → List (List Origin) → List (Nat × Origin)
  | _, [] => []
  | position, made :: more => made.map (position, ·) ++ numberOrigins (position + 1) more

theorem le_of_mem_numberOrigins {position : Nat} {made : List (List Origin)}
    {key : Nat × Origin} (h : key ∈ numberOrigins position made) : position ≤ key.1 := by
  induction made generalizing position with
  | nil => contradiction
  | cons first more ih =>
      obtain h | h := List.mem_append.mp h
      · obtain ⟨origin, -, rfl⟩ := List.mem_map.mp h
        exact Nat.le_refl position
      · have hle := ih h
        omega

theorem nodup_numberOrigins {made : List (List Origin)} (position : Nat)
    (h : ∀ origins ∈ made, origins.Nodup) : (numberOrigins position made).Nodup := by
  induction made generalizing position with
  | nil => exact List.nodup_nil
  | cons first more ih =>
      refine List.nodup_append.mpr ⟨?_, ?_, ?_⟩
      · refine (h first List.mem_cons_self).map fun origin other heq => ?_
        exact (Prod.mk.inj heq).2
      · exact ih _ fun origins horigins => h origins (List.mem_cons_of_mem _ horigins)
      · rintro key hkey other hother rfl
        obtain ⟨origin, -, rfl⟩ := List.mem_map.mp hkey
        have hle : position + 1 ≤ position := le_of_mem_numberOrigins hother
        omega

namespace Substitution

/-! ## All fixtures -/

variable {graph : ConfigGraph} {baseModule : String} {history : Buildable → History}
  {fixtures transformed : List Fixture} {before after : Progress}
  {made : List (List Origin)} {holds : Value → Prop}

theorem Lowered.grows (hgraph : graph.WellFormed)
    (h : Lowered graph baseModule history before fixtures transformed made after) :
    before.imports.Grows after.imports := by
  induction h with
  | nil progress => exact .refl _
  | cons hrun _ ih => exact (hrun.advances hgraph).1.trans ih

theorem Lowered.made_once (hgraph : graph.WellFormed) (hheap : Heap graph holds)
    (h : Lowered graph baseModule history before fixtures transformed made after)
    (hvalues : ∀ fixture ∈ fixtures, ∀ value ∈ fixture.values, holds value) :
    ∀ origins ∈ made, origins.Nodup := by
  induction h with
  | nil progress => exact nofun
  | cons hrun _ ih =>
      obtain ⟨hnodup, -⟩ := hrun.made_once hgraph hheap (hvalues _ List.mem_cons_self)
      have hothers := ih fun fixture hfixture => hvalues fixture (List.mem_cons_of_mem _ hfixture)
      exact List.forall_mem_cons.mpr ⟨hnodup, hothers⟩

theorem sound_start (translation : Translation) (imports : ImportManager)
    (nextCode : CodeId) : Sound translation holds (.start imports nextCode) :=
  ⟨nofun, nofun⟩

theorem Lowered.translates (hgraph : graph.WellFormed) (hheap : Heap graph holds)
    (h : Lowered graph baseModule history before fixtures transformed made after)
    (hvalues : ∀ fixture ∈ fixtures, ∀ value ∈ fixture.values, holds value)
    {imports : ImportManager} (hlater : after.imports.Grows imports)
    {identity : Nat × Origin → CodeId} {start : Nat}
    (hidentity : (numberOrigins start made).map identity =
      before.nextCode.range (numberOrigins start made).length)
    {position : Nat} {fixture lowered : Fixture}
    (hfixture : fixtures[position]? = some fixture)
    (hlowered : transformed[position]? = some lowered)
    {depth : Nat} (hdepth : graph.nodeCount < depth) :
    fixture.values.map (Translation.translate ⟨graph, imports, baseModule, history,
        fun origin => identity (start + position, origin)⟩ depth) =
      lowered.values.map some := by
  induction h generalizing start position with
  | nil progress => simp at hfixture
  | @cons before _ last _ _ _ _ made more hrun hrest ih =>
      obtain ⟨-, hnext⟩ := hrun.advances hgraph
      obtain ⟨hids, hids'⟩ := CodeId.split_range last.nextCode
        (by simpa [TransformState.start] using hnext) hidentity
      cases position with
      | zero =>
          obtain rfl := Option.some.inj hfixture
          obtain rfl := Option.some.inj hlowered
          rw [List.map_map, List.length_map] at hids
          -- A body starts with nothing kept, so its first state is sound.
          refine (Run.sound hgraph hheap hrun (hvalues _ List.mem_cons_self)
            ((hrest.grows hgraph).trans hlater) hids (sound_start _ _ _)).2 depth ?_
          intro value _ id _
          exact Nat.le_trans (hgraph.rank_le id) hdepth
      | succ position =>
          have hposition : start + (position + 1) = start + 1 + position := by omega
          rw [hposition]
          exact ih (fun fixture hfixture => hvalues fixture (List.mem_cons_of_mem _ hfixture))
            hlater hids' hfixture hlowered

/-- The fixtures are translations with the names of any manager that the last one grows into,
and no identity is given twice. -/
theorem Lowered.exists_identity (hgraph : graph.WellFormed) (hheap : Heap graph holds)
    (h : Lowered graph baseModule history before fixtures transformed made after)
    (hvalues : ∀ fixture ∈ fixtures, ∀ value ∈ fixture.values, holds value)
    {imports : ImportManager} (hlater : after.imports.Grows imports) :
    ∃ identity : Nat × Origin → CodeId, Function.Injective identity ∧
      (∀ key, before.nextCode.index ≤ (identity key).index) ∧
      ∀ (position : Nat) (fixture lowered : Fixture), fixtures[position]? = some fixture →
        transformed[position]? = some lowered → ∀ depth, graph.nodeCount < depth →
          fixture.values.map (Translation.translate ⟨graph, imports, baseModule, history,
            fun origin => identity (position, origin)⟩ depth) = lowered.values.map some := by
  have hmade := h.made_once hgraph hheap hvalues
  obtain ⟨identity, hinjective, hconsecutive, hfresh⟩ :=
    ConfigLowering.exists_identity (nodup_numberOrigins 0 hmade) before.nextCode
  refine ⟨identity, hinjective, hfresh, ?_⟩
  intro position fixture lowered hfixture hresult depth hdepth
  have htranslated := h.translates hgraph hheap hvalues hlater hconsecutive hfixture hresult hdepth
  rw [Nat.zero_add] at htranslated
  exact htranslated

end Substitution

/-! ## Objects of a task -/

namespace Task

/-- The value stands in a fixture's body or in an argument of a config node. -/
def Contains (task : Task) (value : Value) : Prop :=
  ∃ root, ((∃ fixture ∈ task.fixtures, root ∈ fixture.values) ∨
    ∃ id, root ∈ task.graph.parts (.node id)) ∧ task.graph.Below root value

/-- An identity stands for one object, wherever it occurs in the task. -/
def Coherent (task : Task) : Prop :=
  ∀ first second id, task.Contains first → task.Contains second →
    first.codeId? = some id → second.codeId? = some id → first = second

/-- The next identity is not one of the task's objects, nor are those after it. -/
def Allocated (task : Task) : Prop :=
  ∀ value id, task.Contains value → value.codeId? = some id →
    id.index < task.nextCode.index

theorem Coherent.heap {task : Task} (h : task.Coherent) : Heap task.graph task.Contains where
  parts := by
    rintro whole ⟨root, hroot, hbelow⟩ part hpart
    exact ⟨root, hroot, hbelow.tail hpart⟩
  coherent := h

theorem contains_of_values {task : Task} {fixture : Fixture} (hfixture : fixture ∈ task.fixtures)
    {value : Value} (hvalue : value ∈ fixture.values) : task.Contains value :=
  ⟨value, .inl ⟨fixture, hfixture, hvalue⟩, .refl⟩

/-! ## Translation of a task -/

/-- Plain recursion over the bodies of a task, with the names of one import manager. -/
def translation (task : Task) (history : Buildable → History) (imports : ImportManager)
    (identity : Origin → CodeId) : Translation :=
  ⟨task.graph, imports, task.baseModule, history, identity⟩

/-- Every fixture is translated, and no identity is given twice. -/
theorem substituteWith_translates {task : Task} {history : Buildable → History}
    (hgraph : task.graph.Built) (hcoherent : task.Coherent)
    (h : (task.substituteWith history).1 = .ok ()) :
    (task.substituteWith history).2.fixtures.length = task.fixtures.length ∧
      ∃ identity : Nat × Origin → CodeId, Function.Injective identity ∧
        (∀ key, task.nextCode.index ≤ (identity key).index) ∧
        ∀ (position : Nat) (fixture lowered : Fixture),
          task.fixtures[position]? = some fixture →
          (task.substituteWith history).2.fixtures[position]? = some lowered →
          ∀ depth, task.graph.nodeCount < depth →
            fixture.values.map ((task.translation history (task.substituteWith history).2.imports
              fun origin => identity (position, origin)).translate depth) =
            lowered.values.map some := by
  obtain ⟨made, hlowered⟩ := substituteWith_lowered h
  exact ⟨hlowered.length_eq, hlowered.exists_identity hgraph.wellFormed hcoherent.heap
    (fun _ hfixture _ hvalue => contains_of_values hfixture hvalue) (.refl _)⟩

end Task

end ConfigLowering
