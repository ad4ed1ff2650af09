import Mathlib.Data.List.Forall2
import ConfigLowering.Proofs.Substitution.Origins
import ConfigLowering.Proofs.Substitution.Tasks

/-!
# The substitution is a faithful translation

A task that is substituted gets the bodies that plain recursion over the old bodies
gives. Objects of the new bodies are shared where their origins are the same, within a
fixture and nowhere else.
-/

namespace ConfigLowering.Task

variable {task : Task} {history : Buildable → History}

/-- As a structure, every slot of every fixture is the translation of the old slot, with the
names that are known in the end. -/
theorem substituteWith_faithful (hgraph : task.graph.Built) (hcoherent : task.Coherent)
    (hok : (task.substituteWith history).1 = .ok ()) :
    List.Forall₂
      (fun fixture lowered => ∀ depth, task.graph.nodeCount < depth →
        fixture.values.map ((task.translation history (task.substituteWith history).2.imports
          fun _ => ⟨0⟩).translate depth) =
        lowered.values.map fun value => some value.contents)
      task.fixtures (task.substituteWith history).2.fixtures := by
  obtain ⟨hlength, identity, -, -, htranslates⟩ :=
    substituteWith_translates hgraph hcoherent hok
  rw [List.forall₂_iff_get]
  refine ⟨hlength.symm, fun position hposition hposition' depth hdepth => ?_⟩
  have htranslated := htranslates position _ _ (List.getElem?_eq_getElem hposition)
    (List.getElem?_eq_getElem hposition') depth hdepth
  have hcontents := congrArg (List.map (Option.map Value.contents)) htranslated
  rw [List.map_map, List.map_map] at hcontents
  refine Eq.trans (List.map_congr_left fun value _ => ?_) hcontents
  exact (task.translation history (task.substituteWith history).2.imports
    fun origin => identity (position, origin)).translate_relabeled (fun _ => ⟨0⟩) depth value

/-! ## A body with shared parts -/

theorem contains_of_closed {known : List Value}
    (hvalues : ∀ fixture ∈ task.fixtures, ∀ value ∈ fixture.values, value ∈ known)
    (hnodes : ∀ id, ∀ value ∈ task.graph.parts (.node id), value ∈ known)
    (hclosed : ∀ whole ∈ known, ∀ part ∈ task.graph.parts whole, part ∈ known)
    {value : Value} (h : task.Contains value) : value ∈ known := by
  obtain ⟨root, hroot, hbelow⟩ := h
  induction hbelow with
  | refl =>
      obtain ⟨fixture, hfixture, hroot⟩ | ⟨id, hroot⟩ := hroot
      · exact hvalues fixture hfixture root hroot
      · exact hnodes id root hroot
  | tail _ hpart ih => exact hclosed _ ih _ hpart

def helperCall : Value := .call ⟨0⟩ "helper" [.none] [] []

/-- A tagged node, and a node that refers to it twice. -/
def taggedPair : ConfigGraph :=
  (ConfigGraph.empty.perform (.addNode (((Buildable.ofCallable .config
    (.classType "models" "Inner")).assign "size" (.int 1)).addTag "size"
      (.classType "tags" "Size")))).perform
    (.addNode (((Buildable.ofCallable .config (.classType "models" "Outer")).assign "inner"
      (.node ⟨0⟩)).assign "parts" (.list [.node ⟨0⟩, helperCall])))

/-- One fixture: a variable for the tagged node, and an output with the other node. The
call that was there before stands in the output and in an argument. -/
def sharedBody : Task :=
  .create taggedPair
    (.ofFixture ⟨"build", [], [⟨"inner", .node ⟨0⟩⟩], .tuple [.node ⟨1⟩, helperCall]⟩)
    .default ⟨1⟩

def sharedBodyParts : List Value :=
  [.int 1, .node ⟨0⟩, .node ⟨1⟩, .list [.node ⟨0⟩, helperCall],
    .tuple [.node ⟨1⟩, helperCall], helperCall, .none]

theorem built_taggedPair : taggedPair.Built :=
  .perform _ (.perform _ .empty (.addTag _ _ (.assign _ _ (.ofCallable _ _))))
    (.assign _ _ (.assign _ _ (.ofCallable _ _)))

theorem parts_taggedPair (id : NodeId) :
    taggedPair.parts (.node id) =
      [[.int 1], [.node ⟨0⟩, .list [.node ⟨0⟩, helperCall]]].getD id.index [] := by
  obtain ⟨_ | _ | index⟩ := id <;> rfl

theorem mem_sharedBodyParts {value : Value} (h : sharedBody.Contains value) :
    value ∈ sharedBodyParts := by
  have hnodes : ∀ id, ∀ value ∈ taggedPair.parts (.node id), value ∈ sharedBodyParts := by
    intro id value hvalue
    rw [parts_taggedPair] at hvalue
    obtain ⟨_ | _ | index⟩ := id
    · simp_all [sharedBodyParts]
    · simp at hvalue
      rcases hvalue with rfl | rfl <;> simp [sharedBodyParts]
    · simp at hvalue
  refine contains_of_closed ?_ hnodes ?_ h
  · intro fixture hfixture value hvalue
    obtain rfl := List.mem_singleton.mp hfixture
    simp only [Fixture.values_eq, List.map_cons, List.map_nil, List.mem_append,
      List.mem_singleton] at hvalue
    rcases hvalue with rfl | rfl <;> simp [sharedBodyParts]
  · intro whole hwhole part hpart
    simp only [sharedBodyParts, List.mem_cons, List.not_mem_nil, or_false] at hwhole
    rcases hwhole with rfl | rfl | rfl | rfl | rfl | rfl | rfl
    case inr.inl => exact hnodes _ part hpart
    case inr.inr.inl => exact hnodes _ part hpart
    all_goals
      simp only [ConfigGraph.parts, Value.children, helperCall, List.map_nil, List.append_nil,
        List.mem_cons, List.not_mem_nil, or_false] at hpart
    · rcases hpart with rfl | rfl <;> simp [sharedBodyParts, helperCall]
    · rcases hpart with rfl | rfl <;> simp [sharedBodyParts, helperCall]
    · simp [hpart, sharedBodyParts]

theorem eq_helperCall {value : Value} {id : CodeId} (h : sharedBody.Contains value)
    (hid : value.codeId? = some id) : value = helperCall := by
  have hmem := mem_sharedBodyParts h
  simp only [sharedBodyParts, List.mem_cons, List.not_mem_nil, or_false] at hmem
  rcases hmem with rfl | rfl | rfl | rfl | rfl | rfl | rfl <;>
    first | rfl | simp [Value.codeId?] at hid

theorem coherent_sharedBody : sharedBody.Coherent :=
  fun _ _ _ hfirst hsecond hid hid' =>
    (eq_helperCall hfirst hid).trans (eq_helperCall hsecond hid').symm

theorem allocated_sharedBody : sharedBody.Allocated := by
  intro value id hvalue hid
  rw [eq_helperCall hvalue hid] at hid
  obtain rfl := Option.some.inj hid
  decide

theorem substituteWith_sharedBody : (sharedBody.substituteWith noHistory).1 = .ok () := by
  decide +kernel

theorem substituteWith_faithful_sharedBody :
    sharedBody.graph.Built ∧ sharedBody.Coherent ∧
      ∃ lowered, (sharedBody.substituteWith noHistory).2.fixtures = [lowered] ∧
        [Value.node ⟨0⟩, .tuple [.node ⟨1⟩, helperCall]].map
            ((sharedBody.translation noHistory (sharedBody.substituteWith noHistory).2.imports
              fun _ => ⟨0⟩).translate 3) =
          lowered.values.map fun value => some value.contents := by
  refine ⟨built_taggedPair, coherent_sharedBody, ?_⟩
  have hfaithful := substituteWith_faithful built_taggedPair coherent_sharedBody
    substituteWith_sharedBody
  obtain ⟨lowered, rest, hslots, hrest, heq⟩ := List.forall₂_cons_left_iff.mp hfaithful
  rw [List.forall₂_nil_left_iff.mp hrest] at heq
  exact ⟨lowered, heq, hslots 3 (by decide)⟩

/-! ## Sharing -/

/-- Identities of the objects in the new bodies are given once for each fixture and origin,
and are new. So two places hold one object exactly when they belong to one fixture and come
from the same node, the same tagged field, or the same object of the input. -/
theorem substituteWith_sharing (hgraph : task.graph.Built) (hcoherent : task.Coherent)
    (hallocated : task.Allocated) (hok : (task.substituteWith history).1 = .ok ()) :
    ∃ identity : Nat → Origin → CodeId,
      (∀ first second origin other,
        identity first origin = identity second other ↔ first = second ∧ origin = other) ∧
      (∀ position origin value id, task.Contains value → value.codeId? = some id →
        identity position origin ≠ id) ∧
      ∀ (position : Nat) (fixture : Fixture), task.fixtures[position]? = some fixture →
        ∃ lowered : Fixture,
          (task.substituteWith history).2.fixtures[position]? = some lowered ∧
          ∀ depth, task.graph.nodeCount < depth →
            fixture.values.map ((task.translation history
                (task.substituteWith history).2.imports (identity position)).translate depth) =
              lowered.values.map some ∧
            lowered.values.flatMap Value.objects =
              (fixture.values.flatMap (task.graph.origins depth)).map (identity position) := by
  obtain ⟨hlength, identity, hinjective, hfresh, htranslates⟩ :=
    substituteWith_translates hgraph hcoherent hok
  refine ⟨fun position origin => identity (position, origin), ?_, ?_, ?_⟩
  · intro first second origin other
    rw [hinjective.eq_iff, Prod.mk.injEq]
  · rintro position origin value id hvalue hid rfl
    have hold : (identity (position, origin)).index < _ := hallocated value _ hvalue hid
    have hnew := hfresh (position, origin)
    omega
  · intro position fixture hfixture
    obtain ⟨hposition, -⟩ := List.getElem?_eq_some_iff.mp hfixture
    rw [← hlength] at hposition
    refine ⟨_, List.getElem?_eq_getElem hposition, fun depth hdepth => ?_⟩
    have htranslated := htranslates position fixture _ hfixture
      (List.getElem?_eq_getElem hposition) depth hdepth
    exact ⟨htranslated, Translation.objects_of_translate _ htranslated⟩

theorem substituteWith_sharing_sharedBody :
    sharedBody.Allocated ∧
      ∃ identity : Nat → Origin → CodeId,
        (∀ first second origin other,
          identity first origin = identity second other ↔ first = second ∧ origin = other) ∧
        ∃ lowered, (sharedBody.substituteWith noHistory).2.fixtures[0]? = some lowered ∧
          lowered.values.flatMap Value.objects =
            [.node ⟨0⟩, .wrapper ⟨0⟩ "size", .node ⟨1⟩, .node ⟨0⟩, .wrapper ⟨0⟩ "size",
              .node ⟨0⟩, .wrapper ⟨0⟩ "size", .code ⟨0⟩, .code ⟨0⟩].map (identity 0) := by
  obtain ⟨identity, hinjective, -, hfixtures⟩ := substituteWith_sharing built_taggedPair
    coherent_sharedBody allocated_sharedBody substituteWith_sharedBody
  obtain ⟨lowered, hlowered, hslots⟩ := hfixtures 0 _ rfl
  refine ⟨allocated_sharedBody, identity, hinjective, lowered, hlowered, ?_⟩
  rw [(hslots 3 (by decide)).2]
  rfl

end ConfigLowering.Task
