import ConfigLowering.Proofs.Substitution.Faithful
import ConfigLowering.Proofs.Transformer.Expanding

/-!
# Roots one after the other

Roots that are transformed one after the other share what the engine keeps, also behind a root
that fails. By local rules each of them comes to the same as alone.
-/

namespace ConfigLowering

/-- An identity stands for one object, wherever it occurs in the roots and below. -/
def ConfigGraph.Coherent (graph : ConfigGraph) (roots : List Value) : Prop :=
  ∀ first second id, (∃ root ∈ roots, graph.Below root first) →
    (∃ root ∈ roots, graph.Below root second) →
      first.codeId? = some id → second.codeId? = some id → first = second

theorem ConfigGraph.Coherent.heap {graph : ConfigGraph} {roots : List Value}
    (h : graph.Coherent roots) : Heap graph fun value => ∃ root ∈ roots, graph.Below root value where
  parts := by
    rintro whole ⟨root, hroot, hbelow⟩ part hpart
    exact ⟨root, hroot, hbelow.tail hpart⟩
  coherent := h

theorem Heap.coherent_of_forall {graph : ConfigGraph} {holds : Value → Prop} (h : Heap graph holds)
    {roots : List Value} (hroots : ∀ root ∈ roots, holds root) : graph.Coherent roots := by
  rintro first second id ⟨root, hroot, hfirst⟩ ⟨other, hother, hsecond⟩
  exact h.coherent first second id (h.below (hroots root hroot) hfirst)
    (h.below (hroots other hother) hsecond)

namespace Transformer

variable {σ ε : Type}

/-- The outcome of each root and the path at which the engine stands after it. A root that fails
does not end the run. -/
def runEach (transformer : Transformer σ ε) (graph : ConfigGraph) :
    List (Value × Path) → TransformState σ → List (Except ε Value × Path)
  | [], _ => []
  | (root, base) :: roots, state =>
      let (outcome, state) := (transformer.runAt graph root base).run.run state
      (outcome, state.path) :: transformer.runEach graph roots state

variable {transformer : Transformer σ ε} {rules : LocalRules ε} {graph : ConfigGraph}

theorem runEach_of_remembers {depth : Nat} {holds : Value → Prop} (hheap : Heap graph holds)
    (hgraph : graph.WellFormed) (hlocal : transformer.CarriesOut rules)
    (hdepth : graph.nodeCount < depth) {roots : List (Value × Path)}
    (hroots : ∀ root ∈ roots, holds root.1) {state : TransformState σ}
    (hstate : Remembers rules graph depth holds state) :
    (transformer.runEach graph roots state).map (Prod.map (Except.map Value.contents) id) =
      roots.map fun root => ((rules.transform graph depth root.1).atPath root.2, Path.root) := by
  induction roots generalizing state with
  | nil => rfl
  | cons root roots ih =>
      obtain ⟨root, base⟩ := root
      obtain ⟨hroot, hothers⟩ := List.forall_mem_cons.mp hroots
      rw [runEach]
      rcases hrun : (transformer.runAt graph root base).run.run state with ⟨outcome, after⟩
      obtain ⟨hmatch, hafter, hpath⟩ :=
        matches_runAt hheap hgraph hlocal hdepth hroot base hstate hrun
      rw [List.map_cons, List.map_cons, ih hothers hafter, Prod.map_apply, hmatch.map_contents,
        hpath, id]

/-- What is kept does not show: each root comes to what plain recursion from its own path makes
of it, up to the identities of objects, whatever came before it and also after a failure. Then
the engine stands at the root path again. -/
theorem runEach_eq_transform (hgraph : graph.Built) (hlocal : transformer.CarriesOut rules)
    {roots : List (Value × Path)} (hcoherent : graph.Coherent (roots.map Prod.fst))
    {depth : Nat} (hdepth : graph.nodeCount < depth) (context : σ) (nextCode : CodeId) :
    (transformer.runEach graph roots (.start context nextCode)).map
        (Prod.map (Except.map Value.contents) id) =
      roots.map fun root => ((rules.transform graph depth root.1).atPath root.2, Path.root) :=
  runEach_of_remembers hcoherent.heap hgraph.wellFormed hlocal hdepth
    (fun root hroot => ⟨root.1, List.mem_map_of_mem hroot, .refl⟩)
    (remembers_start context nextCode)

open ConfigLowering.Task (helperCall taggedPair built_taggedPair parts_taggedPair)

/-- The first root fails behind a node and a call; both stand in the second root as well. -/
def interruptedRoots : List (Value × Path) :=
  [(.list [.node ⟨0⟩, helperCall, .str "boom", .node ⟨1⟩], ⟨[.field "first"]⟩),
    (.tuple [.node ⟨1⟩, helperCall], .root)]

def interruptedParts : List Value :=
  [.int 1, .node ⟨0⟩, .node ⟨1⟩, .str "boom", .none, helperCall, .list [.node ⟨0⟩, helperCall],
    .list [.node ⟨0⟩, helperCall, .str "boom", .node ⟨1⟩], .tuple [.node ⟨1⟩, helperCall]]

theorem heap_interruptedParts : Heap taggedPair (· ∈ interruptedParts) where
  parts := by
    intro whole hwhole part hpart
    simp only [interruptedParts, List.mem_cons, List.not_mem_nil, or_false] at hwhole
    rcases hwhole with rfl | rfl | rfl | rfl | rfl | rfl | rfl | rfl | rfl
    case inr.inl | inr.inr.inl =>
      rw [parts_taggedPair] at hpart
      revert part
      simp [interruptedParts]
    all_goals
      revert part
      simp [ConfigGraph.parts, Value.children, helperCall, interruptedParts]
  coherent := by
    have hcode : ∀ value ∈ interruptedParts, ∀ id, value.codeId? = some id → value = helperCall := by
      simp [interruptedParts, Value.codeId?]
    intro first second id hfirst hsecond hid hid'
    rw [hcode first hfirst id hid, hcode second hsecond id hid']

theorem runEach_interruptedRoots :
    (Expansion.call.transformer.runEach taggedPair interruptedRoots (.start #[] ⟨1⟩)).map
        (Prod.map (Except.map Value.contents) id) =
      [(.error (.refused ⟨[.field "first", .index 2]⟩), .root),
        (.ok (.tuple [.call ⟨0⟩ "models.Outer" [] [
            ("inner", .call ⟨0⟩ "models.Inner" [] [("size", .int 1)] []),
            ("parts", .list [.call ⟨0⟩ "models.Inner" [] [("size", .int 1)] [], helperCall])] [],
          helperCall]), .root)] := by
  have hcoherent : taggedPair.Coherent (interruptedRoots.map Prod.fst) := by
    refine heap_interruptedParts.coherent_of_forall fun root hroot => ?_
    simp only [interruptedRoots, List.map_cons, List.map_nil, List.mem_cons, List.not_mem_nil,
      or_false] at hroot
    rcases hroot with rfl | rfl <;> simp [interruptedParts]
  have hdepth : taggedPair.nodeCount < 3 := by decide
  rw [runEach_eq_transform built_taggedPair (Expansion.carriesOut_transformer .call) hcoherent
    hdepth]
  rfl

end Transformer

end ConfigLowering
