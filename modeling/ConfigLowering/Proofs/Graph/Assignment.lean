import ConfigLowering.Proofs.Graph.Invariant

/-!
# Assignments and cycles

An assignment is accepted exactly when the node and all references of the value
are known and the graph with the new argument has no cycle. The test looks at the
graph before the assignment, whose old references of the argument do no harm: a
path into the node need not leave it.
-/

namespace ConfigLowering.ConfigGraph

open Relation

/-- The graph with one argument replaced. Cycles are judged by the arguments, so the
edges stay as they are. -/
def withArgument (graph : ConfigGraph) (id : NodeId) (name : String) (value : Value) :
    ConfigGraph :=
  match graph.get? id with
  | none => graph
  | some buildable => graph.replaceNode id (buildable.assign name value)

/-- A reference that no argument of the node may take on. -/
def Offends (graph : ConfigGraph) (id child : NodeId) : Prop :=
  graph.contains child = false ∨ ReflTransGen graph.Refers child id

/-- Only one argument of one node differs, and the edges that go with it. -/
structure AssignsOnly (graph after : ConfigGraph) (id : NodeId) (name : String)
    (value : Value) (displaced : Option Value) : Prop where
  nodeCount : after.nodeCount = graph.nodeCount
  other_nodes : ∀ other, other ≠ id → after.get? other = graph.get? other
  node : ∃ before now, graph.get? id = some before ∧ after.get? id = some now ∧
    now.kind = before.kind ∧ now.callable = before.callable ∧ now.tags = before.tags ∧
    displaced = before.arguments.get? name ∧ now.arguments.get? name = some value ∧
    (∀ other, other ≠ name → now.arguments.get? other = before.arguments.get? other) ∧
    now.arguments.names = if name ∈ before.arguments.names then before.arguments.names
      else before.arguments.names ++ [name]
  other_edges : (after.edges.filter fun edge => !(edge.parent = id && edge.argument = name)) =
    graph.edges.filter fun edge => !(edge.parent = id && edge.argument = name)
  own_edges : after.edgesAt id name = value.nodeReferences.map fun child => ⟨id, child, name⟩

/-! ## Cycles through an assignment -/

/-- A path need not leave its end. -/
theorem path_to_first_arrival {α : Type} {step : α → α → Prop} {start place : α}
    (h : ReflTransGen step start place) :
    ReflTransGen (fun x y => step x y ∧ x ≠ place) start place := by
  induction h using ReflTransGen.head_induction_on with
  | refl => exact .refl
  | @head x y hstep _ ih =>
      by_cases hx : x = place
      · rw [hx]
      · exact .head ⟨hstep, hx⟩ ih

theorem WellFormed.acyclic_assigned_iff {graph : ConfigGraph} (h : graph.WellFormed)
    {id : NodeId} {buildable : Buildable} (hbuildable : graph.get? id = some buildable)
    (name : String) (value : Value) :
    (graph.assigned id buildable name value).Acyclic ↔
      ∀ child ∈ value.nodeReferences, ¬ ReflTransGen graph.Refers child id := by
  have hrefers := h.refers_assigned_iff hbuildable name value
  constructor
  · intro hacyclic child hchild hpath
    have hfirst : (graph.assigned id buildable name value).Refers id child :=
      (hrefers id child).mpr (.inl ⟨rfl, hchild⟩)
    have hrest : ReflTransGen (graph.assigned id buildable name value).Refers child id := by
      refine ReflTransGen.mono ?_ child id (path_to_first_arrival hpath)
      rintro x y ⟨hstep, hx⟩
      obtain ⟨argument, hat⟩ := (refers_iff_referencesAt h.nodes x y).mp hstep
      exact (hrefers x y).mpr (.inr ⟨argument, fun hplace => hx hplace.1, hat⟩)
    exact hacyclic id (.head' hfirst hrest)
  · exact h.acyclic_assigned hbuildable name

theorem assignsOnly_assigned {graph : ConfigGraph} {id : NodeId} {buildable : Buildable}
    (hbuildable : graph.get? id = some buildable) (name : String) (value : Value) :
    AssignsOnly graph (graph.assigned id buildable name value) id name value
      (buildable.arguments.get? name) := by
  have hid : graph.contains id := (graph.contains_iff id).mpr ⟨buildable, hbuildable⟩
  refine ⟨by simp [nodeCount, assigned], ?_, ?_, ?_, ?_⟩
  · intro other hother
    rw [get?_assigned hid, if_neg hother]
  · refine ⟨buildable, buildable.assign name value, hbuildable, ?_, rfl, rfl, rfl, rfl, ?_, ?_,
      Arguments.names_insert _ _ _⟩
    · rw [get?_assigned hid, if_pos rfl]
    · rw [Buildable.assign, Arguments.get?_insert, if_pos rfl]
    · intro other hother
      rw [Buildable.assign, Arguments.get?_insert, if_neg hother]
  · simp [assigned, List.filter_append, List.filter_filter, List.filter_map,
      Function.comp_def]
  · rw [edgesAt_assigned, if_pos ⟨rfl, rfl⟩]

theorem WellFormed.exists_setArgument_iff {graph : ConfigGraph} (h : graph.WellFormed)
    (id : NodeId) (name : String) (value : Value) :
    (∃ displaced after, graph.setArgument id name value = (.ok displaced, after)) ↔
      graph.contains id ∧ (∀ child ∈ value.nodeReferences, graph.contains child) ∧
        (graph.withArgument id name value).Acyclic := by
  have hsame : ∀ buildable, graph.get? id = some buildable →
      (graph.withArgument id name value).Refers =
        (graph.assigned id buildable name value).Refers := by
    intro buildable hbuildable
    simp only [withArgument, hbuildable]
    rfl
  constructor
  · rintro ⟨displaced, after, hset⟩
    obtain ⟨buildable, hbuildable, hchecks, -, -⟩ :=
      (graph.setArgument_eq_ok_iff id name value displaced after).mp hset
    have hchild : ∀ child ∈ value.nodeReferences,
        graph.contains child ∧ ¬ ReflTransGen graph.Refers child id := fun child hchild =>
      (h.checkReference_eq_ok_iff id child name).mp (hchecks child hchild)
    refine ⟨(graph.contains_iff id).mpr ⟨buildable, hbuildable⟩,
      fun child hmem => (hchild child hmem).1, ?_⟩
    rw [Acyclic, hsame buildable hbuildable]
    exact h.acyclic_assigned hbuildable name fun child hmem => (hchild child hmem).2
  · rintro ⟨hid, hknown, hacyclic⟩
    obtain ⟨buildable, hbuildable⟩ := (graph.contains_iff id).mp hid
    rw [Acyclic, hsame buildable hbuildable] at hacyclic
    have hback := (h.acyclic_assigned_iff hbuildable name value).mp hacyclic
    refine ⟨_, _, (graph.setArgument_eq_ok_iff id name value _ _).mpr
      ⟨buildable, hbuildable, fun child hchild => ?_, rfl, rfl⟩⟩
    exact (h.checkReference_eq_ok_iff id child name).mpr ⟨hknown child hchild, hback child hchild⟩

theorem WellFormed.setArgument_error {graph after : ConfigGraph} (h : graph.WellFormed)
    {id : NodeId} {name : String} {value : Value} {error : GraphError}
    (hset : graph.setArgument id name value = (.error error, after)) :
    graph.contains id = false ∧ error = .unknownNode id ∨
      graph.contains id ∧ ∃ before child rest,
        value.nodeReferences = before ++ child :: rest ∧
        (∀ other ∈ before, ¬ graph.Offends id other) ∧ graph.Offends id child ∧
        error = if graph.contains child then .cycle id child name else .unknownNode child := by
  obtain ⟨-, hunknown | ⟨hid, before, child, rest, hsplit, hbefore, hchild⟩⟩ :=
    (graph.setArgument_eq_error_iff id name value error after).mp hset
  · exact .inl hunknown
  · obtain ⟨hoffends, herror⟩ := (h.checkReference_eq_error_iff id child name error).mp hchild
    refine .inr ⟨hid, before, child, rest, hsplit, ?_, by simpa [Offends] using hoffends, herror⟩
    intro other hother
    have hfine := (h.checkReference_eq_ok_iff id other name).mp (hbefore other hother)
    simpa [Offends] using hfine

/-! ## The cycle test -/

/-- A built graph has no cycle, and an assignment is refused for nothing but an unknown
node or a cycle in the graph that it would lead to. A refused one names the node or the
first reference at fault and changes nothing; an accepted one changes its argument only. -/
theorem setArgument_refuses_only_cycles {graph : ConfigGraph} (h : graph.Built) :
    graph.Acyclic ∧ ∀ (id : NodeId) (name : String) (value : Value),
      ((∃ displaced after, graph.setArgument id name value = (.ok displaced, after)) ↔
        graph.contains id ∧ (∀ child ∈ value.nodeReferences, graph.contains child) ∧
          (graph.withArgument id name value).Acyclic) ∧
      (∀ error after, graph.setArgument id name value = (.error error, after) →
        after = graph ∧
        (graph.contains id = false ∧ error = .unknownNode id ∨
          graph.contains id ∧ ∃ before child rest,
            value.nodeReferences = before ++ child :: rest ∧
            (∀ other ∈ before, ¬ graph.Offends id other) ∧ graph.Offends id child ∧
            error = if graph.contains child then .cycle id child name
              else .unknownNode child)) ∧
      (∀ displaced after, graph.setArgument id name value = (.ok displaced, after) →
        AssignsOnly graph after id name value displaced) := by
  have hwell := h.wellFormed
  refine ⟨hwell.acyclic, fun id name value => ⟨?_, ?_, ?_⟩⟩
  · exact hwell.exists_setArgument_iff id name value
  · intro error after herror
    exact ⟨((graph.setArgument_eq_error_iff id name value error after).mp herror).1,
      hwell.setArgument_error herror⟩
  · intro displaced after hok
    obtain ⟨buildable, hbuildable, -, rfl, rfl⟩ :=
      (graph.setArgument_eq_ok_iff id name value displaced after).mp hok
    exact assignsOnly_assigned hbuildable name value

/-- Two nodes, of which the second refers to the first. -/
def twoNodeChain : ConfigGraph :=
  (empty.perform (.addNode (.ofCallable .config (.classType "models" "Inner")))).perform
    (.addNode ((Buildable.ofCallable .config (.classType "models" "Outer")).assign "inner"
      (.node ⟨0⟩)))

theorem built_twoNodeChain : twoNodeChain.Built :=
  .perform _ (.perform _ .empty (.ofCallable _ _)) (.assign _ _ (.ofCallable _ _))

theorem setArgument_refuses_chain_cycle :
    twoNodeChain.Built ∧ twoNodeChain.Acyclic ∧
      ¬ (twoNodeChain.withArgument ⟨0⟩ "outer" (.list [.node ⟨1⟩])).Acyclic := by
  obtain ⟨hacyclic, hassign⟩ := setArgument_refuses_only_cycles built_twoNodeChain
  refine ⟨built_twoNodeChain, hacyclic, fun hafter => ?_⟩
  obtain ⟨displaced, after, hok⟩ := (hassign ⟨0⟩ "outer" (.list [.node ⟨1⟩])).1.mpr
    ⟨by decide, by decide, hafter⟩
  have herror : twoNodeChain.setArgument ⟨0⟩ "outer" (.list [.node ⟨1⟩]) =
      (.error (.cycle ⟨0⟩ ⟨1⟩ "outer"), twoNodeChain) := rfl
  rw [herror] at hok
  cases hok

end ConfigLowering.ConfigGraph
