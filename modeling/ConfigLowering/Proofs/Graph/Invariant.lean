import ConfigLowering.Proofs.Graph.Mirror

/-!
# The invariant of graph operations

What each operation does to a graph, and that every operation keeps the graph
well formed.
-/

namespace ConfigLowering.ConfigGraph

open Relation

/-! ## Cycles -/

/-- New steps that all leave one place, and none of which leads back to it, close
no cycle. -/
theorem acyclic_of_redirected {α : Type} {old new : α → α → Prop} (place : α)
    (hold : ∀ x, ¬ TransGen old x x)
    (hnew : ∀ x y, new x y → old x y ∨ x = place ∧ ¬ ReflTransGen old y place) :
    ∀ x, ¬ TransGen new x x := by
  -- A new path is an old one, or it passes the place and goes on by an old one.
  have hpath : ∀ {x y}, ReflTransGen new x y → ReflTransGen old x y ∨
      ReflTransGen old x place ∧
        ∃ z, ¬ ReflTransGen old z place ∧ ReflTransGen old z y := by
    intro x y hxy
    induction hxy with
    | refl => exact .inl .refl
    | tail _ hstep ih =>
        obtain hstep | ⟨rfl, hback⟩ := hnew _ _ hstep
        · obtain ih | ⟨hto, z, hz, hfrom⟩ := ih
          · exact .inl (ih.tail hstep)
          · exact .inr ⟨hto, z, hz, hfrom.tail hstep⟩
        · obtain ih | ⟨_, z, hz, hfrom⟩ := ih
          · exact .inr ⟨ih, _, hback, .refl⟩
          · exact absurd hfrom hz
  intro x hcycle
  obtain ⟨y, hstep, hrest⟩ := TransGen.head'_iff.mp hcycle
  obtain hstep | ⟨rfl, hback⟩ := hnew _ _ hstep
  · obtain hrest | ⟨hto, z, hz, hfrom⟩ := hpath hrest
    · exact hold x (.head' hstep hrest)
    · exact hz (hfrom.trans (.head hstep hto))
  · obtain hrest | ⟨hto, -⟩ := hpath hrest
    · exact hback hrest
    · exact hback hto

/-! ## Replacing a node -/

def replaceNode (graph : ConfigGraph) (id : NodeId) (buildable : Buildable) :
    ConfigGraph :=
  { graph with nodes := graph.nodes.set id.index buildable }

theorem get?_replaceNode {graph : ConfigGraph} {id : NodeId}
    (h : graph.contains id) (buildable : Buildable) (other : NodeId) :
    (graph.replaceNode id buildable).get? other =
      if other = id then some buildable else graph.get? other := by
  obtain ⟨index⟩ := other
  have hindex : id.index < graph.nodes.length := (graph.contains_iff_lt id).mp h
  simp only [replaceNode, get?, List.getElem?_set, hindex]
  by_cases heq : index = id.index
  · simp [heq]
  · have hne : NodeId.mk index ≠ id := fun hid => heq (by rw [← hid])
    simp [hne, Ne.symm heq]

theorem contains_replaceNode (graph : ConfigGraph) (id : NodeId)
    (buildable : Buildable) (other : NodeId) :
    (graph.replaceNode id buildable).contains other = graph.contains other := by
  rw [Bool.eq_iff_iff, contains_iff_lt, contains_iff_lt]
  simp [nodeCount, replaceNode]

theorem WellFormed.replaceNode {graph : ConfigGraph} (h : graph.WellFormed)
    {id : NodeId} {before after : Buildable} (hbefore : graph.get? id = some before)
    (hafter : after.WellFormed) (harguments : after.arguments = before.arguments) :
    (graph.replaceNode id after).WellFormed := by
  have hid : graph.contains id := (graph.contains_iff id).mpr ⟨before, hbefore⟩
  have hrefers : (graph.replaceNode id after).Refers = graph.Refers := by
    funext parent child
    simp only [Refers, get?_replaceNode hid]
    by_cases heq : parent = id
    · simp [heq, hbefore, Buildable.references, harguments]
    · simp [heq]
  refine ⟨?_, ?_, ?_, ?_⟩
  · intro other buildable hother
    rw [get?_replaceNode hid] at hother
    split at hother
    · rwa [← Option.some.inj hother]
    · exact h.nodes other buildable hother
  · intro parent argument
    have hat : (graph.replaceNode id after).referencesAt parent argument =
        graph.referencesAt parent argument := by
      simp only [referencesAt, get?_replaceNode hid]
      by_cases heq : parent = id
      · simp [heq, hbefore, harguments]
      · simp [heq]
    rw [hat, ← h.mirrored]
    rfl
  · intro parent child
    rw [hrefers, contains_replaceNode]
    exact h.known parent child
  · rw [Acyclic, hrefers]
    exact h.acyclic

/-! ## What operations do -/

theorem checkReferences_eq (graph : ConfigGraph) (buildable : Buildable) :
    graph.checkReferences buildable =
      checkEach (fun reference => graph.checkContains reference.2) buildable.references :=
  bind_pure _

theorem checkAssignment_eq (graph : ConfigGraph) (id : NodeId) (name : String) (value : Value) :
    graph.checkAssignment id name value = graph.checkContains id >>= fun _ =>
      checkEach (graph.checkReference id name) value.nodeReferences :=
  congrArg (graph.checkContains id >>= ·) (funext fun _ => bind_pure _)

theorem addNode_eq (graph : ConfigGraph) (buildable : Buildable) :
    graph.addNode buildable =
      match checkEach (fun reference => graph.checkContains reference.2) buildable.references with
      | .error error => (.error error, graph)
      | .ok _ => (.ok ⟨graph.nodeCount⟩, ⟨graph.nodes ++ [buildable], graph.edges ++
          buildable.references.map fun reference =>
            ⟨⟨graph.nodeCount⟩, reference.2, reference.1⟩⟩) := by
  rw [addNode, checkReferences_eq]
  rfl

theorem addNode_eq_ok_iff (graph : ConfigGraph) (buildable : Buildable) (id : NodeId)
    (after : ConfigGraph) :
    graph.addNode buildable = (.ok id, after) ↔
      (∀ reference ∈ buildable.references, graph.contains reference.2) ∧
        id = ⟨graph.nodeCount⟩ ∧
        after = ⟨graph.nodes ++ [buildable], graph.edges ++
          buildable.references.map fun reference => ⟨id, reference.2, reference.1⟩⟩ := by
  have hchecks := checkEach_eq_ok_iff (fun reference => graph.checkContains reference.2)
    buildable.references
  simp only [checkContains_eq_ok_iff] at hchecks
  rw [addNode_eq, ← hchecks]
  cases checkEach (fun reference => graph.checkContains reference.2) buildable.references with
  | error error => simp
  | ok result =>
      simp only [Prod.mk.injEq, Except.ok.injEq, true_and]
      constructor
      · rintro ⟨rfl, rfl⟩
        exact ⟨rfl, rfl⟩
      · rintro ⟨rfl, rfl⟩
        exact ⟨rfl, rfl⟩

theorem eq_of_addNode_error {graph after : ConfigGraph} {buildable : Buildable}
    {error : GraphError} (h : graph.addNode buildable = (.error error, after)) :
    after = graph := by
  rw [addNode_eq] at h
  split at h
  · exact (Prod.mk.inj h).2.symm
  · cases h

/-- The graph in which an argument has a new value, with the edges of that value in
place of the old ones. -/
def assigned (graph : ConfigGraph) (id : NodeId) (buildable : Buildable) (name : String)
    (value : Value) : ConfigGraph where
  nodes := graph.nodes.set id.index (buildable.assign name value)
  edges := graph.edges.filter (fun edge => !(edge.parent = id && edge.argument = name)) ++
    value.nodeReferences.map fun child => ⟨id, child, name⟩

theorem setArgument_eq (graph : ConfigGraph) (id : NodeId) (name : String) (value : Value) :
    graph.setArgument id name value =
      match graph.get? id with
      | none => (.error (.unknownNode id), graph)
      | some buildable =>
          match checkEach (graph.checkReference id name) value.nodeReferences with
          | .error error => (.error error, graph)
          | .ok _ => (.ok (buildable.arguments.get? name),
              graph.assigned id buildable name value) := by
  rw [setArgument, checkAssignment_eq]
  cases hfound : graph.get? id with
  | none =>
      rw [checkContains, (graph.not_contains_iff id).mpr hfound]
      rfl
  | some buildable =>
      rw [(graph.checkContains_eq_ok_iff id).mpr ((graph.contains_iff id).mpr ⟨_, hfound⟩)]
      cases checkEach (graph.checkReference id name) value.nodeReferences with
      | error error => rfl
      | ok result =>
          have hnode : (graph.relink id name value.nodeReferences).node id = .ok buildable := by
            rw [node_eq]
            exact congrArg (Option.elim · _ _) hfound
          simp only [bind, Except.bind, update, hnode, Arguments.insert_displaced]
          rfl

theorem setArgument_eq_ok_iff (graph : ConfigGraph) (id : NodeId) (name : String)
    (value : Value) (displaced : Option Value) (after : ConfigGraph) :
    graph.setArgument id name value = (.ok displaced, after) ↔
      ∃ buildable, graph.get? id = some buildable ∧
        (∀ child ∈ value.nodeReferences, graph.checkReference id name child = .ok ()) ∧
        displaced = buildable.arguments.get? name ∧
        after = graph.assigned id buildable name value := by
  rw [setArgument_eq, ← checkEach_eq_ok_iff]
  cases graph.get? id with
  | none => simp
  | some buildable =>
      cases checkEach (graph.checkReference id name) value.nodeReferences with
      | error error => simp
      | ok result => simp [eq_comm]

theorem setArgument_eq_error_iff (graph : ConfigGraph) (id : NodeId) (name : String)
    (value : Value) (error : GraphError) (after : ConfigGraph) :
    graph.setArgument id name value = (.error error, after) ↔
      after = graph ∧
        (graph.contains id = false ∧ error = .unknownNode id ∨
          graph.contains id ∧ ∃ before child rest,
            value.nodeReferences = before ++ child :: rest ∧
            (∀ other ∈ before, graph.checkReference id name other = .ok ()) ∧
            graph.checkReference id name child = .error error) := by
  rw [setArgument_eq, ← checkEach_eq_error_iff, not_contains_iff, contains_iff]
  cases graph.get? id with
  | none => simp [eq_comm, and_comm]
  | some buildable =>
      cases checkEach (graph.checkReference id name) value.nodeReferences <;>
        simp [eq_comm, and_comm]

/-- The answer and the change of a node that is known. -/
theorem update_eq {α : Type} (graph : ConfigGraph) (id : NodeId)
    (change : Buildable → α × Buildable) :
    graph.update id change =
      match graph.get? id with
      | none => (.error (.unknownNode id), graph)
      | some buildable => (.ok (change buildable).1, graph.replaceNode id (change buildable).2) := by
  rw [update, node_eq]
  cases graph.get? id <;> rfl

/-- A change of a node replaces it, or nothing happens because there is no such node. -/
theorem update_snd_cases {α : Type} (graph : ConfigGraph) (id : NodeId)
    (change : Buildable → α × Buildable) :
    (∃ before, graph.get? id = some before ∧
        (graph.update id change).2 = graph.replaceNode id (change before).2) ∨
      (graph.update id change).2 = graph := by
  rw [update_eq]
  cases hfound : graph.get? id with
  | none => exact .inr rfl
  | some before => exact .inl ⟨before, rfl, rfl⟩

/-- An operation adds a node, assigns an argument, gives a node other tags or does nothing. -/
theorem perform_cases (graph : ConfigGraph) (operation : GraphOperation) :
    (∃ buildable id, operation = .addNode buildable ∧
        graph.addNode buildable = (.ok id, graph.perform operation)) ∨
      (∃ id name value displaced, operation = .setArgument id name value ∧
        graph.setArgument id name value = (.ok displaced, graph.perform operation)) ∨
      (∃ id before after, graph.get? id = some before ∧
        (before.WellFormed → after.WellFormed) ∧ after.arguments = before.arguments ∧
        graph.perform operation = graph.replaceNode id after) ∨
      graph.perform operation = graph := by
  cases operation with
  | addNode buildable =>
      rw [perform]
      rcases hadd : graph.addNode buildable with ⟨error | id, after⟩
      · exact .inr (.inr (.inr (eq_of_addNode_error hadd)))
      · exact .inl ⟨buildable, id, rfl, hadd⟩
  | setArgument id name value =>
      rw [perform]
      rcases hset : graph.setArgument id name value with ⟨error | displaced, after⟩
      · exact .inr (.inr (.inr ((graph.setArgument_eq_error_iff _ _ _ _ _).mp hset).1))
      · exact .inr (.inl ⟨id, name, value, displaced, rfl, hset⟩)
  | addTag id field tag =>
      obtain ⟨before, hfound, hafter⟩ | hsame := graph.update_snd_cases id _
      · exact .inr (.inr (.inl ⟨id, before, _, hfound, (·.addTag field tag), rfl, hafter⟩))
      · exact .inr (.inr (.inr hsame))
  | removeTag id field tag =>
      obtain ⟨before, hfound, hafter⟩ | hsame := graph.update_snd_cases id _
      · exact .inr (.inr (.inl ⟨id, before, _, hfound, (·.removeTag field tag), rfl, hafter⟩))
      · exact .inr (.inr (.inr hsame))
  | clearTags id =>
      obtain ⟨before, hfound, hafter⟩ | hsame := graph.update_snd_cases id _
      · exact .inr (.inr (.inl ⟨id, before, _, hfound, (·.clearTags), rfl, hafter⟩))
      · exact .inr (.inr (.inr hsame))

theorem WellFormed.checkReference_eq {graph : ConfigGraph} (h : graph.WellFormed)
    (id child : NodeId) (name : String) :
    graph.checkReference id name child =
      if graph.contains child then
        if graph.hasPath child id then .error (.cycle id child name) else .ok ()
      else .error (.unknownNode child) := by
  have heq : graph.checkReference id name child = graph.checkContains child >>= fun _ =>
      if child = id || graph.hasPath child id then .error (.cycle id child name)
      else .ok () := rfl
  have hself : (decide (child = id) || graph.hasPath child id) = graph.hasPath child id := by
    by_cases hid : child = id
    · subst hid
      simp [(h.hasPath_iff child child).mpr .refl]
    · simp [hid]
  rw [heq, hself, checkContains]
  cases graph.contains child <;> rfl

theorem WellFormed.checkReference_eq_ok_iff {graph : ConfigGraph} (h : graph.WellFormed)
    (id child : NodeId) (name : String) :
    graph.checkReference id name child = .ok () ↔
      graph.contains child ∧ ¬ ReflTransGen graph.Refers child id := by
  rw [h.checkReference_eq, ← h.hasPath_iff]
  cases graph.contains child <;> cases graph.hasPath child id <;> simp

theorem WellFormed.checkReference_eq_error_iff {graph : ConfigGraph}
    (h : graph.WellFormed) (id child : NodeId) (name : String) (error : GraphError) :
    graph.checkReference id name child = .error error ↔
      (¬ graph.contains child ∨ ReflTransGen graph.Refers child id) ∧
        error = if graph.contains child then .cycle id child name else .unknownNode child := by
  rw [h.checkReference_eq, ← h.hasPath_iff]
  cases graph.contains child <;> cases graph.hasPath child id <;> simp [eq_comm]

/-! ## Every operation keeps the invariant -/

theorem wellFormed_empty : empty.WellFormed where
  nodes := by simp [get?, empty]
  mirrored := by simp [edgesAt, referencesAt, get?, empty]
  known := by simp [Refers, get?, empty]
  acyclic := by
    intro id hcycle
    obtain ⟨child, ⟨buildable, hbuildable, -⟩, -⟩ := TransGen.head'_iff.mp hcycle
    simp [get?, empty] at hbuildable

theorem get?_append (graph : ConfigGraph) (buildable : Buildable) (edges : List Edge)
    (id : NodeId) :
    get? ⟨graph.nodes ++ [buildable], edges⟩ id =
      if id = ⟨graph.nodeCount⟩ then some buildable else graph.get? id := by
  obtain ⟨index⟩ := id
  simp only [get?, nodeCount, NodeId.mk.injEq]
  by_cases hindex : index = graph.nodes.length
  · simp [hindex]
  · by_cases hlt : index < graph.nodes.length
    · simp [hindex, List.getElem?_append_left hlt]
    · have hlast : index - graph.nodes.length ≠ 0 := by omega
      simp [hindex, List.getElem?_append_right (Nat.le_of_not_lt hlt),
        List.getElem?_eq_none (Nat.le_of_not_lt hlt), hlast]

theorem contains_append (graph : ConfigGraph) (buildable : Buildable) (edges : List Edge)
    (id : NodeId) :
    contains ⟨graph.nodes ++ [buildable], edges⟩ id ↔
      graph.contains id ∨ id = ⟨graph.nodeCount⟩ := by
  obtain ⟨index⟩ := id
  rw [contains_iff_lt, contains_iff_lt]
  simp only [nodeCount, List.length_append, List.length_singleton, NodeId.mk.injEq]
  omega

theorem WellFormed.addNode {graph after : ConfigGraph} (h : graph.WellFormed)
    {buildable : Buildable} (hbuildable : buildable.WellFormed) {id : NodeId}
    (hadd : graph.addNode buildable = (.ok id, after)) : after.WellFormed := by
  obtain ⟨hknown, rfl, rfl⟩ := (graph.addNode_eq_ok_iff buildable id after).mp hadd
  have hnew : graph.get? ⟨graph.nodeCount⟩ = none := by simp [get?, nodeCount]
  have hunreferred : ∀ child, graph.contains child →
      ¬ ReflTransGen graph.Refers child ⟨graph.nodeCount⟩ := by
    intro child hchild hpath
    obtain rfl | ⟨last, -, hlast⟩ := ReflTransGen.cases_tail hpath
    · simp [contains_iff, hnew] at hchild
    · have hlast := h.known last _ hlast
      simp [contains_iff, hnew] at hlast
  refine ⟨?_, ?_, ?_, ?_⟩
  · intro other found hother
    rw [get?_append] at hother
    split at hother
    · rwa [← Option.some.inj hother]
    · exact h.nodes other found hother
  · intro parent argument
    have hold := h.mirrored parent argument
    simp only [edgesAt, referencesAt, get?_append, List.filter_append, List.map_append]
      at hold ⊢
    rw [hold]
    by_cases hparent : parent = ⟨graph.nodeCount⟩
    · simp [hparent, hnew, ← Buildable.references_at hbuildable.names_nodup,
        List.filter_map, Function.comp_def]
    · simp [hparent, Ne.symm hparent, List.filter_map, Function.comp_def]
  · rintro parent child ⟨found, hfound, argument, hreference⟩
    rw [get?_append] at hfound
    rw [contains_append]
    split at hfound
    · rw [← Option.some.inj hfound] at hreference
      exact .inl (hknown _ hreference)
    · exact .inl (h.known parent child ⟨found, hfound, argument, hreference⟩)
  · apply acyclic_of_redirected ⟨graph.nodeCount⟩ h.acyclic
    rintro parent child ⟨found, hfound, argument, hreference⟩
    rw [get?_append] at hfound
    split at hfound
    · next hparent =>
        rw [← Option.some.inj hfound] at hreference
        exact .inr ⟨hparent, hunreferred child (hknown _ hreference)⟩
    · exact .inl ⟨found, hfound, argument, hreference⟩

/-! ### Assignments -/

theorem get?_assigned {graph : ConfigGraph} {id : NodeId} (h : graph.contains id)
    (buildable : Buildable) (name : String) (value : Value) (other : NodeId) :
    (graph.assigned id buildable name value).get? other =
      if other = id then some (buildable.assign name value) else graph.get? other :=
  get?_replaceNode h (buildable.assign name value) other

theorem edgesAt_assigned (graph : ConfigGraph) (id : NodeId) (buildable : Buildable)
    (name : String) (value : Value) (parent : NodeId) (argument : String) :
    (graph.assigned id buildable name value).edgesAt parent argument =
      if parent = id ∧ argument = name then
        value.nodeReferences.map fun child => ⟨id, child, name⟩
      else graph.edgesAt parent argument := by
  simp only [edgesAt, assigned, List.filter_append, List.filter_filter]
  split
  · next hat =>
      obtain ⟨rfl, rfl⟩ := hat
      simp [List.filter_map, Function.comp_def]
  · next hat =>
      have hadded : (value.nodeReferences.map fun child => (⟨id, child, name⟩ : Edge)).filter
          (fun edge => edge.parent = parent && edge.argument = argument) = [] := by
        rw [List.filter_eq_nil_iff]
        grind
      rw [hadded, List.append_nil]
      apply List.filter_congr
      grind

theorem referencesAt_assigned {graph : ConfigGraph} {id : NodeId} {buildable : Buildable}
    (hbuildable : graph.get? id = some buildable) (name : String) (value : Value)
    (parent : NodeId) (argument : String) :
    (graph.assigned id buildable name value).referencesAt parent argument =
      if parent = id ∧ argument = name then value.nodeReferences
      else graph.referencesAt parent argument := by
  have hid : graph.contains id := (graph.contains_iff id).mpr ⟨buildable, hbuildable⟩
  simp only [referencesAt, get?_assigned hid]
  by_cases hparent : parent = id
  · by_cases hargument : argument = name <;>
      simp [hparent, hargument, hbuildable, Buildable.assign, Arguments.get?_insert]
  · simp [hparent]

theorem WellFormed.nodes_assigned {graph : ConfigGraph} (h : graph.WellFormed) {id : NodeId}
    {buildable : Buildable} (hbuildable : graph.get? id = some buildable) (name : String)
    (value : Value) (other : NodeId) (found : Buildable)
    (hfound : (graph.assigned id buildable name value).get? other = some found) :
    found.WellFormed := by
  rw [get?_assigned ((graph.contains_iff id).mpr ⟨buildable, hbuildable⟩)] at hfound
  split at hfound
  · rw [← Option.some.inj hfound]
    exact (h.nodes id buildable hbuildable).assign name value
  · exact h.nodes other found hfound

/-- After an assignment the references are those of the new value and those of all
other arguments. -/
theorem WellFormed.refers_assigned_iff {graph : ConfigGraph} (h : graph.WellFormed)
    {id : NodeId} {buildable : Buildable} (hbuildable : graph.get? id = some buildable)
    (name : String) (value : Value) (parent child : NodeId) :
    (graph.assigned id buildable name value).Refers parent child ↔
      parent = id ∧ child ∈ value.nodeReferences ∨
        ∃ argument, ¬ (parent = id ∧ argument = name) ∧
          child ∈ graph.referencesAt parent argument := by
  rw [refers_iff_referencesAt (h.nodes_assigned hbuildable name value)]
  simp only [referencesAt_assigned hbuildable]
  constructor
  · rintro ⟨argument, hat⟩
    split at hat
    · next hplace => exact .inl ⟨hplace.1, hat⟩
    · next hplace => exact .inr ⟨argument, hplace, hat⟩
  · rintro (⟨hparent, hchild⟩ | ⟨argument, hplace, hat⟩)
    · exact ⟨name, by simpa [hparent] using hchild⟩
    · exact ⟨argument, by simpa [hplace] using hat⟩

theorem WellFormed.acyclic_assigned {graph : ConfigGraph} (h : graph.WellFormed)
    {id : NodeId} {buildable : Buildable} (hbuildable : graph.get? id = some buildable)
    (name : String) {value : Value}
    (hback : ∀ child ∈ value.nodeReferences, ¬ ReflTransGen graph.Refers child id) :
    (graph.assigned id buildable name value).Acyclic := by
  apply acyclic_of_redirected id h.acyclic
  intro parent child hrefers
  obtain ⟨hparent, hchild⟩ | ⟨argument, -, hat⟩ :=
    (h.refers_assigned_iff hbuildable name value parent child).mp hrefers
  · exact .inr ⟨hparent, hback child hchild⟩
  · exact .inl ((refers_iff_referencesAt h.nodes parent child).mpr ⟨argument, hat⟩)

theorem WellFormed.setArgument {graph after : ConfigGraph} (h : graph.WellFormed)
    {id : NodeId} {name : String} {value : Value} {displaced : Option Value}
    (hset : graph.setArgument id name value = (.ok displaced, after)) :
    after.WellFormed := by
  obtain ⟨buildable, hbuildable, hchecks, -, rfl⟩ :=
    (graph.setArgument_eq_ok_iff id name value displaced after).mp hset
  have hchild : ∀ child ∈ value.nodeReferences,
      graph.contains child ∧ ¬ ReflTransGen graph.Refers child id := fun child hchild =>
    (h.checkReference_eq_ok_iff id child name).mp (hchecks child hchild)
  refine ⟨h.nodes_assigned hbuildable name value, ?_, ?_, ?_⟩
  · intro parent argument
    rw [edgesAt_assigned, referencesAt_assigned hbuildable, ← h.mirrored]
    split <;> simp [Function.comp_def]
  · intro parent child hrefers
    have hsame : (graph.assigned id buildable name value).contains child =
        graph.contains child := graph.contains_replaceNode id _ child
    rw [hsame]
    obtain ⟨-, hmem⟩ | ⟨argument, -, hat⟩ :=
      (h.refers_assigned_iff hbuildable name value parent child).mp hrefers
    · exact (hchild child hmem).1
    · exact h.known parent child
        ((refers_iff_referencesAt h.nodes parent child).mpr ⟨argument, hat⟩)
  · exact h.acyclic_assigned hbuildable name fun child hmem => (hchild child hmem).2

/-! ### All operations -/

theorem WellFormed.perform {graph : ConfigGraph} (h : graph.WellFormed)
    (operation : GraphOperation) (hadmissible : operation.Admissible) :
    (graph.perform operation).WellFormed := by
  obtain ⟨buildable, id, rfl, hadd⟩ | ⟨id, name, value, displaced, rfl, hset⟩ |
    ⟨id, before, after, hfound, hafter, harguments, hsame⟩ | hsame := graph.perform_cases operation
  · exact h.addNode (Buildable.Constructed.wellFormed hadmissible) hadd
  · exact h.setArgument hset
  · rw [hsame]
    exact h.replaceNode hfound (hafter (h.nodes id before hfound)) harguments
  · rwa [hsame]

theorem Built.wellFormed {graph : ConfigGraph} (h : graph.Built) : graph.WellFormed := by
  induction h with
  | empty => exact wellFormed_empty
  | perform operation _ hadmissible ih => exact ih.perform operation hadmissible

/-- Taking the last tag of a field takes the field too, so wrapping the tagged fields of a node
never meets one without tags. -/
theorem Built.tags_ne_empty {graph : ConfigGraph} (h : graph.Built) {id : NodeId}
    {buildable : Buildable} (hfound : graph.get? id = some buildable) {field : String}
    {tags : TagSet} (hfield : buildable.tags[field]? = some tags) : tags ≠ ∅ :=
  (h.wellFormed.nodes id buildable hfound).tags_nonempty field tags hfield

end ConfigLowering.ConfigGraph
