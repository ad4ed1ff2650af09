import ConfigLowering.Proofs.Graph.Parts

/-!
# Completion order

A traversal that takes the references of a node before the node itself, and no node twice,
completes the nodes in this order. It completes exactly the nodes that can be reached.
-/

namespace ConfigLowering.ConfigGraph

open Relation

/-- References of all arguments of a node, in their order. -/
def nodeReferences (graph : ConfigGraph) (id : NodeId) : List NodeId :=
  (graph.parts (.node id)).flatMap Value.nodeReferences

/-- The nodes that are complete after a node, which come behind those that were before it. -/
def complete (graph : ConfigGraph) : Nat → List NodeId → NodeId → List NodeId
  | 0, done, _ => done
  | depth + 1, done, id =>
      if id ∈ done then done
      else (graph.nodeReferences id).foldl (graph.complete depth) done ++ [id]

def completeAll (graph : ConfigGraph) (depth : Nat) (done ids : List NodeId) : List NodeId :=
  ids.foldl (graph.complete depth) done

/-- The nodes below some values in the order in which they are completed. -/
def completionOrder (graph : ConfigGraph) (values : List Value) : List NodeId :=
  graph.completeAll (graph.nodeCount + 1) [] (values.flatMap Value.nodeReferences)

theorem mem_nodeReferences_iff (graph : ConfigGraph) (parent child : NodeId) :
    child ∈ graph.nodeReferences parent ↔ graph.Refers parent child := by
  rw [refers_iff_parts, nodeReferences, List.mem_flatMap]

variable {graph : ConfigGraph}

/-! ## Steps -/

theorem complete_of_mem {id : NodeId} {done : List NodeId} (h : id ∈ done) (depth : Nat) :
    graph.complete depth done id = done := by
  cases depth <;> simp [complete, h]

theorem complete_of_not_mem {id : NodeId} {done : List NodeId} (h : id ∉ done) (depth : Nat) :
    graph.complete (depth + 1) done id =
      graph.completeAll depth done (graph.nodeReferences id) ++ [id] := by
  simp [complete, completeAll, h]

@[simp] theorem completeAll_nil (depth : Nat) (done : List NodeId) :
    graph.completeAll depth done [] = done := rfl

@[simp] theorem completeAll_cons (depth : Nat) (done : List NodeId) (id : NodeId)
    (ids : List NodeId) :
    graph.completeAll depth done (id :: ids) =
      graph.completeAll depth (graph.complete depth done id) ids := rfl

@[simp] theorem completeAll_append (depth : Nat) (done ids more : List NodeId) :
    graph.completeAll depth done (ids ++ more) =
      graph.completeAll depth (graph.completeAll depth done ids) more :=
  List.foldl_append

theorem completeAll_of_subset {done ids : List NodeId} (h : ids ⊆ done) (depth : Nat) :
    graph.completeAll depth done ids = done := by
  induction ids with
  | nil => rfl
  | cons id ids ih =>
      obtain ⟨hid, hids⟩ := List.cons_subset.mp h
      rw [completeAll_cons, complete_of_mem hid, ih hids]

theorem prefix_completeAll_of {depth : Nat}
    (h : ∀ done id, done <+: graph.complete depth done id) (done ids : List NodeId) :
    done <+: graph.completeAll depth done ids := by
  induction ids generalizing done with
  | nil => exact List.prefix_rfl
  | cons id ids ih => exact (h done id).trans (ih _)

theorem prefix_complete (depth : Nat) (done : List NodeId) (id : NodeId) :
    done <+: graph.complete depth done id := by
  induction depth generalizing done id with
  | zero => exact List.prefix_rfl
  | succ depth ih =>
      by_cases hid : id ∈ done
      · exact ⟨[], by rw [List.append_nil, complete_of_mem hid]⟩
      · rw [complete_of_not_mem hid]
        exact (prefix_completeAll_of ih done _).trans (List.prefix_append _ _)

theorem prefix_completeAll (depth : Nat) (done ids : List NodeId) :
    done <+: graph.completeAll depth done ids :=
  prefix_completeAll_of (prefix_complete depth) done ids

theorem mem_complete (depth : Nat) (done : List NodeId) (id : NodeId) :
    id ∈ graph.complete (depth + 1) done id := by
  by_cases hid : id ∈ done
  · rw [complete_of_mem hid]
    exact hid
  · rw [complete_of_not_mem hid]
    exact List.mem_append_right _ List.mem_cons_self

theorem subset_completeAll (depth : Nat) (done ids : List NodeId) :
    ids ⊆ graph.completeAll (depth + 1) done ids := by
  induction ids generalizing done with
  | nil => exact List.nil_subset _
  | cons id ids ih =>
      rw [completeAll_cons]
      exact List.cons_subset.mpr
        ⟨(prefix_completeAll _ _ _).subset (mem_complete depth done id), ih _⟩

/-! ## Completed nodes -/

/-- Everything below a completed node is completed. -/
def Settled (graph : ConfigGraph) (done : List NodeId) : Prop :=
  ∀ parent ∈ done, ∀ child, graph.Refers parent child → child ∈ done

theorem settled_completeAll_of {depth : Nat} {ids : List NodeId}
    (h : ∀ id ∈ ids, ∀ done, graph.Settled done → graph.Settled (graph.complete depth done id))
    {done : List NodeId} (hdone : graph.Settled done) :
    graph.Settled (graph.completeAll depth done ids) := by
  induction ids generalizing done with
  | nil => exact hdone
  | cons id ids ih =>
      obtain ⟨hid, hids⟩ := List.forall_mem_cons.mp h
      exact ih hids (hid done hdone)

theorem WellFormed.settled_complete (hgraph : graph.WellFormed) {depth : Nat} {id : NodeId}
    (hrank : graph.rank id ≤ depth) {done : List NodeId} (hdone : graph.Settled done) :
    graph.Settled (graph.complete depth done id) := by
  induction depth generalizing id done with
  | zero => exact hdone
  | succ depth ih =>
      by_cases hid : id ∈ done
      · rw [complete_of_mem hid]
        exact hdone
      · have hranks : ∀ child ∈ graph.nodeReferences id, graph.rank child ≤ depth := by
          intro child hchild
          have hlt := hgraph.rank_lt ((graph.mem_nodeReferences_iff id child).mp hchild)
          omega
        have hsettled : graph.Settled
            (graph.completeAll depth done (graph.nodeReferences id)) :=
          settled_completeAll_of (fun child hchild _ hdone => ih (hranks child hchild) hdone) hdone
        rw [complete_of_not_mem hid]
        intro parent hparent child hrefers
        apply List.mem_append_left
        obtain hparent | hparent := List.mem_append.mp hparent
        · exact hsettled parent hparent child hrefers
        · rw [List.mem_singleton.mp hparent] at hrefers
          have hchild := (graph.mem_nodeReferences_iff id child).mpr hrefers
          -- A child has a rank, so there was depth left for it.
          have hpos := graph.rank_pos child
          have hrank := hranks child hchild
          cases depth with
          | zero => omega
          | succ depth => exact subset_completeAll depth done _ hchild

theorem reached_of_mem_completeAll_of {depth : Nat}
    (h : ∀ done id found, found ∈ graph.complete depth done id →
      found ∈ done ∨ ReflTransGen graph.Refers id found)
    {done ids : List NodeId} {found : NodeId} (hfound : found ∈ graph.completeAll depth done ids) :
    found ∈ done ∨ ∃ id ∈ ids, ReflTransGen graph.Refers id found := by
  induction ids generalizing done with
  | nil => exact .inl hfound
  | cons id ids ih =>
      obtain hfound | ⟨start, hstart, hpath⟩ := ih hfound
      · obtain hfound | hpath := h _ _ _ hfound
        · exact .inl hfound
        · exact .inr ⟨id, List.mem_cons_self, hpath⟩
      · exact .inr ⟨start, List.mem_cons_of_mem _ hstart, hpath⟩

theorem reached_of_mem_complete (depth : Nat) (done : List NodeId) (id found : NodeId)
    (h : found ∈ graph.complete depth done id) :
    found ∈ done ∨ ReflTransGen graph.Refers id found := by
  induction depth generalizing done id found with
  | zero => exact .inl h
  | succ depth ih =>
      by_cases hid : id ∈ done
      · rw [complete_of_mem hid] at h
        exact .inl h
      · rw [complete_of_not_mem hid] at h
        obtain h | h := List.mem_append.mp h
        · obtain h | ⟨child, hchild, hpath⟩ := reached_of_mem_completeAll_of ih h
          · exact .inl h
          · exact .inr (.head ((graph.mem_nodeReferences_iff id child).mp hchild) hpath)
        · rw [List.mem_singleton.mp h]
          exact .inr .refl

/-! ## Below values -/

theorem below_reference {value : Value} {id : NodeId} (h : id ∈ value.nodeReferences) :
    graph.Below value (.node id) := by
  induction value using Value.induction_children with
  | step value ih =>
      cases hnode : value.asNode? with
      | none =>
          rw [Value.nodeReferences_eq_flatMap hnode, List.mem_flatMap] at h
          obtain ⟨part, hpart, hid⟩ := h
          exact .head ((graph.parts_eq_children hnode).symm ▸ hpart) (ih part hpart hid)
      | some other =>
          cases value <;> simp only [Value.asNode?, reduceCtorEq] at hnode
          obtain rfl : id = _ := by simpa [Value.nodeReferences] using h
          exact .refl

theorem below_of_reached {value : Value} {start id : NodeId} (hstart : start ∈ value.nodeReferences)
    (hpath : ReflTransGen graph.Refers start id) : graph.Below value (.node id) := by
  induction hpath with
  | refl => exact below_reference hstart
  | tail _ hrefers ih =>
      obtain ⟨part, hpart, hid⟩ := (graph.refers_iff_parts _ _).mp hrefers
      exact ih.trans (.head hpart (below_reference hid))

theorem reached_of_below {value : Value} {id : NodeId} (h : graph.Below value (.node id)) :
    ∃ start ∈ value.nodeReferences, ReflTransGen graph.Refers start id := by
  induction h using ReflTransGen.head_induction_on with
  | refl => exact ⟨id, by simp [Value.nodeReferences], .refl⟩
  | @head whole part hpart _ ih =>
      obtain ⟨start, hstart, hpath⟩ := ih
      cases hnode : whole.asNode? with
      | none =>
          rw [graph.parts_eq_children hnode] at hpart
          exact ⟨start, Value.mem_nodeReferences_of_mem_children hpart hstart, hpath⟩
      | some parent =>
          cases whole <;> simp only [Value.asNode?, reduceCtorEq] at hnode
          have hrefers := (graph.refers_iff_parts _ start).mpr ⟨part, hpart, hstart⟩
          exact ⟨_, by simp [Value.nodeReferences], .head hrefers hpath⟩

theorem WellFormed.mem_completionOrder_iff (hgraph : graph.WellFormed) (values : List Value)
    (id : NodeId) :
    id ∈ graph.completionOrder values ↔ ∃ value ∈ values, graph.Below value (.node id) := by
  constructor
  · intro h
    obtain h | ⟨start, hstart, hpath⟩ :=
      reached_of_mem_completeAll_of (reached_of_mem_complete _) h
    · contradiction
    · obtain ⟨value, hvalue, hstart⟩ := List.mem_flatMap.mp hstart
      exact ⟨value, hvalue, below_of_reached hstart hpath⟩
  · rintro ⟨value, hvalue, hbelow⟩
    obtain ⟨start, hstart, hpath⟩ := reached_of_below hbelow
    have hsettled : graph.Settled (graph.completionOrder values) :=
      settled_completeAll_of (fun id _ _ => hgraph.settled_complete (hgraph.rank_le id)) nofun
    have hmem : start ∈ graph.completionOrder values :=
      subset_completeAll graph.nodeCount [] _ (List.mem_flatMap.mpr ⟨value, hvalue, hstart⟩)
    clear hstart hbelow
    induction hpath with
    | refl => exact hmem
    | tail _ hrefers ih => exact hsettled _ ih _ hrefers

end ConfigLowering.ConfigGraph
