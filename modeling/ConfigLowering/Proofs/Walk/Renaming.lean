import ConfigLowering.Proofs.Graph.Renaming
import ConfigLowering.Proofs.Walk.Steps

/-!
# Walks with other numbers

A walk over known references succeeds, and it lists the same in a graph whose nodes have
other numbers: which numbers they are decides neither what it meets nor when.
-/

namespace ConfigLowering

def Visit.rename (change : NodeId → NodeId) : Visit → Visit
  | .node id buildable => .node (change id) (buildable.rename change)
  | .value given => .value (given.rename change)

namespace Walk

def rename (change : NodeId → NodeId) (walk : Walk) : Walk where
  seen := walk.seen.map change
  entries := walk.entries.map fun (visit, path) => (visit.rename change, path)

/-- Both actions succeed, from walks that are the same up to numbers to such walks again. -/
def Mirrors {α : Type} (change : NodeId → NodeId) (action other : WalkM α) : Prop :=
  ∀ before, ∃ value after, action.run before = .ok (value, after) ∧
    other.run (before.rename change) = .ok (value, after.rename change)

variable {α β : Type} {change : NodeId → NodeId}

/-! ## Actions -/

theorem mirrors_pure (value : α) : Mirrors change (pure value) (pure value) :=
  fun before => ⟨value, before, rfl, rfl⟩

theorem Mirrors.bind {action other : WalkM α} {next further : α → WalkM β}
    (h : Mirrors change action other)
    (hnext : ∀ value, Mirrors change (next value) (further value)) :
    Mirrors change (action >>= next) (other >>= further) := by
  intro before
  obtain ⟨value, between, haction, hother⟩ := h before
  obtain ⟨result, after, hnext, hfurther⟩ := hnext value between
  refine ⟨result, after, ?_, ?_⟩
  · rw [StateT.run_bind, haction]
    exact hnext
  · rw [StateT.run_bind, hother]
    exact hfurther

theorem mirrors_record (visit : Visit) (path : Path) :
    Mirrors change (record visit path) (record (visit.rename change) path) :=
  fun before => ⟨(), before.recorded visit path, rfl, by
    change Except.ok ((), recorded (before.rename change) (visit.rename change) path) = _
    simp [recorded, rename]⟩

theorem mirrors_mark (hchange : Function.Injective change) (id : NodeId) :
    Mirrors change (mark id) (mark (change id)) := by
  intro before
  have hseen : change id ∈ (before.rename change).seen ↔ id ∈ before.seen :=
    List.mem_map_of_injective hchange
  rw [run_mark, run_mark]
  by_cases hid : id ∈ before.seen
  · rw [if_pos hid, if_pos (hseen.mpr hid)]
    exact ⟨false, before, rfl, rfl⟩
  · rw [if_neg hid, if_neg (mt hseen.mp hid)]
    exact ⟨true, { before with seen := id :: before.seen }, rfl, rfl⟩

/-! ## Values -/

variable {graph other : ConfigGraph} {enter further : NodeId → Path → WalkM Unit}

theorem mirrors_walkItems {items : List Value}
    (h : ∀ item ∈ items, ∀ path,
      Mirrors change (walkValue enter item path) (walkValue further (item.rename change) path))
    (position : Nat) (path : Path) :
    Mirrors change (walkItems enter items position path)
      (walkItems further (Value.renameItems change items) position path) := by
  induction items generalizing position with
  | nil => exact mirrors_pure ()
  | cons item items ih =>
      refine (h item List.mem_cons_self _).bind fun _ => ?_
      exact ih (fun other hother => h other (List.mem_cons_of_mem _ hother)) (position + 1)

theorem mirrors_walkEntries {entries : List (String × Value)}
    (h : ∀ item ∈ entries.map Prod.snd, ∀ path,
      Mirrors change (walkValue enter item path) (walkValue further (item.rename change) path))
    (step : String → PathStep) (path : Path) :
    Mirrors change (walkEntries enter step entries path)
      (walkEntries further step (Value.renameEntries change entries) path) := by
  induction entries with
  | nil => exact mirrors_pure ()
  | cons entry entries ih =>
      obtain ⟨name, item⟩ := entry
      refine (h item List.mem_cons_self _).bind fun _ => ?_
      exact ih fun other hother => h other (List.mem_cons_of_mem _ hother)

theorem mirrors_walkValue {depth : Nat}
    (henter : ∀ id, graph.Hosts depth (.node id) → ∀ path,
      Mirrors change (enter id path) (further (change id) path))
    {value : Value} (hvalue : graph.Hosts depth value) (path : Path) :
    Mirrors change (walkValue enter value path) (walkValue further (value.rename change) path) := by
  induction value using Value.induction_children generalizing path with
  | step value ih =>
      have hchildren := fun child hchild => ih child hchild (hvalue.child hchild)
      cases value with
      | node id => exact henter id hvalue path
      | list items =>
          rw [walkValue, Value.rename, walkValue]
          exact (mirrors_record (.value (.list items)) path).bind
            fun _ => mirrors_walkItems hchildren 0 path
      | tuple items =>
          rw [walkValue, Value.rename, walkValue]
          exact (mirrors_record (.value (.tuple items)) path).bind
            fun _ => mirrors_walkItems hchildren 0 path
      | dict entries =>
          rw [walkValue, Value.rename, walkValue]
          exact (mirrors_record (.value (.dict entries)) path).bind
            fun _ => mirrors_walkEntries hchildren .key path
      | call id callee positional named history =>
          rw [walkValue, Value.rename, walkValue]
          refine (mirrors_record (.value (.call id callee positional named history)) path).bind
            fun _ => Mirrors.bind ?_ fun _ => ?_
          · exact mirrors_walkItems
              (fun item hitem => hchildren item (List.mem_append_left _ hitem)) 0 path
          · exact mirrors_walkEntries
              (fun item hitem => hchildren item (List.mem_append_right _ hitem)) .field path
      | tagged id tagNames item =>
          rw [walkValue, Value.rename, walkValue]
          exact (mirrors_record (.value (.tagged id tagNames item)) path).bind
            fun _ => hchildren item List.mem_cons_self _
      | _ => exact mirrors_record _ path

/-! ## Nodes and roots -/

theorem mirrors_walkNode (hgraph : graph.WellFormed) (hrenames : graph.Renames other change)
    {depth : Nat} {id : NodeId} (h : graph.Hosts depth (.node id)) (path : Path) :
    Mirrors change (walkNode graph depth id path) (walkNode other depth (change id) path) := by
  induction depth generalizing id path with
  | zero => exact absurd h (ConfigGraph.not_hosts_zero id)
  | succ depth ih =>
      obtain ⟨buildable, hnode⟩ := h.exists_node
      have hfound : graph.node id = .ok buildable := by simp [ConfigGraph.node, hnode]
      rw [walkNode, walkNode, hfound, hrenames.node hnode]
      refine (mirrors_mark hrenames.injective id).bind fun new => ?_
      cases new with
      | false => exact mirrors_pure ()
      | true =>
          have harguments := mirrors_walkEntries (fun item hitem => mirrors_walkValue
            (fun _ hchild => ih hchild) (h.argument hgraph
              (ConfigGraph.parts_node hnode ▸ hitem : item ∈ graph.parts (.node id)))) .field path
          rw [Value.renameEntries_eq] at harguments
          exact (mirrors_record (.node id buildable) path).bind fun _ => harguments

end Walk

open Walk (Mirrors mirrors_pure mirrors_walkValue mirrors_walkNode)

/-- A listing of known values succeeds, and numbers of nodes only occur in it. -/
theorem ConfigGraph.iterateAll_rename {graph other : ConfigGraph} {change : NodeId → NodeId}
    (hgraph : graph.WellFormed) (hrenames : graph.Renames other change)
    {roots : List (Value × Path)}
    (hroots : ∀ root ∈ roots, ∀ id ∈ root.1.nodeReferences, graph.contains id) :
    ∃ entries, graph.iterateAll roots = .ok entries ∧
      other.iterateAll (roots.map fun (root, path) => (root.rename change, path)) =
        .ok (entries.map fun (visit, path) => (visit.rename change, path)) := by
  have hforM : Mirrors change (roots.forM fun (root, base) => graph.walkFrom root base)
      ((roots.map fun (root, path) => (root.rename change, path)).forM
        fun (root, base) => other.walkFrom root base) := by
    induction roots with
    | nil => exact mirrors_pure ()
    | cons root roots ih =>
        obtain ⟨hroot, hothers⟩ := List.forall_mem_cons.mp hroots
        refine Mirrors.bind ?_ fun _ => ih hothers
        have hwalk := fun path => mirrors_walkValue (fun _ => mirrors_walkNode hgraph hrenames)
          (hgraph.hosts hroot) path
        simpa only [walkFrom, hrenames.nodeCount] using hwalk root.2
  obtain ⟨⟨⟩, after, hrun, hother⟩ := hforM .empty
  refine ⟨after.entries.toList, ?_, ?_⟩
  · rw [iterateAll, hrun]
    rfl
  · rw [iterateAll]
    have hempty : Walk.empty.rename change = .empty := by simp [Walk.rename, Walk.empty]
    rw [hempty] at hother
    rw [hother]
    simp [Walk.rename, bind, Except.bind, pure, Except.pure]

end ConfigLowering
