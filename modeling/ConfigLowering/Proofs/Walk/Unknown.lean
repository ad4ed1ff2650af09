import ConfigLowering.Proofs.Graph.Completion
import ConfigLowering.Proofs.Walk.Steps
import ConfigLowering.Proofs.Walk.Unfolding

/-!
# Unknown nodes

Config nodes refer to known nodes only, but a root may refer to any. A walk fails at the first
reference to an unknown node that it comes to, and without one it succeeds.
-/

namespace ConfigLowering

open Relation

variable {graph : ConfigGraph}

namespace ConfigGraph

/-- No address before it leads to an unknown node. -/
structure FirstUnknown (graph : ConfigGraph) (roots : List (Value × Path)) (address : List Nat)
    (id : NodeId) : Prop where
  node : graph.nodeAt? roots address = some id
  unknown : graph.contains id = false
  first : ∀ earlier < address, ∀ other, graph.nodeAt? roots earlier = some other →
    graph.contains other

theorem FirstUnknown.unique {roots : List (Value × Path)} {address other : List Nat}
    {id found : NodeId} (h : graph.FirstUnknown roots address id)
    (hother : graph.FirstUnknown roots other found) : id = found := by
  obtain hless | rfl | hless := lt_trichotomy address other
  · have hknown := hother.first address hless id h.node
    simp [h.unknown] at hknown
  · exact Option.some.inj (h.node.symm.trans hother.node)
  · have hknown := h.first other hless found hother.node
    simp [hother.unknown] at hknown

theorem WellFormed.contains_of_below (hgraph : graph.WellFormed) {value : Value}
    (hvalue : ∀ id ∈ value.nodeReferences, graph.contains id) {id : NodeId}
    (hbelow : graph.Below value (.node id)) : graph.contains id := by
  obtain ⟨start, hstart, hpath⟩ := reached_of_below hbelow
  obtain rfl | ⟨parent, -, hrefers⟩ := hpath.cases_tail
  · exact hvalue _ hstart
  · exact hgraph.known parent id hrefers

/-! ## The first unknown reference -/

def unknown? (graph : ConfigGraph) (references : List NodeId) : Option NodeId :=
  references.find? (!graph.contains ·)

theorem unknown?_eq_none_iff (references : List NodeId) :
    graph.unknown? references = none ↔ ∀ id ∈ references, graph.contains id := by
  simp [unknown?]

theorem unknown?_append (first rest : List NodeId) :
    graph.unknown? (first ++ rest) = (graph.unknown? first).or (graph.unknown? rest) :=
  List.find?_append

theorem WellFormed.unknown?_nodeReferences (hgraph : graph.WellFormed) (id : NodeId) :
    graph.unknown? (graph.nodeReferences id) = none :=
  (unknown?_eq_none_iff _).mpr fun child hchild =>
    hgraph.known id child ((graph.mem_nodeReferences_iff id child).mp hchild)

theorem FirstUnknown.zero {place : Value × Path} {places : List (Value × Path)}
    {inner : List Nat} {id : NodeId} (h : graph.FirstUnknown [place] (0 :: inner) id) :
    graph.FirstUnknown (place :: places) (0 :: inner) id where
  node := h.node
  unknown := h.unknown
  first := by
    rw [forall_lt_zero_iff]
    exact ((forall_lt_zero_iff inner).mp h.first)

theorem FirstUnknown.above {place : Value × Path} {address : List Nat} {id : NodeId}
    (hplace : place.1.asNode? = none)
    (h : graph.FirstUnknown (graph.places place) address id) :
    graph.FirstUnknown [place] (0 :: address) id := by
  have haddress : address ≠ [] := by
    rintro rfl
    exact absurd h.node nofun
  refine ⟨(nodeAt?_zero haddress).trans h.node, h.unknown, ?_⟩
  rw [forall_lt_zero_iff]
  refine ⟨nofun, fun earlier hless other hother => ?_⟩
  by_cases hnil : earlier = []
  · rw [hnil, nodeAt?_root, hplace] at hother
    contradiction
  · rw [nodeAt?_zero hnil] at hother
    exact h.first earlier hless other hother

/-- After a root over known nodes it is the first one among the other roots. -/
theorem FirstUnknown.succ {place : Value × Path} {places : List (Value × Path)}
    {address : List Nat} {id : NodeId} (h : graph.FirstUnknown places address id)
    (hplace : ∀ other, graph.Below place.1 (.node other) → graph.contains other) :
    graph.FirstUnknown (place :: places) (address.modifyHead (· + 1)) id := by
  cases address with
  | nil => exact absurd h.node nofun
  | cons index inner =>
      refine ⟨h.node, h.unknown, (forall_lt_succ_iff index inner).mpr ⟨?_, ?_⟩⟩
      · rintro (_ | ⟨position, earlier⟩) hless other hother
        · contradiction
        · exact h.first _ hless other hother
      · exact fun earlier other hother =>
          hplace other ((exists_nodeAt?_zero_iff other).mp ⟨earlier, hother⟩)

theorem exists_firstUnknown_of (hgraph : graph.WellFormed) {places : List (Value × Path)}
    {id : NodeId} (h : ∀ place ∈ places, graph.unknown? place.1.nodeReferences = some id →
      ∃ inner, graph.FirstUnknown [place] (0 :: inner) id)
    (hid : graph.unknown? ((places.map Prod.fst).flatMap Value.nodeReferences) = some id) :
    ∃ address, graph.FirstUnknown places address id := by
  induction places with
  | nil => contradiction
  | cons place places ih =>
      rw [List.map_cons, List.flatMap_cons, unknown?_append] at hid
      cases hplace : graph.unknown? place.1.nodeReferences with
      | some found =>
          rw [hplace] at hid
          obtain rfl := Option.some.inj hid
          obtain ⟨inner, hinner⟩ := h place List.mem_cons_self hplace
          exact ⟨0 :: inner, hinner.zero⟩
      | none =>
          rw [hplace, Option.none_or] at hid
          obtain ⟨address, haddress⟩ :=
            ih (fun other hother => h other (List.mem_cons_of_mem _ hother)) hid
          have hknown := (unknown?_eq_none_iff _).mp hplace
          exact ⟨_, haddress.succ fun _ => hgraph.contains_of_below hknown⟩

theorem exists_firstUnknown_value (hgraph : graph.WellFormed) (value : Value) (path : Path)
    {id : NodeId} (hid : graph.unknown? value.nodeReferences = some id) :
    ∃ inner, graph.FirstUnknown [(value, path)] (0 :: inner) id := by
  induction value using Value.induction_children generalizing path with
  | step value ih =>
      cases hnode : value.asNode? with
      | none =>
          rw [Value.nodeReferences_eq_flatMap hnode, ← Value.map_fst_places path,
            ← places_value hnode] at hid
          refine (exists_firstUnknown_of hgraph (fun place hplace => ?_) hid).imp
            fun _ haddress => haddress.above hnode
          have hchild : place.1 ∈ value.children := by
            rw [← Value.map_fst_places path, ← places_value hnode]
            exact List.mem_map_of_mem hplace
          exact ih place.1 hchild place.2
      | some other =>
          cases value <;> simp only [Value.asNode?, reduceCtorEq] at hnode
          have hfound := List.find?_some hid
          have hmem := List.mem_of_find?_eq_some hid
          rw [Value.nodeReferences, List.mem_singleton] at hmem
          subst hmem
          refine ⟨[], rfl, by simpa using hfound, ?_⟩
          simp [forall_lt_zero_iff]

theorem exists_firstUnknown (hgraph : graph.WellFormed) {roots : List (Value × Path)} {id : NodeId}
    (hid : graph.unknown? ((roots.map Prod.fst).flatMap Value.nodeReferences) = some id) :
    ∃ address, graph.FirstUnknown roots address id :=
  exists_firstUnknown_of hgraph
    (fun place _ => exists_firstUnknown_value hgraph place.1 place.2) hid

end ConfigGraph

/-! ## How walks end -/

namespace Walk

def SeenKnown (graph : ConfigGraph) (walk : Walk) : Prop := ∀ id ∈ walk.seen, graph.contains id

/-- The action fails with the first unknown one of the references, or without one succeeds. -/
def Ends (graph : ConfigGraph) (references : List NodeId) (action : WalkM Unit) : Prop :=
  ∀ before, SeenKnown graph before →
    match graph.unknown? references with
    | some id => action.run before = .error (.unknownNode id)
    | none => ∃ after, action.run before = .ok ((), after) ∧ SeenKnown graph after

theorem run_bind_of_ok {α β : Type} {action : WalkM α} {next : α → WalkM β}
    {before between : Walk} {value : α} (h : action.run before = .ok (value, between)) :
    (action >>= next).run before = (next value).run between := by
  rw [StateT.run_bind, h]
  rfl

theorem run_bind_of_error {α β : Type} {action : WalkM α} {next : α → WalkM β}
    {before : Walk} {error : GraphError} (h : action.run before = .error error) :
    (action >>= next).run before = .error error := by
  rw [StateT.run_bind, h]
  rfl

theorem ends_pure : Ends graph [] (pure ()) :=
  fun before hbefore => ⟨before, rfl, hbefore⟩

theorem Ends.bind {references more : List NodeId} {action : WalkM Unit} {next : Unit → WalkM Unit}
    (h : Ends graph references action) (hnext : Ends graph more (next ())) :
    Ends graph (references ++ more) (action >>= next) := by
  intro before hbefore
  have hfirst := h before hbefore
  rw [ConfigGraph.unknown?_append]
  cases hunknown : graph.unknown? references with
  | some id =>
      rw [hunknown] at hfirst
      exact run_bind_of_error hfirst
  | none =>
      rw [hunknown] at hfirst
      obtain ⟨between, hrun, hbetween⟩ := hfirst
      rw [Option.none_or, run_bind_of_ok hrun]
      exact hnext between hbetween

theorem Ends.record {references : List NodeId} {action : WalkM Unit} (visit : Visit) (path : Path)
    (h : Ends graph references action) :
    Ends graph references (do record visit path; action) :=
  fun before hbefore => h (before.recorded visit path) hbefore

variable {enter : NodeId → Path → WalkM Unit}

theorem ends_walkItems {items : List Value}
    (h : ∀ item ∈ items, ∀ path, Ends graph item.nodeReferences (walkValue enter item path))
    (position : Nat) (path : Path) :
    Ends graph (items.flatMap Value.nodeReferences) (walkItems enter items position path) := by
  induction items generalizing position with
  | nil => exact ends_pure
  | cons item items ih =>
      rw [List.flatMap_cons]
      exact (h item List.mem_cons_self _).bind
        (ih (fun other hother => h other (List.mem_cons_of_mem _ hother)) (position + 1))

theorem ends_walkEntries {entries : List (String × Value)}
    (h : ∀ item ∈ entries.map Prod.snd, ∀ path,
      Ends graph item.nodeReferences (walkValue enter item path))
    (step : String → PathStep) (path : Path) :
    Ends graph ((entries.map Prod.snd).flatMap Value.nodeReferences)
      (walkEntries enter step entries path) := by
  induction entries with
  | nil => exact ends_pure
  | cons entry entries ih =>
      obtain ⟨name, item⟩ := entry
      rw [List.map_cons, List.flatMap_cons]
      exact (h item List.mem_cons_self _).bind
        (ih fun other hother => h other (List.mem_cons_of_mem _ hother))

theorem ends_walkValue {value : Value}
    (henter : ∀ id ∈ value.nodeReferences, ∀ path, Ends graph [id] (enter id path))
    (path : Path) : Ends graph value.nodeReferences (walkValue enter value path) := by
  induction value using Value.induction_children generalizing path with
  | step value ih =>
      have hchildren := fun child (hchild : child ∈ value.children) => ih child hchild
        fun id hid => henter id (Value.mem_nodeReferences_of_mem_children hchild hid)
      cases value with
      | node id =>
          rw [Value.nodeReferences] at henter ⊢
          exact henter id List.mem_cons_self path
      | list items =>
          rw [walkValue, Value.nodeReferences_eq_flatMap rfl]
          exact (ends_walkItems hchildren 0 path).record _ path
      | tuple items =>
          rw [walkValue, Value.nodeReferences_eq_flatMap rfl]
          exact (ends_walkItems hchildren 0 path).record _ path
      | dict entries =>
          rw [walkValue, Value.nodeReferences_eq_flatMap rfl]
          exact (ends_walkEntries hchildren .key path).record _ path
      | call id callee positional named history =>
          rw [walkValue, Value.nodeReferences_eq_flatMap rfl, Value.children, List.flatMap_append]
          refine Ends.record _ path (Ends.bind ?_ ?_)
          · exact ends_walkItems
              (fun item hitem => hchildren item (List.mem_append_left _ hitem)) 0 path
          · exact ends_walkEntries
              (fun item hitem => hchildren item (List.mem_append_right _ hitem)) .field path
      | tagged id tagNames item =>
          rw [walkValue, Value.nodeReferences]
          exact (hchildren item List.mem_cons_self _).record _ path
      | _ => exact ends_pure.record _ path

theorem ends_arguments (hgraph : graph.WellFormed) {depth : Nat} {id : NodeId}
    (hrank : graph.rank id ≤ depth + 1)
    (h : ∀ {child : NodeId}, graph.rank child ≤ depth → ∀ path,
      Ends graph [child] (walkNode graph depth child path))
    {buildable : Buildable} (hfound : graph.get? id = some buildable) (path : Path) :
    Ends graph (graph.nodeReferences id)
      (walkEntries (walkNode graph depth) .field buildable.arguments.entries path) := by
  rw [ConfigGraph.nodeReferences, ConfigGraph.parts_node hfound]
  refine ends_walkEntries (fun item hitem => ends_walkValue fun child hchild => h ?_) .field path
  have hpart : item ∈ graph.parts (.node id) := ConfigGraph.parts_node hfound ▸ hitem
  exact hgraph.covers_argument hrank hpart child hchild

theorem ends_walkNode (hgraph : graph.WellFormed) {depth : Nat} {id : NodeId}
    (hrank : graph.rank id ≤ depth) (path : Path) :
    Ends graph [id] (walkNode graph depth id path) := by
  induction depth generalizing id path with
  | zero =>
      have hpos := graph.rank_pos id
      omega
  | succ depth ih =>
      intro before hbefore
      rw [walkNode]
      by_cases hseen : id ∈ before.seen
      · have hmark := (run_mark id before).trans (if_pos hseen)
        have hknown : graph.unknown? [id] = none := by simp [ConfigGraph.unknown?, hbefore id hseen]
        rw [hknown, run_bind_of_ok hmark]
        exact ⟨before, rfl, hbefore⟩
      · have hmark := (run_mark id before).trans (if_neg hseen)
        rw [run_bind_of_ok hmark, if_pos rfl]
        cases hfound : graph.get? id with
        | none =>
            have hunknown : graph.unknown? [id] = some id := by
              simp [ConfigGraph.unknown?, (graph.not_contains_iff id).mpr hfound]
            have hnode : graph.node id = .error (.unknownNode id) := by
              rw [graph.node_eq, hfound, Option.elim_none]
            rw [hunknown, hnode]
            exact run_bind_of_error rfl
        | some buildable =>
            -- Below a known node all references are known, so nothing fails any more.
            have hknown : graph.contains id := (graph.contains_iff id).mpr ⟨buildable, hfound⟩
            have hself : graph.unknown? [id] = none := by simp [ConfigGraph.unknown?, hknown]
            have hnode : graph.node id = .ok buildable := by
              rw [graph.node_eq, hfound, Option.elim_some]
            have harguments := ends_arguments hgraph hrank (fun hchild => ih hchild) hfound path
            have hends := harguments.record (.node id buildable) path
              { before with seen := id :: before.seen }
              (List.forall_mem_cons.mpr ⟨hknown, hbefore⟩)
            rw [hgraph.unknown?_nodeReferences] at hends
            rw [hself, hnode]
            exact hends

theorem ends_forM {follow : Value × Path → WalkM Unit}
    (h : ∀ place, Ends graph place.1.nodeReferences (follow place))
    (places : List (Value × Path)) :
    Ends graph ((places.map Prod.fst).flatMap Value.nodeReferences) (places.forM follow) := by
  induction places with
  | nil => exact ends_pure
  | cons place places ih =>
      rw [List.map_cons, List.flatMap_cons]
      exact (h place).bind ih

end Walk

namespace ConfigGraph

/-- A listing succeeds or fails with the first unknown node. -/
theorem iterateAll_ends (hgraph : graph.WellFormed) (roots : List (Value × Path)) :
    match graph.unknown? ((roots.map Prod.fst).flatMap Value.nodeReferences) with
    | some id => graph.iterateAll roots = .error (.unknownNode id)
    | none => ∃ entries, graph.iterateAll roots = .ok entries := by
  have hends := Walk.ends_forM (fun place => Walk.ends_walkValue (fun id _ =>
    Walk.ends_walkNode hgraph (hgraph.rank_le id)) place.2) roots .empty nofun
  rw [iterateAll]
  cases hunknown : graph.unknown? ((roots.map Prod.fst).flatMap Value.nodeReferences) with
  | some id =>
      rw [hunknown] at hends
      exact (congrArg (· >>= _) hends).trans rfl
  | none =>
      rw [hunknown] at hends
      obtain ⟨after, hrun, -⟩ := hends
      exact ⟨after.entries.toList, (congrArg (· >>= _) hrun).trans rfl⟩

theorem FirstUnknown.unknown?_ne_none (hgraph : graph.WellFormed) {roots : List (Value × Path)}
    {address : List Nat} {id : NodeId} (h : graph.FirstUnknown roots address id) :
    graph.unknown? ((roots.map Prod.fst).flatMap Value.nodeReferences) ≠ none := by
  intro hnone
  rw [unknown?_eq_none_iff] at hnone
  obtain ⟨root, hroot, hbelow⟩ := exists_root_of_nodeAt? h.node
  have hknown := hgraph.contains_of_below (fun start hstart => hnone start
    (List.mem_flatMap.mpr ⟨root.1, List.mem_map_of_mem hroot, hstart⟩)) hbelow
  simp [h.unknown] at hknown

theorem iterateAll_eq_error_iff (hgraph : graph.WellFormed) (roots : List (Value × Path))
    (error : GraphError) :
    graph.iterateAll roots = .error error ↔
      ∃ address id, graph.FirstUnknown roots address id ∧ error = .unknownNode id := by
  have hends := graph.iterateAll_ends hgraph roots
  cases hunknown : graph.unknown? ((roots.map Prod.fst).flatMap Value.nodeReferences) with
  | none =>
      rw [hunknown] at hends
      obtain ⟨entries, hentries⟩ := hends
      rw [hentries]
      constructor
      · exact nofun
      · rintro ⟨address, id, hfirst, -⟩
        exact absurd hunknown (hfirst.unknown?_ne_none hgraph)
  | some id =>
      rw [hunknown] at hends
      obtain ⟨address, hfirst⟩ := exists_firstUnknown hgraph hunknown
      rw [hends]
      constructor
      · rintro ⟨⟩
        exact ⟨address, id, hfirst, rfl⟩
      · rintro ⟨other, found, hfound, rfl⟩
        rw [hfirst.unique hfound]

end ConfigGraph

end ConfigLowering
