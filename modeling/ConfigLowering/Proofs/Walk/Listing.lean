import Mathlib.Data.Set.Card
import ConfigLowering.Proofs.Graph.Discovery
import ConfigLowering.Proofs.Walk.Coverage
import ConfigLowering.Proofs.Walk.Renaming

/-!
# What walks list

A walk over known references succeeds. It lists nothing but what stands below its roots, and
each config node that stands there exactly once.
-/

namespace ConfigLowering

/-- The config node that is visited, if it is one. -/
def Visit.nodeId? : Visit → Option NodeId
  | .node id _ => some id
  | .value _ => none

variable {graph : ConfigGraph}

theorem ConfigGraph.visit?_eq_node {value : Value} {id : NodeId} {visit : Visit}
    (h : graph.visit? value = some visit) : visit.nodeId? = some id ↔ value = .node id := by
  cases value with
  | node other =>
      obtain ⟨buildable, -, rfl⟩ := Option.map_eq_some_iff.mp h
      simp [Visit.nodeId?]
  | _ =>
      obtain rfl := Option.some.inj h
      simp [Visit.nodeId?]

/-- The visit is what a walk lists for something that stands in the value. -/
def ConfigGraph.Lists (graph : ConfigGraph) (value : Value) (visit : Visit) : Prop :=
  ∃ part, graph.Below value part ∧ graph.visit? part = some visit

theorem ConfigGraph.Lists.of_part {whole part : Value} {visit : Visit}
    (hpart : part ∈ graph.parts whole) (h : graph.Lists part visit) : graph.Lists whole visit := by
  obtain ⟨inner, hbelow, hinner⟩ := h
  exact ⟨inner, .head hpart hbelow, hinner⟩

namespace Walk

def visits (walk : Walk) : List Visit := walk.entries.toList.map Prod.fst

theorem visits_recorded (walk : Walk) (visit : Visit) (path : Path) :
    (walk.recorded visit path).visits = walk.visits ++ [visit] := by
  simp [visits, recorded]

/-! ## Nothing else is listed -/

theorem lists_of_recorded {before : Walk} {value : Value} {own visit : Visit} {path : Path}
    {parts : List (Value × Path)} (hown : graph.visit? value = some own)
    (hparts : parts.map Prod.fst = graph.parts value)
    (h : visit ∈ (before.recorded own path).visits ∨
      ∃ root ∈ parts.map Prod.fst, graph.Lists root visit) :
    visit ∈ before.visits ∨ graph.Lists value visit := by
  obtain hvisit | ⟨root, hroot, hlists⟩ := h
  · rw [visits_recorded] at hvisit
    obtain hvisit | hvisit := List.mem_append.mp hvisit
    · exact .inl hvisit
    · rw [List.mem_singleton.mp hvisit]
      exact .inr ⟨value, .refl, hown⟩
  · exact .inr (hlists.of_part (hparts ▸ hroot))

theorem Walked.mem_visits {before after : Walk} {places : List (Value × Path)}
    (h : Walked graph before places after) {visit : Visit} (hvisit : visit ∈ after.visits) :
    visit ∈ before.visits ∨ ∃ root ∈ places.map Prod.fst, graph.Lists root visit := by
  induction h with
  | nil walk => exact .inl hvisit
  | cons _ _ ihfirst ihrest =>
      obtain hvisit | ⟨root, hroot, hlists⟩ := ihrest hvisit
      · obtain hvisit | ⟨root, hroot, hlists⟩ := ihfirst hvisit
        · exact .inl hvisit
        · rw [List.mem_singleton.mp hroot] at hlists
          exact .inr ⟨_, List.mem_cons_self, hlists⟩
      · exact .inr ⟨root, List.mem_cons_of_mem _ hroot, hlists⟩
  | seen path hseen => exact .inl hvisit
  | node _ hnode _ ih =>
      refine (lists_of_recorded (ConfigGraph.visit?_node hnode) ?_ (ih hvisit)).imp id
        fun hlists => ⟨_, List.mem_cons_self, hlists⟩
      rw [map_fst_entryPlaces, ConfigGraph.parts_node hnode]
      rfl
  | value hnode _ ih =>
      refine (lists_of_recorded (ConfigGraph.visit?_value hnode) ?_ (ih hvisit)).imp id
        fun hlists => ⟨_, List.mem_cons_self, hlists⟩
      rw [Value.map_fst_places, graph.parts_eq_children hnode]

/-! ## No node is listed twice -/

/-- The nodes are listed as they are seen, and none is seen twice. -/
structure Ordered (walk : Walk) : Prop where
  nodup : walk.seen.Nodup
  listed : walk.visits.filterMap Visit.nodeId? = walk.seen.reverse

theorem Walked.ordered {before after : Walk} {places : List (Value × Path)}
    (h : Walked graph before places after) (hbefore : before.Ordered) : after.Ordered := by
  induction h with
  | nil walk => exact hbefore
  | cons _ _ ihfirst ihrest => exact ihrest (ihfirst hbefore)
  | seen path hseen => exact hbefore
  | @node before _ id buildable path hnew _ _ ih =>
      refine ih ⟨List.nodup_cons.mpr ⟨hnew, hbefore.nodup⟩, ?_⟩
      have hlisted := hbefore.listed
      rw [visits] at hlisted
      simp [visits, recorded, Visit.nodeId?, hlisted]
  | @value before _ value path _ _ ih =>
      refine ih ⟨hbefore.nodup, ?_⟩
      rw [visits_recorded, List.filterMap_append, hbefore.listed]
      exact List.append_nil _

/-! ## The order of the nodes -/

/-- A walk comes to the nodes in the order of discovery, at any depth that covers its places. -/
theorem Walked.discovers (hgraph : graph.WellFormed) {before after : Walk}
    {places : List (Value × Path)} (h : Walked graph before places after) (depth : Nat)
    (hcovers : ∀ value ∈ places.map Prod.fst, graph.Covers depth value) :
    after.seen.reverse = graph.discoverAll depth before.seen.reverse
      ((places.map Prod.fst).flatMap Value.nodeReferences) := by
  induction h generalizing depth with
  | nil walk => rfl
  | cons _ _ ihfirst ihrest =>
      obtain ⟨hfirst, hrest⟩ := List.forall_mem_cons.mp hcovers
      rw [ihrest depth hrest, ihfirst depth (List.forall_mem_singleton.mpr hfirst)]
      simp
  | seen path hseen =>
      simp [Value.nodeReferences, ConfigGraph.discover_of_mem (List.mem_reverse.mpr hseen)]
  | @node before _ id buildable path hnew hnode _ ih =>
      have hunseen : id ∉ before.seen.reverse := mt List.mem_reverse.mp hnew
      have hrank := hcovers (.node id) List.mem_cons_self id (by simp [Value.nodeReferences])
      obtain ⟨fewer, hchildren, hdiscover⟩ := hgraph.discover_of_not_mem hunseen hrank
      rw [ConfigGraph.nodeReferences, ConfigGraph.parts_node hnode] at hchildren hdiscover
      rw [map_fst_entryPlaces] at ih
      rw [ih fewer fun argument hargument child hchild =>
        hchildren child (List.mem_flatMap.mpr ⟨argument, hargument, hchild⟩)]
      simp [Value.nodeReferences, hdiscover, recorded, Arguments.values]
  | @value before _ value path hnode _ ih =>
      rw [Value.map_fst_places] at ih
      rw [ih depth fun child hchild => (hcovers value List.mem_cons_self).children hchild]
      simp [Value.nodeReferences_eq_flatMap hnode, recorded]

end Walk

/-! ## Listings -/

namespace ConfigGraph

variable {roots : List (Value × Path)} {entries : List (Visit × Path)}

theorem mem_iterateAll_iff (h : graph.iterateAll roots = .ok entries) (visit : Visit) :
    visit ∈ entries.map Prod.fst ↔ ∃ root ∈ roots.map Prod.fst, graph.Lists root visit := by
  constructor
  · intro hvisit
    obtain ⟨after, hwalked, rfl⟩ := Walk.walked_of_iterateAll h
    obtain hvisit | hlists := hwalked.mem_visits hvisit
    · contradiction
    · exact hlists
  · rintro ⟨root, hroot, part, hbelow, hpart⟩
    obtain ⟨found, hfound, hmem⟩ := iterateAll_covers h hroot hbelow
    rw [hpart] at hfound
    exact Option.some.inj hfound ▸ hmem

/-- The config nodes in a listing. -/
def listedNodes (entries : List (Visit × Path)) : List NodeId :=
  (entries.map Prod.fst).filterMap Visit.nodeId?

/-- The nodes that a walk lists are those it has seen, in the order in which it saw them. -/
theorem walked_listedNodes (h : graph.iterateAll roots = .ok entries) :
    ∃ after, Walk.Walked graph .empty roots after ∧ after.seen.Nodup ∧
      listedNodes entries = after.seen.reverse := by
  obtain ⟨after, hwalked, rfl⟩ := Walk.walked_of_iterateAll h
  have hordered := hwalked.ordered ⟨List.nodup_nil, rfl⟩
  exact ⟨after, hwalked, hordered.nodup, hordered.listed⟩

theorem nodup_listedNodes (h : graph.iterateAll roots = .ok entries) :
    (listedNodes entries).Nodup := by
  obtain ⟨after, -, hnodup, hlisted⟩ := walked_listedNodes h
  rw [hlisted]
  exact List.nodup_reverse.mpr hnodup

theorem listedNodes_eq_discoveryOrder (hgraph : graph.WellFormed)
    (h : graph.iterateAll roots = .ok entries) :
    listedNodes entries = graph.discoveryOrder (roots.map Prod.fst) := by
  obtain ⟨after, hwalked, -, hlisted⟩ := walked_listedNodes h
  rw [hlisted, hwalked.discovers hgraph (graph.nodeCount + 1) fun _ _ id _ => hgraph.rank_le id]
  rfl

theorem mem_listedNodes_iff (h : graph.iterateAll roots = .ok entries) (id : NodeId) :
    id ∈ listedNodes entries ↔ ∃ root ∈ roots.map Prod.fst, graph.Below root (.node id) := by
  rw [listedNodes, List.mem_filterMap]
  constructor
  · rintro ⟨visit, hvisit, hid⟩
    obtain ⟨root, hroot, part, hbelow, hpart⟩ := (mem_iterateAll_iff h visit).mp hvisit
    exact ⟨root, hroot, (visit?_eq_node hpart).mp hid ▸ hbelow⟩
  · rintro ⟨root, hroot, hbelow⟩
    obtain ⟨visit, hpart, hvisit⟩ := iterateAll_covers h hroot hbelow
    exact ⟨visit, hvisit, (visit?_eq_node hpart).mpr rfl⟩

theorem setOf_below_eq (h : graph.iterateAll roots = .ok entries) :
    {id | ∃ root ∈ roots.map Prod.fst, graph.Below root (.node id)} =
      ((listedNodes entries).toFinset : Set NodeId) := by
  ext id
  rw [Set.mem_ofPred_eq, List.coe_toFinset, Set.mem_ofPred_eq, mem_listedNodes_iff h]

/-- As many nodes are listed as stand below the roots. -/
theorem length_listedNodes (h : graph.iterateAll roots = .ok entries) :
    (listedNodes entries).length =
      {id | ∃ root ∈ roots.map Prod.fst, graph.Below root (.node id)}.ncard := by
  rw [setOf_below_eq h, Set.ncard_coe_finset, List.toFinset_card_of_nodup (nodup_listedNodes h)]

theorem exists_iterateAll_iff (hgraph : graph.WellFormed) (roots : List (Value × Path)) :
    (∃ entries, graph.iterateAll roots = .ok entries) ↔
      ∀ root ∈ roots.map Prod.fst, ∀ id ∈ root.nodeReferences, graph.contains id := by
  constructor
  · rintro ⟨entries, h⟩ root hroot id hid
    obtain ⟨visit, hvisit, -⟩ := iterateAll_covers h hroot (below_reference hid)
    obtain ⟨buildable, hnode, -⟩ := Option.map_eq_some_iff.mp hvisit
    exact (graph.contains_iff id).mpr ⟨buildable, hnode⟩
  · intro h
    obtain ⟨entries, hentries, -⟩ := graph.iterateAll_rename hgraph (.refl graph)
      fun root hroot => h root.1 (List.mem_map_of_mem hroot)
    exact ⟨entries, hentries⟩

end ConfigGraph

end ConfigLowering
