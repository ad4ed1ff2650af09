import ConfigLowering.Proofs.Graph.EdgeOrder
import ConfigLowering.Proofs.Walk.Listing

/-!
# Walks and searches

A search follows edges, and a walk finds the same references in the values of arguments. So a
walk from a value comes to the nodes that can be reached from it, and where edges stand in the
order of arguments it comes to them in the order of the search.
-/

namespace ConfigLowering

variable {graph : ConfigGraph}

theorem Walk.Walked.explores {before after : Walk} {places : List (Value × Path)}
    (h : Walked graph before places after) :
    Explores graph.nodeReferences before.seen.reverse
      ((places.map Prod.fst).flatMap Value.nodeReferences) after.seen.reverse := by
  induction h with
  | nil walk => exact .nil _
  | @cons before between after place places _ _ ihfirst ihrest =>
      rw [List.map_cons, List.flatMap_cons]
      rw [List.map_cons, List.map_nil, List.flatMap_singleton] at ihfirst
      exact ihfirst.append ihrest
  | seen path hseen => exact .known (List.mem_reverse.mpr hseen) (.nil _)
  | @node before after id buildable path hnew hnode _ ih =>
      refine .fresh (mt List.mem_reverse.mp hnew) ?_ (.nil _)
      rw [map_fst_entryPlaces] at ih
      rw [ConfigGraph.nodeReferences, ConfigGraph.parts_node hnode, Arguments.values]
      simpa [recorded] using ih
  | @value before after value path hnode _ ih =>
      rw [Value.map_fst_places, ← Value.nodeReferences_eq_flatMap hnode] at ih
      simpa [recorded] using ih

namespace ConfigGraph

theorem explores_listedNodes {roots : List (Value × Path)} {entries : List (Visit × Path)}
    (h : graph.iterateAll roots = .ok entries) :
    Explores graph.nodeReferences [] ((roots.map Prod.fst).flatMap Value.nodeReferences)
      (listedNodes entries) := by
  obtain ⟨after, hwalked, -, hlisted⟩ := walked_listedNodes h
  rw [hlisted]
  exact hwalked.explores

/-- A walk from known references comes to exactly the nodes that a search finds, and in the same
order if no argument was assigned again. -/
theorem iterate_visits_reachable (h : graph.Built) {root : Value}
    (hroot : ∀ id ∈ root.nodeReferences, graph.contains id) :
    ∃ entries, graph.iterate root = .ok entries ∧
      (∀ id, id ∈ graph.reachable root ↔ id ∈ listedNodes entries) ∧
      (graph.BuiltOnce → graph.reachable root = listedNodes entries) := by
  obtain ⟨entries, hentries⟩ := (exists_iterateAll_iff h.wellFormed [(root, .root)]).mpr
    (List.forall_mem_singleton.mpr hroot)
  have hsearched := graph.explores_reachable root
  rw [List.filter_eq_self.mpr hroot] at hsearched
  have hwalked := explores_listedNodes hentries
  rw [List.map_cons, List.map_nil, List.flatMap_singleton] at hwalked
  refine ⟨entries, hentries, fun id => ?_, fun honce => ?_⟩
  · have hsame : (fun parent child => child ∈ graph.children parent) =
        fun parent child => child ∈ graph.nodeReferences parent := by
      funext parent child
      rw [graph.mem_nodeReferences_iff]
      exact propext (h.wellFormed.links_iff parent child)
    rw [hsearched.mem_iff, hwalked.mem_iff, hsame]
  · rw [honce.inArgumentOrder.children] at hsearched
    exact hsearched.unique hwalked

theorem iterate_visits_pairOverChain :
    pairOverChain.Built ∧ pairOverChain.BuiltOnce ∧
      ∃ entries, pairOverChain.iterate (.list [.node ⟨1⟩, .node ⟨2⟩]) = .ok entries ∧
        listedNodes entries = [⟨1⟩, ⟨0⟩, ⟨2⟩] := by
  obtain ⟨entries, hentries, -, horder⟩ := iterate_visits_reachable builtOnce_pairOverChain.built
    (by decide : ∀ id ∈ (Value.list [.node ⟨1⟩, .node ⟨2⟩]).nodeReferences,
      pairOverChain.contains id)
  have hreachable : pairOverChain.reachable (.list [.node ⟨1⟩, .node ⟨2⟩]) =
      [⟨1⟩, ⟨0⟩, ⟨2⟩] := by decide
  rw [horder builtOnce_pairOverChain] at hreachable
  exact ⟨builtOnce_pairOverChain.built, builtOnce_pairOverChain, entries, hentries, hreachable⟩

/-- After an assignment the search takes a reference last that the walk takes first. -/
example : reorderedPair.reachable (.node ⟨2⟩) = [⟨2⟩, ⟨1⟩, ⟨0⟩] ∧
    (reorderedPair.iterate (.node ⟨2⟩)).map listedNodes = .ok [⟨2⟩, ⟨0⟩, ⟨1⟩] :=
  ⟨by decide, rfl⟩

end ConfigGraph

end ConfigLowering
