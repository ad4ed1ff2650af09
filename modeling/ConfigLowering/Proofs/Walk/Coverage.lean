import ConfigLowering.Proofs.Walk.Steps

/-!
# Walks meet what stands below their roots

What a walk has met has its parts met too, unless it was met before and is still open.
A walk that starts with nothing seen has nothing open in the end.
-/

namespace ConfigLowering

/-- How a walk lists a value that it meets. -/
def ConfigGraph.visit? (graph : ConfigGraph) : Value → Option Visit
  | .node id => (graph.get? id).map (.node id)
  | value => some (.value value)

variable {graph : ConfigGraph}

theorem ConfigGraph.visit?_node {id : NodeId} {buildable : Buildable}
    (h : graph.get? id = some buildable) :
    graph.visit? (.node id) = some (.node id buildable) := by
  simp [visit?, h]

theorem ConfigGraph.visit?_value {value : Value} (h : value.asNode? = none) :
    graph.visit? value = some (.value value) := by
  cases value <;> first | rfl | simp [Value.asNode?] at h

theorem ConfigGraph.visit?_injective {first second : Value} {visit : Visit}
    (hfirst : graph.visit? first = some visit) (hsecond : graph.visit? second = some visit) :
    first = second := by
  cases visit with
  | node id buildable =>
      cases first <;> cases second <;> simp_all [visit?]
  | value value =>
      cases first <;> cases second <;> simp_all [visit?]

namespace Walk

def Met (graph : ConfigGraph) (walk : Walk) (value : Value) : Prop :=
  ∃ visit, graph.visit? value = some visit ∧ visit ∈ walk.entries.toList.map Prod.fst

/-- Seen nodes have been met. -/
def Marked (graph : ConfigGraph) (walk : Walk) : Prop :=
  ∀ id ∈ walk.seen, Met graph walk (.node id)

theorem met_recorded_iff {walk : Walk} {value other : Value} {visit : Visit}
    (hvisit : graph.visit? value = some visit) (path : Path) :
    Met graph (walk.recorded visit path) other ↔ Met graph walk other ∨ other = value := by
  simp only [Met, recorded, Array.toList_push, List.map_append, List.mem_append, List.map_cons,
    List.map_nil, List.mem_singleton]
  constructor
  · rintro ⟨found, hfound, hmem | rfl⟩
    · exact .inl ⟨found, hfound, hmem⟩
    · exact .inr (ConfigGraph.visit?_injective hfound hvisit)
  · rintro (⟨found, hfound, hmem⟩ | rfl)
    · exact ⟨found, hfound, .inl hmem⟩
    · exact ⟨visit, hvisit, .inr rfl⟩

/-- What a walk over some places has met in the end. -/
structure Covering (graph : ConfigGraph) (before : Walk) (places : List (Value × Path))
    (after : Walk) : Prop where
  marked : Marked graph after
  places : ∀ value ∈ places.map Prod.fst, Met graph after value
  keeps : ∀ value, Met graph before value → Met graph after value
  closed : ∀ value, Met graph after value →
    Met graph before value ∨ ∀ part ∈ graph.parts value, Met graph after part

theorem Covering.of_recorded {before after : Walk} {value : Value} {visit : Visit}
    {path : Path} {seen : List NodeId} {parts : List (Value × Path)}
    (hvisit : graph.visit? value = some visit) (hparts : parts.map Prod.fst = graph.parts value)
    (h : Covering graph (recorded { before with seen := seen } visit path) parts after) :
    Covering graph before [(value, path)] after := by
  have hmet : ∀ other, Met graph (recorded { before with seen := seen } visit path) other ↔
      Met graph before other ∨ other = value := fun other => met_recorded_iff hvisit path
  refine ⟨h.marked, ?_, ?_, ?_⟩
  · intro other hother
    rw [List.mem_singleton.mp hother]
    exact h.keeps value ((hmet value).mpr (.inr rfl))
  · intro other hother
    exact h.keeps other ((hmet other).mpr (.inl hother))
  · intro other hother
    obtain hold | hclosed := h.closed other hother
    · obtain hold | rfl := (hmet other).mp hold
      · exact .inl hold
      · exact .inr fun part hpart => h.places part (hparts ▸ hpart)
    · exact .inr hclosed

theorem Walked.covering {before after : Walk} {places : List (Value × Path)}
    (h : Walked graph before places after) (hmarked : Marked graph before) :
    Covering graph before places after := by
  induction h with
  | nil walk => exact ⟨hmarked, nofun, fun _ => id, fun _ => .inl⟩
  | cons _ _ ihfirst ihrest =>
      -- The rest of the walk keeps the parts that the first place has met.
      have hfirst := ihfirst hmarked
      have hrest := ihrest hfirst.marked
      refine ⟨hrest.marked, ?_, fun value h => hrest.keeps value (hfirst.keeps value h), ?_⟩
      · intro value hvalue
        obtain rfl | hvalue := List.mem_cons.mp hvalue
        · exact hrest.keeps _ (hfirst.places _ List.mem_cons_self)
        · exact hrest.places value hvalue
      · intro value hvalue
        obtain hbetween | hclosed := hrest.closed value hvalue
        · obtain hbefore | hclosed := hfirst.closed value hbetween
          · exact .inl hbefore
          · exact .inr fun part hpart => hrest.keeps part (hclosed part hpart)
        · exact .inr hclosed
  | @seen walk id path hseen =>
      refine ⟨hmarked, fun value hvalue => ?_, fun _ hmet => hmet, fun _ => .inl⟩
      rw [List.mem_singleton.mp hvalue]
      exact hmarked id hseen
  | @node before _ id buildable path _ hnode _ ih =>
      -- The node is met before its arguments are, so a way back to it finds it met.
      have hvisit := ConfigGraph.visit?_node hnode
      refine .of_recorded hvisit ?_ (ih fun other hother => ?_)
      · rw [map_fst_entryPlaces, ConfigGraph.parts_node hnode]
        rfl
      · refine (met_recorded_iff hvisit path).mpr ?_
        obtain rfl | hother := List.mem_cons.mp hother
        · exact .inr rfl
        · exact .inl (hmarked other hother)
  | @value before _ value path hnode _ ih =>
      have hvisit : graph.visit? value = some (.value value) := ConfigGraph.visit?_value hnode
      refine .of_recorded hvisit ?_ (ih fun other hother => ?_)
      · rw [Value.map_fst_places, graph.parts_eq_children hnode]
      · exact (met_recorded_iff hvisit path).mpr (.inl (hmarked other hother))

end Walk

/-- A listing that succeeds holds everything that stands below its roots. -/
theorem ConfigGraph.iterateAll_covers {roots : List (Value × Path)}
    {entries : List (Visit × Path)} (h : graph.iterateAll roots = .ok entries) {root part : Value}
    (hroot : root ∈ roots.map Prod.fst) (hbelow : graph.Below root part) :
    ∃ visit, graph.visit? part = some visit ∧ visit ∈ entries.map Prod.fst := by
  obtain ⟨after, hwalked, rfl⟩ := Walk.walked_of_iterateAll h
  have hcovering := hwalked.covering (nofun : Walk.Marked graph .empty)
  have hmet : Walk.Met graph after part := by
    induction hbelow with
    | refl => exact hcovering.places root hroot
    | tail _ hpart ih =>
        obtain ⟨visit, -, hmem⟩ | hclosed := hcovering.closed _ ih
        · simp [Walk.empty] at hmem
        · exact hclosed _ hpart
  exact hmet

end ConfigLowering
