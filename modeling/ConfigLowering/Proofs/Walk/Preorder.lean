import Mathlib.Data.List.Forall2
import ConfigLowering.Proofs.Walk.Reachability
import ConfigLowering.Proofs.Walk.Unknown

/-!
# Walks are pre-order listings

A walk lists what its roots unfold into, in the order of the addresses, and leaves out each
occurrence of a node after the first one with everything below it.
-/

namespace ConfigLowering

variable {graph : ConfigGraph} {seen : List NodeId}

namespace ConfigGraph

/-- The entry shows what the address leads to. Its path is that of the root, continued by the
steps from the root. -/
def ListedAt (graph : ConfigGraph) (roots : List (Value × Path)) (address : List Nat)
    (entry : Visit × Path) : Prop :=
  ∃ index inner, address = index :: inner ∧
    ∃ root base, roots[index]? = some (root, base) ∧
      ∃ value path, graph.placeBelow? (root, .root) inner = some (value, path) ∧
        graph.visit? value = some entry.1 ∧ entry.2 = base.under path

/-- The entries are those at the kept addresses, in the order of the addresses. -/
def Enumerates (graph : ConfigGraph) (seen : List NodeId) (roots : List (Value × Path))
    (entries : List (Visit × Path)) : Prop :=
  ∃ addresses : List (List Nat), addresses.Pairwise (· < ·) ∧
    (∀ address, address ∈ addresses ↔ graph.Kept seen roots address) ∧
    List.Forall₂ (graph.ListedAt roots) addresses entries

theorem listedAt_iff (roots : List (Value × Path)) (address : List Nat) (entry : Visit × Path) :
    graph.ListedAt roots address entry ↔
      ∃ value, graph.placeAt? roots address = some (value, entry.2) ∧
        graph.visit? value = some entry.1 := by
  constructor
  · rintro ⟨index, inner, rfl, root, base, hroot, value, path, hplace, hvisit, hpath⟩
    refine ⟨value, ?_, hvisit⟩
    rw [placeAt?, hroot, Option.bind_some, placeBelow?_base, hplace, hpath]
    rfl
  · rintro ⟨value, hplace, hvisit⟩
    cases address with
    | nil => contradiction
    | cons index inner =>
        obtain ⟨⟨root, base⟩, hroot, hbelow⟩ := Option.bind_eq_some_iff.mp hplace
        rw [placeBelow?_base] at hbelow
        obtain ⟨⟨_, path⟩, hinner, hsame⟩ := Option.map_eq_some_iff.mp hbelow
        obtain ⟨rfl, hpath⟩ := Prod.mk.inj hsame
        exact ⟨index, inner, rfl, root, base, hroot, _, path, hinner, hvisit, hpath.symm⟩

variable {place : Value × Path} {places : List (Value × Path)} {entries : List (Visit × Path)}

theorem ListedAt.zero {address : List Nat} {entry : Visit × Path}
    (h : graph.ListedAt [place] address entry) (places : List (Value × Path)) :
    graph.ListedAt (place :: places) address entry := by
  rw [listedAt_iff] at h ⊢
  obtain ⟨value, hplace, hvisit⟩ := h
  exact ⟨value, placeAt?_of_singleton hplace places, hvisit⟩

theorem ListedAt.succ {address : List Nat} {entry : Visit × Path}
    (h : graph.ListedAt places address entry) :
    graph.ListedAt (place :: places) (address.modifyHead (· + 1)) entry := by
  rw [listedAt_iff] at h ⊢
  cases address with
  | nil => exact absurd h nofun
  | cons index inner => exact h

theorem ListedAt.above {address : List Nat} {entry : Visit × Path}
    (h : graph.ListedAt (graph.places place) address entry) :
    graph.ListedAt [place] (0 :: address) entry := by
  rw [listedAt_iff] at h ⊢
  cases address with
  | nil => exact absurd h nofun
  | cons index inner => exact h

/-! ## Listings of kept addresses -/

theorem enumerates_nil : graph.Enumerates seen [] [] :=
  ⟨[], .nil, fun address => by simp [not_kept_of_nil], .nil⟩

theorem enumerates_of_seen {id : NodeId} (h : id ∈ seen) (path : Path) :
    graph.Enumerates seen [(.node id, path)] [] := by
  refine ⟨[], .nil, fun address => ?_, .nil⟩
  match address with
  | [] => simp [not_kept_nil]
  | 0 :: inner => simp [kept_zero_iff, Value.asNode?, h]
  | (index + 1) :: inner => simp [Kept, placeAt?]

theorem Enumerates.above {value : Value} {path : Path} {visit : Visit}
    (hvisit : graph.visit? value = some visit) (hnew : ∀ id, value.asNode? = some id → id ∉ seen)
    (h : graph.Enumerates (value.asNode?.toList ++ seen) (graph.places (value, path)) entries) :
    graph.Enumerates seen [(value, path)] ((visit, path) :: entries) := by
  obtain ⟨addresses, hordered, hkept, hlisted⟩ := h
  refine ⟨[0] :: addresses.map (0 :: ·), ?_, fun address => ?_, .cons ?_ ?_⟩
  · rw [List.pairwise_cons, List.pairwise_map]
    refine ⟨fun address haddress => ?_, hordered.imp fun hless => ?_⟩
    · obtain ⟨inner, hinner, rfl⟩ := List.mem_map.mp haddress
      obtain ⟨index, rest, rfl⟩ := ((hkept inner).mp hinner).exists_cons
      exact List.cons_lt_cons_iff.mpr (.inr ⟨rfl, List.nil_lt_cons _ _⟩)
    · exact List.cons_lt_cons_iff.mpr (.inr ⟨rfl, hless⟩)
  · match address with
    | [] => simp [not_kept_nil]
    | 0 :: inner => simpa [kept_zero_iff, hkept] using fun _ => hnew
    | (index + 1) :: inner => simp [Kept, placeAt?]
  · exact (listedAt_iff _ _ _).mpr ⟨value, rfl, hvisit⟩
  · rw [List.forall₂_map_left_iff]
    exact hlisted.imp fun _ _ hentry => hentry.above

theorem Enumerates.cons {after : List NodeId} {rest : List (Visit × Path)}
    (hafter : ∀ id, id ∈ after ↔ id ∈ seen ∨ graph.Below place.1 (.node id))
    (h : graph.Enumerates seen [place] entries) (hrest : graph.Enumerates after places rest) :
    graph.Enumerates seen (place :: places) (entries ++ rest) := by
  obtain ⟨first, hordered, hkept, hlisted⟩ := h
  obtain ⟨others, hothers, hkeptOthers, hlistedOthers⟩ := hrest
  have hshifted : ∀ address ∈ others.map (List.modifyHead (· + 1)),
      ∃ index inner, address = (index + 1) :: inner := by
    intro address haddress
    obtain ⟨later, hlater, rfl⟩ := List.mem_map.mp haddress
    obtain ⟨index, inner, rfl⟩ := ((hkeptOthers later).mp hlater).exists_cons
    exact ⟨index, inner, rfl⟩
  refine ⟨first ++ others.map (List.modifyHead (· + 1)), ?_, fun address => ?_, ?_⟩
  · rw [List.pairwise_append, List.pairwise_map]
    refine ⟨hordered, hothers.imp modifyHead_succ_lt, fun address haddress other hother => ?_⟩
    obtain ⟨earlier, rfl⟩ := ((hkept address).mp haddress).exists_zero
    obtain ⟨index, inner, rfl⟩ := hshifted other hother
    exact List.cons_lt_cons_iff.mpr (.inl index.succ_pos)
  · rw [List.mem_append, hkept]
    match address with
    | [] =>
        have hnil : [] ∉ others.map (List.modifyHead (· + 1)) := fun hmem => by
          obtain ⟨_, _, hcons⟩ := hshifted [] hmem
          contradiction
        simp only [not_kept_nil, hnil, or_self]
    | 0 :: inner =>
        rw [kept_zero_iff, kept_zero_iff]
        refine or_iff_left fun hmem => ?_
        obtain ⟨index, _, hsucc⟩ := hshifted _ hmem
        exact absurd (List.cons.inj hsucc).1 index.succ_ne_zero.symm
    | (index + 1) :: inner =>
        rw [succ_mem_map_modifyHead_iff, hkeptOthers, ← kept_succ_iff hafter]
        refine or_iff_right fun hfirst => ?_
        obtain ⟨_, hzero⟩ := hfirst.exists_zero
        exact absurd (List.cons.inj hzero).1 index.succ_ne_zero
  · refine List.rel_append (hlisted.imp fun _ _ hentry => hentry.zero places) ?_
    rw [List.forall₂_map_left_iff]
    exact hlistedOthers.imp fun _ _ hentry => hentry.succ

end ConfigGraph

/-! ## Walks -/

namespace Walk

open ConfigGraph

/-- No node that was seen and stands below one of the places has anything below it unseen. -/
def Clear (graph : ConfigGraph) (seen : List NodeId) (places : List (Value × Path)) : Prop :=
  ∀ id ∈ seen, ∀ place ∈ places, graph.Below place.1 (.node id) → graph.nodeReferences id ⊆ seen

variable {before between after : Walk} {place : Value × Path} {places : List (Value × Path)}

theorem exists_reached_iff (values : List Value) (id : NodeId) :
    (∃ start ∈ values.flatMap Value.nodeReferences,
      Relation.ReflTransGen (fun parent child => child ∈ graph.nodeReferences parent) start id) ↔
      ∃ value ∈ values, graph.Below value (.node id) := by
  have hrefers : (fun parent child => child ∈ graph.nodeReferences parent) = graph.Refers := by
    funext parent child
    exact propext (graph.mem_nodeReferences_iff parent child)
  rw [hrefers]
  constructor
  · rintro ⟨start, hstart, hpath⟩
    obtain ⟨value, hvalue, hstart⟩ := List.mem_flatMap.mp hstart
    exact ⟨value, hvalue, below_of_reached hstart hpath⟩
  · rintro ⟨value, hvalue, hbelow⟩
    obtain ⟨start, hstart, hpath⟩ := reached_of_below hbelow
    exact ⟨start, List.mem_flatMap.mpr ⟨value, hvalue, hstart⟩, hpath⟩

theorem Walked.mem_seen_iff (h : Walked graph before places after)
    (hclear : Clear graph before.seen places) (id : NodeId) :
    id ∈ after.seen ↔ id ∈ before.seen ∨ ∃ place ∈ places, graph.Below place.1 (.node id) := by
  have hreached := fun other => @exists_reached_iff graph (places.map Prod.fst) other
  have hmem := h.explores.mem_iff_of_clear (fun other hother hpath => ?_) id
  · rw [hreached, List.mem_reverse, List.mem_reverse] at hmem
    simpa using hmem
  · obtain ⟨value, hvalue, hbelow⟩ := (hreached other).mp hpath
    obtain ⟨place, hplace, rfl⟩ := List.mem_map.mp hvalue
    intro child hchild
    rw [List.mem_reverse] at hother ⊢
    exact hclear other hother place hplace hbelow hchild

theorem Clear.rest (hclear : Clear graph before.seen (place :: places))
    (h : Walked graph before [place] between) : Clear graph between.seen places := by
  intro id hid other hother hbelow
  have hsubset : before.seen ⊆ between.seen := by
    simpa using h.explores.subset
  obtain hid | hclosed := h.explores.closes id (List.mem_reverse.mpr hid)
  · have hseen := hclear id (List.mem_reverse.mp hid) other (List.mem_cons_of_mem _ hother) hbelow
    exact List.Subset.trans hseen hsubset
  · simpa using hclosed

theorem Clear.below (hgraph : graph.WellFormed) {seen : List NodeId}
    (hclear : Clear graph seen [place]) :
    Clear graph (place.1.asNode?.toList ++ seen) (graph.places place) := by
  intro id hid next hnext hbelow
  have hpart : next.1 ∈ graph.parts place.1 := by
    rw [← graph.map_fst_places]
    exact List.mem_map_of_mem hnext
  obtain hnode | hseen := List.mem_append.mp hid
  · obtain ⟨value, path⟩ := place
    cases value <;> simp only [Value.asNode?, Option.toList, List.not_mem_nil] at hnode
    obtain rfl := List.mem_singleton.mp hnode
    -- The new node is not below its own arguments.
    exact absurd hbelow (hgraph.not_below_part hpart)
  · have hfirst := hclear id hseen place List.mem_cons_self (.head hpart hbelow)
    exact List.Subset.trans hfirst (List.subset_append_right _ _)

theorem Walked.enumerates (hgraph : graph.WellFormed) (h : Walked graph before places after)
    (hclear : Clear graph before.seen places) :
    ∃ entries, after.entries.toList = before.entries.toList ++ entries ∧
      graph.Enumerates before.seen places entries := by
  induction h with
  | nil walk => exact ⟨[], (List.append_nil _).symm, enumerates_nil⟩
  | @cons before between after place places hfirst hrest ihfirst ihrest =>
      have hone : Clear graph before.seen [place] := fun id hid other hother =>
        hclear id hid other (by simp [List.mem_singleton.mp hother])
      obtain ⟨entries, hentries, hlisted⟩ := ihfirst hone
      obtain ⟨more, hmore, hlistedMore⟩ := ihrest (hclear.rest hfirst)
      refine ⟨entries ++ more, ?_, hlisted.cons (fun id => ?_) hlistedMore⟩
      · rw [hmore, hentries, List.append_assoc]
      · rw [hfirst.mem_seen_iff hone]
        simp
  | seen path hseen => exact ⟨[], (List.append_nil _).symm, enumerates_of_seen hseen path⟩
  | @node before after id buildable path hnew hnode _ ih =>
      have hbelow := Clear.below hgraph hclear
      have hplaces := places_node hnode path
      rw [hplaces] at hbelow
      obtain ⟨entries, hentries, hlisted⟩ := ih hbelow
      refine ⟨(.node id buildable, path) :: entries, by simpa [recorded] using hentries, ?_⟩
      refine .above (visit?_node hnode) (fun other hother => Option.some.inj hother ▸ hnew) ?_
      rw [hplaces]
      exact hlisted
  | @value before after value path hnode _ ih =>
      have hbelow := Clear.below hgraph hclear
      have hplaces := @places_value graph value hnode path
      rw [hplaces, hnode] at hbelow
      obtain ⟨entries, hentries, hlisted⟩ := ih hbelow
      refine ⟨(.value value, path) :: entries, by simpa [recorded] using hentries, ?_⟩
      refine .above (visit?_value hnode) (by simp [hnode]) ?_
      rw [hplaces, hnode]
      exact hlisted

end Walk

namespace ConfigGraph

variable {roots : List (Value × Path)} {entries : List (Visit × Path)}

theorem enumerates_of_iterateAll (hgraph : graph.WellFormed)
    (h : graph.iterateAll roots = .ok entries) : graph.Enumerates [] roots entries := by
  obtain ⟨after, hwalked, rfl⟩ := Walk.walked_of_iterateAll h
  obtain ⟨listed, hlisted, henumerates⟩ := hwalked.enumerates hgraph nofun
  rw [hlisted]
  exact henumerates

/-- A listing of roots succeeds if and only if their references are known, and otherwise it
fails with the unknown node that comes first in the unfolding of the roots. One that succeeds
shows everything in this unfolding in pre-order, with the path that leads to it, but leaves out
each occurrence of a node after the first and everything below it. -/
theorem iterateAll_exact (h : graph.Built) (roots : List (Value × Path)) :
    (∀ parent child, graph.Refers parent child → graph.contains child) ∧
      ((∃ entries, graph.iterateAll roots = .ok entries) ↔
        ∀ root ∈ roots, ∀ id ∈ root.1.nodeReferences, graph.contains id) ∧
      (∀ error, graph.iterateAll roots = .error error ↔
        ∃ address id, graph.FirstUnknown roots address id ∧ error = .unknownNode id) ∧
      ∀ entries, graph.iterateAll roots = .ok entries →
        (∃ addresses : List (List Nat), addresses.Pairwise (· < ·) ∧
          (∀ address, address ∈ addresses ↔ graph.Kept [] roots address) ∧
          List.Forall₂ (graph.ListedAt roots) addresses entries) ∧
        (listedNodes entries).Nodup ∧
        ∀ id, id ∈ listedNodes entries ↔ ∃ root ∈ roots, graph.Below root.1 (.node id) := by
  have hwell := h.wellFormed
  refine ⟨hwell.known, ?_, iterateAll_eq_error_iff hwell roots, fun entries hentries => ?_⟩
  · rw [exists_iterateAll_iff hwell]
    simp
  · refine ⟨enumerates_of_iterateAll hwell hentries, nodup_listedNodes hentries, fun id => ?_⟩
    rw [mem_listedNodes_iff hentries]
    simp

/-- The inner node of the chain is left out where the other node refers to it. -/
theorem iterateAll_pairOverChain :
    pairOverChain.Built ∧
      (∃ entries addresses, pairOverChain.iterateAll [(.node ⟨2⟩, .root)] = .ok entries ∧
        List.Forall₂ (pairOverChain.ListedAt [(.node ⟨2⟩, .root)]) addresses entries ∧
        [0, 0] ∈ addresses ∧ [0, 1, 0] ∉ addresses) ∧
      pairOverChain.iterateAll [(.list [.node ⟨0⟩, .node ⟨7⟩, .node ⟨9⟩], .root)] =
        .error (.unknownNode ⟨7⟩) := by
  have hbuilt := builtOnce_pairOverChain.built
  obtain ⟨-, hok, -, hlisted⟩ := iterateAll_exact hbuilt [(.node ⟨2⟩, .root)]
  obtain ⟨-, -, herror, -⟩ := iterateAll_exact hbuilt
    [(.list [.node ⟨0⟩, .node ⟨7⟩, .node ⟨9⟩], .root)]
  obtain ⟨entries, hentries⟩ := hok.mpr (by decide)
  obtain ⟨⟨addresses, -, hkept, hshown⟩, -, -⟩ := hlisted entries hentries
  refine ⟨hbuilt, ⟨entries, addresses, hentries, hshown, ?_, ?_⟩, ?_⟩
  · rw [hkept, kept_zero_iff]
    refine ⟨fun _ _ => List.not_mem_nil, .inr ?_⟩
    exact (kept_zero_iff []).mpr ⟨fun id hid => by obtain rfl := Option.some.inj hid; decide,
      .inl rfl⟩
  · rw [hkept]
    rintro ⟨-, hnew⟩
    exact (hnew [0, 1, 0] List.prefix_rfl ⟨0⟩ rfl).2 [0, 0] (by decide) rfl
  · obtain ⟨address, hfirst⟩ := @exists_firstUnknown pairOverChain hbuilt.wellFormed
      [(.list [.node ⟨0⟩, .node ⟨7⟩, .node ⟨9⟩], .root)] ⟨7⟩ rfl
    exact (herror _).mpr ⟨address, ⟨7⟩, hfirst, rfl⟩

example : (pairOverChain.iterateAll [(.node ⟨2⟩, ⟨[.key "root"]⟩)]).map
      (·.map fun entry => (entry.1.nodeId?, entry.2)) =
    .ok [(some ⟨2⟩, ⟨[.key "root"]⟩), (some ⟨0⟩, ⟨[.key "root", .field "left"]⟩),
      (some ⟨1⟩, ⟨[.key "root", .field "right"]⟩)] := rfl

end ConfigGraph

end ConfigLowering
