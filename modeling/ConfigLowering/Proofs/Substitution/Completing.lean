import ConfigLowering.Proofs.Graph.Completion
import ConfigLowering.Proofs.Substitution.Failing
import ConfigLowering.Proofs.Substitution.Soundness

/-!
# Completed nodes of a run

The results that a run keeps say which nodes it has completed, and in which order. It is the
completion order of the graph, although the run looks at each object only once. A failing run
stops in the middle of this order, at the first node that lacks an argument for its tags.
-/

namespace ConfigLowering

def ConfigGraph.Lacks (graph : ConfigGraph) (id : NodeId) : Prop :=
  ∃ buildable field, graph.get? id = some buildable ∧ buildable.Lacks field

namespace Substitution

def completedNodes (state : State) : List NodeId := (state.nodeResults.map Prod.fst).reverse

theorem lookup_eq_none_iff_completed (state : State) (id : NodeId) :
    state.nodeResults.lookup id = none ↔ id ∉ completedNodes state := by
  rw [List.lookup_eq_none_iff, completedNodes, List.mem_reverse, List.mem_map]
  simp only [bne_iff_ne, ne_eq, not_exists, not_and]
  exact forall₂_congr fun _ _ => not_congr eq_comm

/-- No completed node lacks an argument, and what the known objects refer to is complete. -/
structure Complete (graph : ConfigGraph) (holds : Value → Prop) (state : State) : Prop where
  set : ∀ id ∈ completedNodes state, ¬ graph.Lacks id
  codes : ∀ code result, state.codeResults.lookup code = some result →
    ∀ value, holds value → value.codeId? = some code → value.nodeReferences ⊆ completedNodes state

variable {graph : ConfigGraph} {baseModule : String} {history : Buildable → History}
  {holds : Value → Prop} {before after : State} {values results : List Value}
  {made : List Origin}

theorem complete_start (imports : ImportManager) (nextCode : CodeId) :
    Complete graph holds (.start imports nextCode) :=
  ⟨nofun, nofun⟩

/-! ## Successful runs -/

theorem Run.completes (hgraph : graph.WellFormed) (hheap : Heap graph holds)
    (h : Run graph baseModule history before values results made after)
    (hvalues : ∀ value ∈ values, holds value) (hbefore : Complete graph holds before) :
    Complete graph holds after ∧
      ∀ depth, (∀ value ∈ values, graph.Covers depth value) →
        completedNodes after =
          graph.completeAll depth (completedNodes before)
            (values.flatMap Value.nodeReferences) := by
  induction h with
  | nil state => exact ⟨hbefore, fun _ _ => rfl⟩
  | cons _ _ ihfirst ihrest =>
      obtain ⟨hvalue, hothers⟩ := List.forall_mem_cons.mp hvalues
      obtain ⟨hbetween, hfirst⟩ := ihfirst (List.forall_mem_singleton.mpr hvalue) hbefore
      obtain ⟨hafter, hrest⟩ := ihrest hothers hbetween
      refine ⟨hafter, fun depth hcovers => ?_⟩
      obtain ⟨hcover, hcovers⟩ := List.forall_mem_cons.mp hcovers
      rw [hrest depth hcovers, hfirst depth (List.forall_mem_singleton.mpr hcover)]
      simp
  | moved start finish _ ih =>
      obtain ⟨hafter, hfinished⟩ := ih hvalues ⟨hbefore.set, hbefore.codes⟩
      exact ⟨⟨hafter.set, hafter.codes⟩, hfinished⟩
  | symbol => exact ⟨⟨hbefore.set, hbefore.codes⟩, fun _ _ => rfl⟩
  | plain hnode _ _ _ ih =>
      have hheld := hheap.parts _ (List.forall_mem_singleton.mp hvalues)
      rw [graph.parts_eq_children hnode] at hheld
      obtain ⟨hafter, hfinished⟩ := ih hheld hbefore
      refine ⟨hafter, fun depth hcovers => ?_⟩
      rw [hfinished depth fun child hchild =>
        (List.forall_mem_singleton.mp hcovers).children hchild]
      simp [Value.nodeReferences_eq_flatMap hnode]
  | knownCode hcode hknown =>
      have hrefs := hbefore.codes _ _ hknown _ (List.forall_mem_singleton.mp hvalues) hcode
      refine ⟨hbefore, fun depth _ => ?_⟩
      rw [List.flatMap_singleton, ConfigGraph.completeAll_of_subset hrefs]
  | @code before last value id _ _ hcode _ _ ih =>
      have hnode := Value.asNode?_of_codeId? hcode
      have hvalue := List.forall_mem_singleton.mp hvalues
      have hheld := hheap.parts _ hvalue
      rw [graph.parts_eq_children hnode] at hheld
      obtain ⟨hafter, hfinished⟩ := ih hheld hbefore
      have hrefs : value.nodeReferences ⊆ completedNodes last := by
        rw [hfinished (graph.nodeCount + 1) fun _ _ id _ => hgraph.rank_le id,
          Value.nodeReferences_eq_flatMap hnode]
        exact ConfigGraph.subset_completeAll _ _ _
      refine ⟨⟨hafter.set, fun other found hfound same hsame hother => ?_⟩,
        fun depth hcovers => ?_⟩
      · rw [Arguments.lookup_cons_ite] at hfound
        split at hfound
        · next heq => exact hheap.coherent same value id hsame hvalue (heq ▸ hother) hcode ▸ hrefs
        · exact hafter.codes other found hfound same hsame hother
      · have hchildren := hfinished depth fun child hchild =>
          (List.forall_mem_singleton.mp hcovers).children hchild
        rw [← Value.nodeReferences_eq_flatMap hnode] at hchildren
        rw [List.flatMap_singleton]
        exact hchildren
  | @knownNode before id result hknown =>
      refine ⟨hbefore, fun depth _ => ?_⟩
      have hmem : id ∈ completedNodes before := by
        by_contra hmem
        rw [(lookup_eq_none_iff_completed before id).mpr hmem] at hknown
        contradiction
      simp [Value.nodeReferences, ConfigGraph.complete_of_mem hmem]
  | @node before between last id buildable _ _ _ _ results result _ hnew hnode _ _ hrun hfinish
      ih =>
      have hheld := hheap.parts _ (List.forall_mem_singleton.mp hvalues)
      rw [ConfigGraph.parts_node hnode] at hheld
      obtain ⟨hbetween, hfinished⟩ := ih hheld ⟨hbefore.set, hbefore.codes⟩
      have hstate := (hrun.finished hgraph hnode hfinish).state
      have hlast : completedNodes last = completedNodes between := by rw [hstate]; rfl
      have hsame : ∀ code, last.codeResults.lookup code = between.codeResults.lookup code := by
        rw [hstate]
        exact fun _ => rfl
      have hkeep : completedNodes { last with nodeResults := (id, result) :: last.nodeResults } =
          completedNodes between ++ [id] := by
        rw [← hlast]
        simp [completedNodes]
      have hnames := Arguments.names_zip hrun.length_eq
      refine ⟨⟨?_, ?_⟩, fun depth hcovers => ?_⟩
      · rw [hkeep]
        intro other hother
        obtain hother | hother := List.mem_append.mp hother
        · exact hbetween.set other hother
        · rw [List.mem_singleton.mp hother]
          rintro ⟨found, field, hfound, hlacks⟩
          rw [hnode] at hfound
          obtain rfl := Option.some.inj hfound
          exact not_lacks_of_finishNode (hgraph.nodes id _ hnode) hnames hfinish field hlacks
      · rw [hkeep]
        intro code found hfound value hvalue hcode
        exact List.subset_append_of_subset_left _
          (hbetween.codes code found (hsame code ▸ hfound) value hvalue hcode)
      · have hrank := List.forall_mem_singleton.mp hcovers id (by simp [Value.nodeReferences])
        have hpos := graph.rank_pos id
        cases depth with
        | zero => omega
        | succ depth =>
            have harguments := hfinished depth fun argument hargument =>
              hgraph.covers_argument hrank (ConfigGraph.parts_node hnode ▸ hargument)
            have hid := (lookup_eq_none_iff_completed before id).mp hnew
            rw [hkeep, harguments, List.flatMap_singleton, Value.nodeReferences,
              ConfigGraph.completeAll_cons, ConfigGraph.completeAll_nil,
              ConfigGraph.complete_of_not_mem hid, ConfigGraph.nodeReferences,
              ConfigGraph.parts_node hnode]
            rfl

/-! ## Failing runs -/

theorem FailsAt.leads {places : List (Value × Path)} {id : NodeId} {path : Path}
    (h : FailsAt graph baseModule history before places id path) :
    ∃ place ∈ places, graph.Leads place (.node id, path) := by
  induction h with
  | first _ ih =>
      obtain ⟨place, hplace, hleads⟩ := ih
      exact ⟨place, List.mem_append_left _ hplace, hleads⟩
  | later _ _ ih =>
      obtain ⟨place, hplace, hleads⟩ := ih
      exact ⟨place, List.mem_append_right _ hplace, hleads⟩
  | moved _ _ ih => exact ih
  | children hnode _ _ ih =>
      obtain ⟨place, hplace, hleads⟩ := ih
      rw [← graph.places_value hnode] at hplace
      exact ⟨_, List.mem_singleton_self _, .head hplace hleads⟩
  | arguments _ hnode _ ih =>
      obtain ⟨place, hplace, hleads⟩ := ih
      rw [← ConfigGraph.places_node hnode] at hplace
      exact ⟨_, List.mem_singleton_self _, .head hplace hleads⟩
  | node => exact ⟨_, List.mem_singleton_self _, .refl⟩

/-- The node comes in the completion order behind nodes that lack nothing. -/
def ReachedFirst (graph : ConfigGraph) (order : List NodeId) (id : NodeId) : Prop :=
  ∃ earlier later, order = earlier ++ id :: later ∧ ∀ other ∈ earlier, ¬ graph.Lacks other

theorem ReachedFirst.mono {order longer : List NodeId} {id : NodeId}
    (h : ReachedFirst graph order id) (hlonger : order <+: longer) :
    ReachedFirst graph longer id := by
  obtain ⟨earlier, later, rfl, hearlier⟩ := h
  obtain ⟨more, rfl⟩ := hlonger
  exact ⟨earlier, later ++ more, by simp, hearlier⟩

theorem FailsAt.reachedFirst (hgraph : graph.WellFormed) (hheap : Heap graph holds)
    {places : List (Value × Path)} {id : NodeId} {path : Path}
    (h : FailsAt graph baseModule history before places id path)
    (hplaces : ∀ value ∈ places.map Prod.fst, holds value) (hbefore : Complete graph holds before)
    (depth : Nat) (hcovers : ∀ value ∈ places.map Prod.fst, graph.Covers depth value) :
    ReachedFirst graph (graph.completeAll depth (completedNodes before)
      ((places.map Prod.fst).flatMap Value.nodeReferences)) id := by
  induction h generalizing depth with
  | first _ ih =>
      rw [List.map_append] at hplaces hcovers
      obtain ⟨hplaces, -⟩ := List.forall_mem_append.mp hplaces
      obtain ⟨hcovers, -⟩ := List.forall_mem_append.mp hcovers
      rw [List.map_append, List.flatMap_append, ConfigGraph.completeAll_append]
      exact (ih hplaces hbefore depth hcovers).mono (ConfigGraph.prefix_completeAll _ _ _)
  | later hrun _ ih =>
      rw [List.map_append] at hplaces hcovers
      obtain ⟨hplaces, hmore⟩ := List.forall_mem_append.mp hplaces
      obtain ⟨hcovers, hcovers'⟩ := List.forall_mem_append.mp hcovers
      obtain ⟨hbetween, hfinished⟩ := hrun.completes hgraph hheap hplaces hbefore
      rw [List.map_append, List.flatMap_append, ConfigGraph.completeAll_append,
        ← hfinished depth hcovers]
      exact ih hmore hbetween depth hcovers'
  | moved _ _ ih => exact ih hplaces ⟨hbefore.set, hbefore.codes⟩ depth hcovers
  | @children before value base path id hnode _ _ ih =>
      have hheld := hheap.parts _ (hplaces value (List.mem_singleton_self _))
      rw [graph.parts_eq_children hnode] at hheld
      have hcover := hcovers value (List.mem_singleton_self _)
      rw [Value.map_fst_places, ← Value.nodeReferences_eq_flatMap hnode] at ih
      simpa using ih hheld hbefore depth fun child hchild => hcover.children hchild
  | @arguments before parent id buildable base path hnew hnode _ ih =>
      have hheld := hheap.parts _ (hplaces (.node parent) (List.mem_singleton_self _))
      have hrank := hcovers (.node parent) (List.mem_singleton_self _) parent
        (by simp [Value.nodeReferences])
      have hpos := graph.rank_pos parent
      cases depth with
      | zero => omega
      | succ depth =>
          have hparts : (entryPlaces base .field buildable.arguments.entries).map Prod.fst =
              graph.parts (.node parent) := by
            rw [map_fst_entryPlaces, ConfigGraph.parts_node hnode]
            rfl
          rw [hparts] at ih
          have hreached := ih hheld hbefore depth fun argument hargument =>
            hgraph.covers_argument hrank hargument
          have hid := (lookup_eq_none_iff_completed before parent).mp hnew
          simp only [List.map_cons, List.map_nil, List.flatMap_singleton, Value.nodeReferences,
            ConfigGraph.completeAll_cons, ConfigGraph.completeAll_nil,
            ConfigGraph.complete_of_not_mem hid]
          exact hreached.mono (List.prefix_append _ _)
  | @node before between id buildable _ _ _ hnew hnode hrun =>
      have hheld := hheap.parts _ (hplaces (.node id) (List.mem_singleton_self _))
      have hrank := hcovers (.node id) (List.mem_singleton_self _) id
        (by simp [Value.nodeReferences])
      have hpos := graph.rank_pos id
      rw [ConfigGraph.parts_node hnode] at hheld
      obtain ⟨hbetween, hfinished⟩ := hrun.completes hgraph hheap hheld hbefore
      cases depth with
      | zero => omega
      | succ depth =>
          have harguments := hfinished depth fun argument hargument =>
            hgraph.covers_argument hrank (ConfigGraph.parts_node hnode ▸ hargument)
          rw [← ConfigGraph.parts_node hnode] at harguments
          have hid := (lookup_eq_none_iff_completed before id).mp hnew
          refine ⟨completedNodes between, [], ?_, hbetween.set⟩
          simp only [List.map_cons, List.map_nil, List.flatMap_singleton, Value.nodeReferences,
            ConfigGraph.completeAll_cons, ConfigGraph.completeAll_nil,
            ConfigGraph.complete_of_not_mem hid, ConfigGraph.nodeReferences, harguments]

end Substitution

end ConfigLowering
