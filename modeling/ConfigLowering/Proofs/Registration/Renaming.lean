import ConfigLowering.Proofs.Fixture.Mapping
import ConfigLowering.Proofs.Walk.Renaming
import ConfigLowering.Registration

/-!
# Registration with other numbers

Registration looks at what a walk lists and never at the numbers in it.
-/

namespace ConfigLowering

namespace Registration

variable {graph other : ConfigGraph} {change : NodeId → NodeId}

theorem registerVisit_rename (baseModule : String) (summary : ImportSummary) (visit : Visit) :
    registerVisit baseModule summary (visit.rename change) =
      registerVisit baseModule summary visit := by
  cases visit with
  | node id buildable => rfl
  | value value => cases value <;> rfl

theorem registerFixture_rename (hgraph : graph.WellFormed) (hrenames : graph.Renames other change)
    (baseModule : String) (summary : ImportSummary) {fixture : Fixture}
    (hknown : ∀ value ∈ fixture.values, ∀ id ∈ value.nodeReferences, graph.contains id) :
    registerFixture other baseModule summary (fixture.map (Value.rename change)) =
      registerFixture graph baseModule summary fixture := by
  have hslots : ∀ slot ∈ fixture.bodySlots, ∀ id ∈ slot.1.nodeReferences, graph.contains id :=
    fun slot hslot => hknown slot.1 (List.mem_map_of_mem hslot)
  obtain ⟨entries, hentries, hother⟩ := graph.iterateAll_rename hgraph hrenames hslots
  rw [← Fixture.bodySlots_map] at hother
  rw [registerFixture, registerFixture, hentries, hother]
  simp only [List.foldlM_map, registerVisit_rename]

theorem registerFixtures_rename (hgraph : graph.WellFormed)
    (hrenames : graph.Renames other change) (baseModule : String) {fixtures : List Fixture}
    (hknown : ∀ fixture ∈ fixtures, ∀ value ∈ fixture.values,
      ∀ id ∈ value.nodeReferences, graph.contains id) :
    registerFixtures other baseModule (fixtures.map (Fixture.map (Value.rename change))) =
      registerFixtures graph baseModule fixtures := by
  have hfold : ∀ summary, (fixtures.map (Fixture.map (Value.rename change))).foldlM
      (registerFixture other baseModule) summary =
        fixtures.foldlM (registerFixture graph baseModule) summary := by
    induction fixtures with
    | nil => simp
    | cons fixture fixtures ih =>
        obtain ⟨hfixture, hothers⟩ := List.forall_mem_cons.mp hknown
        intro summary
        rw [List.map_cons, List.foldlM_cons, List.foldlM_cons,
          registerFixture_rename hgraph hrenames baseModule summary hfixture]
        exact bind_congr (ih hothers)
  rw [registerFixtures, registerFixtures, hfold]

end Registration

end ConfigLowering
