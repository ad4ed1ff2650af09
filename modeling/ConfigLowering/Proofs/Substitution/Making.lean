import ConfigLowering.Proofs.Graph.Parts
import ConfigLowering.Proofs.Substitution.Tagging

/-!
# Objects that a run makes

A run makes an object for an origin once: it belongs to a part of the values that was
not known before, it is known afterwards, and what is known stays known. For a node or
an object that is being made this needs that nothing is a part of itself.
-/

namespace ConfigLowering

/-! ## Origins and parts -/

/-- The value that an origin belongs to. -/
def Origin.Of : Origin → Value → Prop
  | .node id, value | .wrapper id _, value => value = .node id
  | .code id, value => value.codeId? = some id

variable {graph : ConfigGraph} {holds : Value → Prop}

theorem Heap.unique (h : Heap graph holds) {first second : Value} {origin : Origin}
    (hfirst : holds first) (hsecond : holds second) (hof : origin.Of first)
    (hof' : origin.Of second) : first = second := by
  cases origin with
  | node id => exact hof.trans hof'.symm
  | wrapper id field => exact hof.trans hof'.symm
  | code id => exact h.coherent first second id hfirst hsecond hof hof'

theorem Value.asNode?_of_codeId? {value : Value} {id : CodeId}
    (h : value.codeId? = some id) : value.asNode? = Option.none := by
  cases value <;> simp_all [codeId?, asNode?]

theorem of_madeFor {id : NodeId} {buildable : Buildable} {origin : Origin}
    (h : origin ∈ Substitution.madeFor id buildable) : origin.Of (.node id) := by
  obtain h | h := List.mem_append.mp h
  · obtain ⟨entry, -, rfl⟩ := List.mem_map.mp h
    rfl
  · rw [List.mem_singleton.mp h]
    rfl

namespace Substitution

/-! ## Known origins -/

/-- The state keeps a result for what the origin belongs to. -/
def Known (state : State) : Origin → Prop
  | .node id | .wrapper id _ => (state.nodeResults.lookup id).isSome
  | .code id => (state.codeResults.lookup id).isSome

theorem known_context (state : State) (imports : ImportManager) (origin : Origin) :
    Known { state with context := imports } origin ↔ Known state origin := by
  cases origin <;> rfl

theorem known_path (state : State) (path : Path) (origin : Origin) :
    Known { state with path := path } origin ↔ Known state origin := by
  cases origin <;> rfl

theorem known_code (state : State) (id : CodeId) (result : Value) (next : CodeId)
    (origin : Origin) :
    Known { state with
      nextCode := next
      codeResults := (id, result) :: state.codeResults } origin ↔
      origin = .code id ∨ Known state origin := by
  cases origin with
  | node other => simp [Known]
  | wrapper other field => simp [Known]
  | code other =>
      by_cases h : other = id <;> simp [Known, Arguments.lookup_cons_ite, h]

theorem known_node (state : State) (id : NodeId) (result : Value) (origin : Origin) :
    Known { state with nodeResults := (id, result) :: state.nodeResults } origin ↔
      origin.Of (.node id) ∨ Known state origin := by
  cases origin with
  | node other =>
      by_cases h : other = id
      · simp [Known, Origin.Of, h]
      · simp [Known, Origin.Of, Arguments.lookup_cons_ite, h, Ne.symm h]
  | wrapper other field =>
      by_cases h : other = id
      · simp [Known, Origin.Of, h]
      · simp [Known, Origin.Of, Arguments.lookup_cons_ite, h, Ne.symm h]
  | code other => simp [Known, Origin.Of, Value.codeId?]

variable {baseModule : String} {history : Buildable → History} {before after : State}
  {values results : List Value} {made : List Origin}

/-! ## Finished nodes -/

theorem Run.finished (hgraph : graph.WellFormed) {id : NodeId} {buildable : Buildable}
    {callee : String} {between : State} {result : Value}
    (hnode : graph.get? id = some buildable)
    (hrun : Run graph baseModule history before buildable.arguments.values results made between)
    (h : (finishNode history buildable callee
      ⟨buildable.arguments.names.zip results⟩).Yields between result after) :
    Finished history id buildable callee (buildable.arguments.names.zip results) between result
      after := by
  have hwell := hgraph.nodes id buildable hnode
  have hnames := Arguments.names_zip hrun.length_eq
  refine finished_of_finishNode hwell ?_ id h
  exact hnames.symm ▸ hwell.names_nodup

/-! ## Names and identities -/

theorem Run.advances (hgraph : graph.WellFormed)
    (h : Run graph baseModule history before values results made after) :
    before.context.Grows after.context ∧
      after.nextCode.index = before.nextCode.index + made.length := by
  induction h with
  | nil state => exact ⟨.refl _, rfl⟩
  | cons _ _ ihfirst ihrest =>
      refine ⟨ihfirst.1.trans ihrest.1, ?_⟩
      rw [ihrest.2, ihfirst.2, List.length_append, Nat.add_assoc]
  | moved start finish _ ih => exact ih
  | symbol hrole hadd => exact ⟨(ImportManager.grows_add hadd).1, rfl⟩
  | plain _ _ _ _ ih => exact ih
  | knownCode => exact ⟨.refl _, rfl⟩
  | code _ _ _ ih =>
      refine ⟨ih.1, ?_⟩
      simp only [ih.2, List.length_append, List.length_singleton, Nat.add_assoc]
  | knownNode => exact ⟨.refl _, rfl⟩
  | node hnew hnode hcallee hcallable hrun hfinish ih =>
      have hfinished := hrun.finished hgraph hnode hfinish
      have hstart := (ImportManager.grows_add hcallee).1.trans
        (ImportManager.grows_add hcallable).1
      refine ⟨hstart.trans (ih.1.trans hfinished.grows), ?_⟩
      have hnext := congrArg (fun state => state.nextCode.index) hfinished.state
      simp only at hnext ⊢
      rw [hnext, ih.2, List.length_append, Nat.add_assoc]

/-! ## What is known -/

theorem known_finished (hgraph : graph.WellFormed) {id : NodeId} {buildable : Buildable}
    {callee : String} {between : State} {result : Value}
    (hnode : graph.get? id = some buildable)
    (hrun : Run graph baseModule history before buildable.arguments.values results made between)
    (h : (finishNode history buildable callee
      ⟨buildable.arguments.names.zip results⟩).Yields between result after)
    (origin : Origin) : Known after origin ↔ Known between origin := by
  rw [(hrun.finished hgraph hnode h).state]
  cases origin <;> rfl

theorem Run.known_mono (hgraph : graph.WellFormed)
    (h : Run graph baseModule history before values results made after) {origin : Origin}
    (hknown : Known before origin) : Known after origin := by
  induction h with
  | nil state => exact hknown
  | cons _ _ ihfirst ihrest => exact ihrest (ihfirst hknown)
  | moved start finish _ ih => exact (known_path _ _ _).mpr (ih ((known_path _ _ _).mpr hknown))
  | symbol hrole hadd => exact (known_context _ _ _).mpr hknown
  | plain _ _ _ _ ih => exact ih hknown
  | knownCode => exact hknown
  | code _ _ _ ih => exact (known_code _ _ _ _ _).mpr (.inr (ih hknown))
  | knownNode => exact hknown
  | node _ hnode _ _ hrun hfinish ih =>
      rw [known_node, known_finished hgraph hnode hrun hfinish]
      exact .inr (ih ((known_context _ _ _).mpr hknown))

theorem Run.known_made (hgraph : graph.WellFormed)
    (h : Run graph baseModule history before values results made after) {origin : Origin}
    (hmade : origin ∈ made) : Known after origin := by
  induction h with
  | nil state => contradiction
  | cons _ hrest ihfirst ihrest =>
      obtain hmade | hmade := List.mem_append.mp hmade
      · exact hrest.known_mono hgraph (ihfirst hmade)
      · exact ihrest hmade
  | moved start finish _ ih => exact (known_path _ _ _).mpr (ih hmade)
  | symbol => contradiction
  | plain _ _ _ _ ih => exact ih hmade
  | knownCode => contradiction
  | code _ _ _ ih =>
      rw [known_code]
      obtain hmade | hmade := List.mem_append.mp hmade
      · exact .inr (ih hmade)
      · exact .inl (List.mem_singleton.mp hmade)
  | knownNode => contradiction
  | node _ hnode _ _ hrun hfinish ih =>
      rw [known_node, known_finished hgraph hnode hrun hfinish]
      obtain hmade | hmade := List.mem_append.mp hmade
      · exact .inr (ih hmade)
      · exact .inl (of_madeFor hmade)

/-- An object is made for the values or for something below them. -/
theorem Run.made_below (h : Run graph baseModule history before values results made after)
    {origin : Origin} (hmade : origin ∈ made) :
    ∃ value ∈ values, ∃ part, graph.Below value part ∧ origin.Of part := by
  induction h with
  | nil state => contradiction
  | cons _ _ ihfirst ihrest =>
      obtain hmade | hmade := List.mem_append.mp hmade
      · obtain ⟨value, hvalue, hpart⟩ := ihfirst hmade
        rw [List.mem_singleton.mp hvalue] at hpart
        exact ⟨_, List.mem_cons_self, hpart⟩
      · obtain ⟨value, hvalue, hpart⟩ := ihrest hmade
        exact ⟨value, List.mem_cons_of_mem _ hvalue, hpart⟩
  | moved start finish _ ih => exact ih hmade
  | symbol => contradiction
  | plain hnode _ _ _ ih =>
      obtain ⟨child, hchild, part, hbelow, hof⟩ := ih hmade
      rw [← graph.parts_eq_children hnode] at hchild
      exact ⟨_, List.mem_singleton_self _, part, .head hchild hbelow, hof⟩
  | knownCode => contradiction
  | @code _ _ value id _ _ hcode _ _ ih =>
      obtain hmade | hmade := List.mem_append.mp hmade
      · obtain ⟨child, hchild, part, hbelow, hof⟩ := ih hmade
        rw [← graph.parts_eq_children (Value.asNode?_of_codeId? hcode)] at hchild
        exact ⟨_, List.mem_singleton_self _, part, .head hchild hbelow, hof⟩
      · rw [List.mem_singleton.mp hmade]
        exact ⟨value, List.mem_singleton_self _, value, .refl, hcode⟩
  | knownNode => contradiction
  | @node _ _ _ id buildable _ _ _ _ _ _ _ _ hnode _ _ _ _ ih =>
      obtain hmade | hmade := List.mem_append.mp hmade
      · obtain ⟨argument, hargument, part, hbelow, hof⟩ := ih hmade
        rw [← ConfigGraph.parts_node hnode] at hargument
        exact ⟨_, List.mem_singleton_self _, part, .head hargument hbelow, hof⟩
      · exact ⟨.node id, List.mem_singleton_self _, .node id, .refl, of_madeFor hmade⟩

/-! ## One object for an origin -/

/-- What is made for the parts of a value is not made for the value. -/
theorem Run.not_made_of_part (hgraph : graph.WellFormed) (hheap : Heap graph holds)
    {whole : Value} (hwhole : holds whole)
    (h : Run graph baseModule history before (graph.parts whole) results made after)
    {origin : Origin} (hof : origin.Of whole) : origin ∉ made := by
  intro hmade
  obtain ⟨part, hpart, inner, hbelow, hof'⟩ := h.made_below hmade
  have hinner := hheap.below (hheap.parts whole hwhole part hpart) hbelow
  rw [hheap.unique hinner hwhole hof' hof] at hbelow
  exact hgraph.not_below_part hpart hbelow

theorem nodup_madeFor (id : NodeId) (buildable : Buildable) :
    (madeFor id buildable).Nodup := by
  rw [madeFor, List.nodup_append]
  refine ⟨?_, List.nodup_singleton _, ?_⟩
  · refine List.Nodup.map (fun first second h => ?_) Std.ExtTreeMap.nodup_keys
    exact (Origin.wrapper.inj h).2
  · intro wrapper hwrapper call hcall
    obtain ⟨field, -, rfl⟩ := List.mem_map.mp hwrapper
    rw [List.mem_singleton.mp hcall]
    simp

theorem once_append {start : State} (hgraph : graph.WellFormed) (hheap : Heap graph holds)
    {whole : Value} (hwhole : holds whole)
    (h : Run graph baseModule history start (graph.parts whole) results made after)
    (hmade : made.Nodup ∧ ∀ origin ∈ made, ¬ Known before origin) {own : List Origin}
    (hown : own.Nodup) (hof : ∀ origin ∈ own, origin.Of whole)
    (hnew : ∀ origin ∈ own, ¬ Known before origin) :
    (made ++ own).Nodup ∧ ∀ origin ∈ made ++ own, ¬ Known before origin := by
  constructor
  · refine List.nodup_append.mpr ⟨hmade.1, hown, ?_⟩
    rintro origin horigin other hother rfl
    exact h.not_made_of_part hgraph hheap hwhole (hof origin hother) horigin
  · intro origin horigin
    obtain horigin | horigin := List.mem_append.mp horigin
    · exact hmade.2 origin horigin
    · exact hnew origin horigin

theorem not_known_of {id : NodeId} {origin : Origin} {state : State}
    (hnew : state.nodeResults.lookup id = none) (hof : origin.Of (.node id)) :
    ¬ Known state origin := by
  cases origin with
  | code other => simp [Origin.Of, Value.codeId?] at hof
  | _ =>
      obtain rfl := Value.node.inj hof
      simp [Known, hnew]

/-- Objects are made for distinct origins, none of which was known before. -/
theorem Run.made_once (hgraph : graph.WellFormed) (hheap : Heap graph holds)
    (h : Run graph baseModule history before values results made after)
    (hvalues : ∀ value ∈ values, holds value) :
    made.Nodup ∧ ∀ origin ∈ made, ¬ Known before origin := by
  induction h with
  | nil state => exact ⟨List.nodup_nil, nofun⟩
  | cons hfirst hrest ihfirst ihrest =>
      obtain ⟨hnodup, hnew⟩ := ihfirst fun value hvalue =>
        hvalues value (List.mem_singleton.mp hvalue ▸ List.mem_cons_self)
      obtain ⟨hnodup', hnew'⟩ := ihrest fun value hvalue =>
        hvalues value (List.mem_cons_of_mem _ hvalue)
      constructor
      · refine List.nodup_append.mpr ⟨hnodup, hnodup', ?_⟩
        -- What the first value made is known when the rest begins.
        rintro origin horigin other hother rfl
        exact hnew' origin hother (hfirst.known_made hgraph horigin)
      · intro origin horigin hknown
        obtain horigin | horigin := List.mem_append.mp horigin
        · exact hnew origin horigin hknown
        · exact hnew' origin horigin (hfirst.known_mono hgraph hknown)
  | moved start finish _ ih =>
      obtain ⟨hnodup, hnew⟩ := ih hvalues
      exact ⟨hnodup, fun origin horigin hknown =>
        hnew origin horigin ((known_path _ _ _).mpr hknown)⟩
  | symbol => exact ⟨List.nodup_nil, nofun⟩
  | plain hnode _ _ _ ih =>
      refine ih fun part hpart => ?_
      rw [← graph.parts_eq_children hnode] at hpart
      exact hheap.parts _ (hvalues _ (List.mem_singleton_self _)) part hpart
  | knownCode => exact ⟨List.nodup_nil, nofun⟩
  | code hcode hnew hrun ih =>
      have hwhole := hvalues _ (List.mem_singleton_self _)
      rw [← graph.parts_eq_children (Value.asNode?_of_codeId? hcode)] at hrun ih
      refine once_append hgraph hheap hwhole hrun (ih (hheap.parts _ hwhole))
        (List.nodup_singleton _) ?_ ?_
      · intro origin horigin
        rw [List.mem_singleton.mp horigin]
        exact hcode
      · intro origin horigin
        rw [List.mem_singleton.mp horigin]
        simp [Known, hnew]
  | knownNode => exact ⟨List.nodup_nil, nofun⟩
  | node hnew hnode _ _ hrun _ ih =>
      have hwhole := hvalues _ (List.mem_singleton_self _)
      rw [← ConfigGraph.parts_node hnode] at hrun ih
      simp only [known_context] at ih
      exact once_append hgraph hheap hwhole hrun (ih (hheap.parts _ hwhole))
        (nodup_madeFor _ _) (fun origin => of_madeFor)
        (fun origin horigin => not_known_of hnew (of_madeFor horigin))

end Substitution

end ConfigLowering
