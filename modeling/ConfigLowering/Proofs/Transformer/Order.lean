import ConfigLowering.Proofs.Graph.Discovery
import ConfigLowering.Proofs.Transformer.Outcome

/-!
# The order in which nodes are transformed

The engine keeps the result of a node when the node is finished, so that it cannot tell from
what it keeps which nodes it has begun. A transformer that notes where it begins a node shows
that this makes no difference: nothing below an open node leads back to it, so the engine comes
to open nodes nowhere but where it began them, and it begins the nodes in discovery order.
-/

namespace ConfigLowering

open Relation

/-- What a transformer notes about config nodes. -/
structure Trace where
  /-- The nodes in the order in which they are begun. -/
  entered : List NodeId
  /-- The nodes in the order in which they are finished. -/
  finished : List NodeId

namespace Trace

def empty : Trace := ⟨[], []⟩

def enter (trace : Trace) (id : NodeId) : Trace :=
  { trace with entered := trace.entered ++ [id] }

def finish (trace : Trace) (id : NodeId) : Trace :=
  { trace with finished := trace.finished ++ [id] }

@[simp] theorem finished_enter (trace : Trace) (id : NodeId) :
    (trace.enter id).finished = trace.finished := rfl

variable {graph : ConfigGraph} {before between after : Trace} {refs more : List NodeId}

/-- No open node can be reached from the references. -/
def Clears (graph : ConfigGraph) (trace : Trace) (refs : List NodeId) : Prop :=
  ∀ start ∈ refs, ∀ id ∈ trace.entered, ReflTransGen graph.Refers start id → id ∈ trace.finished

/-- What transforming something with these references adds to a trace: the nodes are entered in
discovery order, and all of them are finished. -/
structure Advances (graph : ConfigGraph) (before : Trace) (refs : List NodeId) (after : Trace) :
    Prop where
  order : ∀ depth, (∀ id ∈ refs, graph.rank id ≤ depth) →
    after.entered = graph.discoverAll depth before.entered refs
  finishes : refs ⊆ after.finished
  entered : before.entered ⊆ after.entered
  finished : before.finished ⊆ after.finished
  /-- What is open in the end was open before. -/
  closes : ∀ id ∈ after.entered, id ∈ before.entered ∨ id ∈ after.finished
  /-- What was open before is open in the end. -/
  keeps : ∀ id ∈ after.finished, id ∈ before.finished ∨ id ∉ before.entered

theorem Advances.refl {trace : Trace} (hfinished : refs ⊆ trace.finished)
    (hentered : trace.finished ⊆ trace.entered) : Advances graph trace refs trace where
  order depth _ := (ConfigGraph.discoverAll_of_subset
    (List.Subset.trans hfinished hentered) depth).symm
  finishes := hfinished
  entered := List.Subset.refl _
  finished := List.Subset.refl _
  closes _ := .inl
  keeps _ := .inl

theorem Advances.append (h : Advances graph before refs between)
    (hmore : Advances graph between more after) : Advances graph before (refs ++ more) after where
  order depth hrank := by
    obtain ⟨hrefs, hrank⟩ := List.forall_mem_append.mp hrank
    rw [hmore.order depth hrank, h.order depth hrefs, ConfigGraph.discoverAll_append]
  finishes := List.append_subset.mpr
    ⟨List.Subset.trans h.finishes hmore.finished, hmore.finishes⟩
  entered := List.Subset.trans h.entered hmore.entered
  finished := List.Subset.trans h.finished hmore.finished
  closes id hid := by
    obtain hid | hid := hmore.closes id hid
    · exact (h.closes id hid).imp_right fun hid => hmore.finished hid
    · exact .inr hid
  keeps id hid := by
    obtain hid | hid := hmore.keeps id hid
    · exact h.keeps id hid
    · exact .inr fun hbefore => hid (h.entered hbefore)

theorem Clears.of_advances (h : Clears graph before more)
    (hadvances : Advances graph before refs after) : Clears graph after more := by
  intro start hstart id hid hpath
  obtain hid | hid := hadvances.closes id hid
  · exact hadvances.finished (h start hstart id hid hpath)
  · exact hid

/-- An open node is not below the references of the one that is entered. -/
theorem Clears.of_enter (hgraph : graph.WellFormed) {id : NodeId} (h : Clears graph before [id]) :
    Clears graph (before.enter id) (graph.nodeReferences id) := by
  intro child hchild other hother hpath
  have hrefers := (graph.mem_nodeReferences_iff id child).mp hchild
  obtain hother | hother := List.mem_append.mp hother
  · exact h id List.mem_cons_self other hother (.head hrefers hpath)
  · rw [List.mem_singleton.mp hother] at hpath
    exact absurd (.head' hrefers hpath) (hgraph.acyclic id)

/-- A node that is new is entered, then its references are done, and then it is finished. -/
theorem Advances.node (hgraph : graph.WellFormed) {id : NodeId} (hentered : id ∉ before.entered)
    (h : Advances graph (before.enter id) (graph.nodeReferences id) after) :
    Advances graph before [id] (after.finish id) where
  order depth hrank := by
    obtain ⟨fewer, hchildren, hdiscover⟩ :=
      hgraph.discover_of_not_mem hentered (hrank id List.mem_cons_self)
    rw [ConfigGraph.discoverAll_cons, ConfigGraph.discoverAll_nil, hdiscover]
    exact h.order fewer hchildren
  finishes := List.cons_subset.mpr
    ⟨List.mem_append_right _ List.mem_cons_self, List.nil_subset _⟩
  entered other hother := h.entered (List.mem_append_left _ hother)
  finished other hother := List.mem_append_left _ (h.finished hother)
  closes other hother := by
    obtain hother | hother := h.closes other hother
    · refine (List.mem_append.mp hother).imp_right fun hother => ?_
      exact List.mem_append_right _ hother
    · exact .inr (List.mem_append_left _ hother)
  keeps other hother := by
    obtain hother | hother := List.mem_append.mp hother
    · refine (h.keeps other hother).imp_right fun hnew hold => ?_
      exact hnew (List.mem_append_left _ hold)
    · exact .inr (List.mem_singleton.mp hother ▸ hentered)

end Trace

/-! ## Tracked states -/

variable {σ ε α β : Type} {graph : ConfigGraph} {holds : Value → Prop}

/-- The trace says for which nodes results are kept, and what kept results of objects refer to
is finished. -/
structure Tracked (graph : ConfigGraph) (holds : Value → Prop)
    (state : TransformState (σ × Trace)) : Prop where
  kept : ∀ id, (state.nodeResults.lookup id).isSome ↔ id ∈ state.context.2.finished
  entered : state.context.2.finished ⊆ state.context.2.entered
  once : state.context.2.finished.Nodup
  known : ∀ id ∈ state.context.2.finished, graph.contains id
  codes : ∀ code result, state.codeResults.lookup code = some result →
    ∀ value, holds value → value.codeId? = some code →
      value.nodeReferences ⊆ state.context.2.finished

theorem tracked_start (context : σ) (nextCode : CodeId) :
    Tracked graph holds (.start (context, .empty) nextCode) :=
  ⟨fun _ => ⟨nofun, nofun⟩, nofun, List.nodup_nil, nofun, nofun⟩

theorem Tracked.congr {before after : TransformState (σ × Trace)} (h : Tracked graph holds before)
    (hnodes : after.nodeResults = before.nodeResults)
    (hcodes : after.codeResults = before.codeResults)
    (htrace : after.context.2 = before.context.2) : Tracked graph holds after where
  kept := by simpa only [hnodes, htrace] using h.kept
  entered := by simpa only [htrace] using h.entered
  once := by simpa only [htrace] using h.once
  known := by simpa only [htrace] using h.known
  codes := by simpa only [hcodes, htrace] using h.codes

theorem Tracked.enter {before after : TransformState (σ × Trace)} {id : NodeId}
    (h : Tracked graph holds before) (hnodes : after.nodeResults = before.nodeResults)
    (hcodes : after.codeResults = before.codeResults)
    (htrace : after.context.2 = before.context.2.enter id) : Tracked graph holds after where
  kept := by simpa only [hnodes, htrace, Trace.finished_enter] using h.kept
  entered := by
    rw [htrace]
    exact List.subset_append_of_subset_left [id] h.entered
  once := by simpa only [htrace, Trace.finished_enter] using h.once
  known := by simpa only [htrace, Trace.finished_enter] using h.known
  codes := by simpa only [hcodes, htrace, Trace.finished_enter] using h.codes

/-- A node that is entered and not finished yet can be finished and kept. -/
theorem Tracked.finish {before after : TransformState (σ × Trace)} {id : NodeId} {result : Value}
    (h : Tracked graph holds before) (hentered : id ∈ before.context.2.entered)
    (hopen : id ∉ before.context.2.finished) (hknown : graph.contains id)
    (hnodes : after.nodeResults = (id, result) :: before.nodeResults)
    (hcodes : after.codeResults = before.codeResults)
    (htrace : after.context.2 = before.context.2.finish id) : Tracked graph holds after where
  kept other := by
    rw [hnodes, htrace, Arguments.lookup_cons_ite, Trace.finish, List.mem_append,
      List.mem_singleton, ← h.kept]
    by_cases hother : other = id <;> simp [hother]
  entered := by
    rw [htrace]
    exact List.append_subset.mpr ⟨h.entered, List.cons_subset.mpr ⟨hentered, List.nil_subset _⟩⟩
  once := by
    rw [htrace, Trace.finish, List.nodup_append]
    refine ⟨h.once, List.pairwise_singleton _ id, ?_⟩
    rintro other hother _ hid rfl
    exact hopen (List.mem_singleton.mp hid ▸ hother)
  known := by
    rw [htrace]
    exact List.forall_mem_append.mpr ⟨h.known, List.forall_mem_singleton.mpr hknown⟩
  codes := by
    rw [hcodes, htrace]
    intro code found hfound value hvalue hcode
    exact List.subset_append_of_subset_left [id] (h.codes code found hfound value hvalue hcode)

namespace TransformM

/-- The action leaves what is kept as it is, and changes the trace in one way. -/
def Notes (change : Trace → Trace) (action : TransformM (σ × Trace) ε α) : Prop :=
  ∀ before value after, action.Yields before value after →
    after.nodeResults = before.nodeResults ∧ after.codeResults = before.codeResults ∧
      after.context.2 = change before.context.2

/-- The action begins and finishes nodes as it comes to these references. -/
def Discovers (graph : ConfigGraph) (holds : Value → Prop)
    (action : TransformM (σ × Trace) ε α) (refs : List NodeId) : Prop :=
  ∀ before value after, action.Yields before value after → Tracked graph holds before →
    before.context.2.Clears graph refs →
      Tracked graph holds after ∧ before.context.2.Advances graph refs after.context.2

theorem notes_pure (value : α) : Notes (ε := ε) (σ := σ) id (pure value) := by
  intro before _ after h
  obtain ⟨-, rfl⟩ := h.of_pure
  exact ⟨rfl, rfl, rfl⟩

theorem notes_freshCode : Notes (ε := ε) (σ := σ) id freshCode := by
  intro before _ after h
  obtain ⟨-, rfl⟩ := yields_freshCode.mp h
  exact ⟨rfl, rfl, rfl⟩

variable {action : TransformM (σ × Trace) ε α} {refs more : List NodeId}

theorem Notes.bind {first second : Trace → Trace} {next : α → TransformM (σ × Trace) ε β}
    (h : Notes first action) (hnext : ∀ value, Notes second (next value)) :
    Notes (second ∘ first) (action >>= next) := by
  intro before result after hyields
  obtain ⟨value, between, haction, hrest⟩ := hyields.of_bind
  obtain ⟨hnodes, hcodes, htrace⟩ := h _ _ _ haction
  obtain ⟨hnodes', hcodes', htrace'⟩ := hnext value _ _ _ hrest
  refine ⟨hnodes'.trans hnodes, hcodes'.trans hcodes, ?_⟩
  rw [htrace', htrace, Function.comp_apply]

theorem Notes.before_quiet {change : Trace → Trace} {next : α → TransformM (σ × Trace) ε β}
    (h : Notes change action) (hnext : ∀ value, Notes id (next value)) :
    Notes change (action >>= next) :=
  h.bind hnext

theorem Notes.after_quiet {change : Trace → Trace} {next : α → TransformM (σ × Trace) ε β}
    (h : Notes id action) (hnext : ∀ value, Notes change (next value)) :
    Notes change (action >>= next) :=
  h.bind hnext

theorem Notes.discovers (h : Notes id action) : Discovers graph holds action [] := by
  intro before value after hyields htracked _
  obtain ⟨hnodes, hcodes, htrace⟩ := h _ _ _ hyields
  refine ⟨htracked.congr hnodes hcodes htrace, ?_⟩
  rw [htrace]
  exact .refl (List.nil_subset _) htracked.entered

theorem Discovers.bind {next : α → TransformM (σ × Trace) ε β}
    (h : Discovers graph holds action refs)
    (hnext : ∀ before value after, action.Yields before value after →
      Discovers graph holds (next value) more) :
    Discovers graph holds (action >>= next) (refs ++ more) := by
  intro before result after hyields htracked hclears
  obtain ⟨value, between, haction, hrest⟩ := hyields.of_bind
  obtain ⟨hrefs, hmore⟩ := List.forall_mem_append.mp hclears
  obtain ⟨hbetween, hfirst⟩ := h _ _ _ haction htracked hrefs
  obtain ⟨hafter, hsecond⟩ := hnext _ _ _ haction _ _ _ hrest hbetween
    (Trace.Clears.of_advances hmore hfirst)
  exact ⟨hafter, hfirst.append hsecond⟩

theorem Discovers.bind_notes {next : α → TransformM (σ × Trace) ε β}
    (h : Discovers graph holds action refs) (hnext : ∀ value, Notes id (next value)) :
    Discovers graph holds (action >>= next) refs := by
  have hbind := h.bind fun _ value _ _ => (hnext value).discovers
  rwa [List.append_nil] at hbind

theorem Discovers.mapM {ι : Type} {action : ι → TransformM (σ × Trace) ε β}
    {refsOf : ι → List NodeId} {items : List ι}
    (h : ∀ item ∈ items, Discovers graph holds (action item) (refsOf item)) :
    Discovers graph holds (items.mapM action) (items.flatMap refsOf) := by
  induction items with
  | nil => exact (notes_pure []).discovers
  | cons item items ih =>
      obtain ⟨hitem, hitems⟩ := List.forall_mem_cons.mp h
      rw [List.mapM_cons, List.flatMap_cons]
      exact hitem.bind fun _ _ _ _ => (ih hitems).bind_notes fun _ => notes_pure _

theorem Discovers.below (h : Discovers graph holds action refs) (step : PathStep) :
    Discovers graph holds (TransformM.below step action) refs := by
  intro before value after hyields htracked hclears
  obtain ⟨between, haction, rfl⟩ := (yields_below step action).mp hyields
  obtain ⟨hbetween, hadvances⟩ := h _ _ _ haction (htracked.congr rfl rfl rfl) hclears
  exact ⟨hbetween.congr rfl rfl rfl, hadvances⟩

/-- A known object has no reference that is not finished; a new one is kept. -/
theorem Discovers.onceForCode {action : TransformM (σ × Trace) ε Value}
    (hheap : Heap graph holds) {value : Value} (hvalue : holds value) {code : CodeId}
    (hcode : value.codeId? = some code)
    (h : Discovers graph holds action value.nodeReferences) :
    Discovers graph holds (TransformM.onceForCode code action) value.nodeReferences := by
  intro before result after hyields htracked hclears
  obtain ⟨hknown, rfl⟩ | ⟨-, between, haction, rfl⟩ := (yields_onceForCode code action).mp hyields
  · exact ⟨htracked, .refl (htracked.codes code result hknown value hvalue hcode)
      htracked.entered⟩
  · obtain ⟨hbetween, hadvances⟩ := h _ _ _ haction htracked hclears
    refine ⟨⟨hbetween.kept, hbetween.entered, hbetween.once, hbetween.known, ?_⟩, hadvances⟩
    intro other found hfound same hsame hother
    rw [Arguments.lookup_cons_ite] at hfound
    split at hfound
    · next heq =>
        rw [hheap.coherent same value code hsame hvalue (heq ▸ hother) hcode]
        exact hadvances.finishes
    · exact hbetween.codes other found hfound same hsame hother

/-- A known node is finished. A new one is entered and finished, with its references between. -/
theorem Discovers.onceForNode {start : TransformM (σ × Trace) ε α}
    {rest : α → TransformM (σ × Trace) ε Value} (hgraph : graph.WellFormed) {id : NodeId}
    (hid : graph.contains id) (hstart : Notes (·.enter id) start)
    (hrest : ∀ before value after, start.Yields before value after →
      ∃ (middle : TransformM (σ × Trace) ε β) (last : β → TransformM (σ × Trace) ε Value),
        rest value = middle >>= last ∧ Discovers graph holds middle (graph.nodeReferences id) ∧
          ∀ parts, Notes (·.finish id) (last parts)) :
    Discovers graph holds (TransformM.onceForNode id (start >>= rest)) [id] := by
  intro before result after hyields htracked hclears
  obtain ⟨hknown, rfl⟩ | ⟨hnew, finished, haction, rfl⟩ := (yields_onceForNode id _).mp hyields
  · have hfinished := (htracked.kept id).mp (Option.isSome_of_eq_some hknown)
    exact ⟨htracked, .refl (List.cons_subset.mpr ⟨hfinished, List.nil_subset _⟩)
      htracked.entered⟩
  · obtain ⟨value, entered, hvalue, haction⟩ := haction.of_bind
    obtain ⟨middle, last, hsplit, hdiscovers, hlasts⟩ := hrest _ _ _ hvalue
    rw [hsplit] at haction
    obtain ⟨parts, between, hparts, hlast⟩ := haction.of_bind
    obtain ⟨hnodes, hcodes, (htrace : _ = before.context.2.enter id)⟩ := hstart _ _ _ hvalue
    obtain ⟨hnodes', hcodes', (htrace' : _ = between.context.2.finish id)⟩ :=
      hlasts parts _ _ _ hlast
    have hopen : id ∉ before.context.2.finished := by
      rw [← htracked.kept, hnew]
      exact nofun
    have hunentered : id ∉ before.context.2.entered := fun hentered =>
      hopen (hclears id List.mem_cons_self id hentered .refl)
    have hcleared := hclears.of_enter hgraph
    rw [← htrace] at hcleared
    obtain ⟨hbetween, hadvances⟩ :=
      hdiscovers _ _ _ hparts (htracked.enter hnodes hcodes htrace) hcleared
    rw [htrace] at hadvances
    -- The node is open all the while its references are done.
    have hentered : id ∈ (before.context.2.enter id).entered :=
      List.mem_append_right _ List.mem_cons_self
    have hstill : id ∉ between.context.2.finished := fun hfinished =>
      (hadvances.keeps id hfinished).elim hopen fun hnot => hnot hentered
    refine ⟨hbetween.finish (hadvances.entered hentered) hstill hid (by rw [← hnodes']) hcodes'
      htrace', ?_⟩
    have hnode := hadvances.node hgraph hunentered
    rwa [← htrace'] at hnode

end TransformM

/-! ## The engine -/

namespace Transformer

open TransformM (Notes Discovers notes_pure notes_freshCode)

/-- The transformer notes each node that it begins and each that it finishes, asks for all parts
of what has parts, and leaves what the engine keeps alone. -/
structure Records (transformer : Transformer (σ × Trace) ε) : Prop where
  onNode : ∀ id buildable, Notes (·.enter id) (transformer.onNode id buildable)
  planNode : ∀ id buildable before plan after,
    (transformer.onNode id buildable).Yields before plan after →
      ∃ finish, plan = .rebuild finish ∧ ∀ arguments, Notes (·.finish id) (finish arguments)
  onValue : ∀ value, Notes id (transformer.onValue value)
  planValue : ∀ value before plan after, (transformer.onValue value).Yields before plan after →
    (value.children = [] ∧ ∃ result, plan = .replace result) ∨
      ∃ finish, plan = .rebuild finish ∧ ∀ parts, Notes id (finish parts)

variable {transformer : Transformer (σ × Trace) ε} {enter : NodeId → TransformM (σ × Trace) ε Value}

theorem discovers_transformItems {items : List Value}
    (h : ∀ item ∈ items, Discovers graph holds (transformer.transformValue enter item)
      item.nodeReferences) (position : Nat) :
    Discovers graph holds (transformer.transformItems enter items position)
      (items.flatMap Value.nodeReferences) := by
  induction items generalizing position with
  | nil => exact (notes_pure []).discovers
  | cons item items ih =>
      obtain ⟨hitem, hitems⟩ := List.forall_mem_cons.mp h
      rw [List.flatMap_cons]
      exact (hitem.below (.index position)).bind fun _ _ _ _ =>
        (ih hitems (position + 1)).bind_notes fun _ => notes_pure _

theorem discovers_transformEntries {entries : List (String × Value)}
    (h : ∀ item ∈ entries.map Prod.snd,
      Discovers graph holds (transformer.transformValue enter item) item.nodeReferences)
    (step : String → PathStep) :
    Discovers graph holds (transformer.transformEntries enter step entries)
      ((entries.map Prod.snd).flatMap Value.nodeReferences) := by
  induction entries with
  | nil => exact (notes_pure []).discovers
  | cons entry entries ih =>
      obtain ⟨name, item⟩ := entry
      obtain ⟨hitem, hentries⟩ := List.forall_mem_cons.mp h
      rw [List.map_cons, List.flatMap_cons]
      exact (hitem.below (step name)).bind fun _ _ _ _ =>
        (ih hentries).bind_notes fun _ => notes_pure _

/-- A value that is replaced has no references, and any other is done with its parts. -/
theorem Records.discovers_onValue (h : transformer.Records) {value : Value}
    (hnode : value.asNode? = none) {transformed : TransformM (σ × Trace) ε Value}
    (htransformed : Discovers graph holds transformed
      (value.children.flatMap Value.nodeReferences)) :
    Discovers graph holds (transformer.onValue value >>= fun plan => follow plan transformed)
      value.nodeReferences := by
  rw [Value.nodeReferences_eq_flatMap hnode]
  refine (h.onValue value).discovers.bind fun before plan after hplan => ?_
  obtain ⟨hchildren, result, rfl⟩ | ⟨finish, rfl, hfinish⟩ := h.planValue _ _ _ _ hplan
  · rw [hchildren]
    exact (notes_pure result).discovers
  · exact htransformed.bind_notes hfinish

theorem discovers_transformValue (h : transformer.Records) (hheap : Heap graph holds)
    (henter : ∀ id, holds (.node id) → Discovers graph holds (enter id) [id]) {value : Value}
    (hvalue : holds value) :
    Discovers graph holds (transformer.transformValue enter value) value.nodeReferences := by
  induction value using Value.induction_children with
  | step value ih =>
      have hchildren : value.asNode? = none → ∀ child ∈ value.children,
          Discovers graph holds (transformer.transformValue enter child) child.nodeReferences :=
        fun hnode child hchild => ih child hchild
          (hheap.parts value hvalue child (graph.parts_eq_children hnode ▸ hchild))
      cases value with
      | node id => exact henter id hvalue
      | list items =>
          rw [transformValue]
          refine h.discovers_onValue rfl ?_
          exact (discovers_transformItems (hchildren rfl) 0).bind_notes fun _ => notes_pure _
      | tuple items =>
          rw [transformValue]
          refine h.discovers_onValue rfl ?_
          exact (discovers_transformItems (hchildren rfl) 0).bind_notes fun _ => notes_pure _
      | dict entries =>
          rw [transformValue]
          refine h.discovers_onValue rfl ?_
          exact (discovers_transformEntries (hchildren rfl) .key).bind_notes
            fun _ => notes_pure _
      | call id callee positional named history =>
          rw [transformValue]
          refine (h.discovers_onValue rfl ?_).onceForCode hheap hvalue rfl
          have hpositional := discovers_transformItems (fun item hitem =>
            hchildren rfl item (List.mem_append_left _ hitem)) 0
          have hnamed := discovers_transformEntries (fun item hitem =>
            hchildren rfl item (List.mem_append_right _ hitem)) .field
          rw [Value.children, List.flatMap_append]
          exact hpositional.bind fun _ _ _ _ => hnamed.bind_notes fun _ =>
            notes_freshCode.after_quiet fun _ => notes_pure _
      | tagged id tagNames item =>
          rw [transformValue]
          refine (h.discovers_onValue rfl ?_).onceForCode hheap hvalue rfl
          have hitem := hchildren rfl item List.mem_cons_self
          rw [Value.children, List.flatMap_singleton]
          exact (hitem.below _).bind_notes fun _ => notes_freshCode.after_quiet fun _ => notes_pure _
      | _ => exact h.discovers_onValue rfl (notes_pure _).discovers

/-! ## Nodes and roots -/

theorem discovers_transformNode (h : transformer.Records) (hgraph : graph.WellFormed)
    (hheap : Heap graph holds) (depth : Nat) {id : NodeId} (hnode : holds (.node id)) :
    Discovers graph holds (transformer.transformNode graph depth id) [id] := by
  induction depth generalizing id with
  | zero => exact fun _ _ _ hyields => absurd hyields (TransformM.yields_throw _)
  | succ depth ih =>
      rw [transformNode]
      cases hfound : graph.get? id with
      | none =>
          rw [graph.node_eq, hfound]
          -- Nothing is kept for a node that the graph does not have.
          intro before result after hyields htracked
          obtain ⟨hknown, -⟩ | ⟨-, _, hthrow, -⟩ :=
            (TransformM.yields_onceForNode id _).mp hyields
          · have hcontains := htracked.known id
              ((htracked.kept id).mp (Option.isSome_of_eq_some hknown))
            rw [graph.contains_iff, hfound] at hcontains
            exact absurd hcontains nofun
          · exact absurd hthrow (TransformM.yields_throw _)
      | some buildable =>
          rw [graph.node_eq, hfound]
          refine Discovers.onceForNode (β := Arguments Value) hgraph
            ((graph.contains_iff id).mpr ⟨buildable, hfound⟩)
            (h.onNode id buildable) fun before plan after hplan => ?_
          obtain ⟨finish, rfl, hfinish⟩ := h.planNode _ _ _ _ _ hplan
          refine ⟨_, finish, rfl, ?_, hfinish⟩
          have harguments := discovers_transformEntries (fun argument hargument =>
            discovers_transformValue h hheap (fun _ => ih) (hheap.parts _ hnode argument
              (ConfigGraph.parts_node hfound ▸ hargument))) .field
          rw [ConfigGraph.nodeReferences, ConfigGraph.parts_node hfound]
          exact harguments.bind_notes fun _ => notes_pure _

theorem discovers_runAt (h : transformer.Records) (hgraph : graph.WellFormed)
    (hheap : Heap graph holds) {root : Value} (hroot : holds root) (base : Path) :
    Discovers graph holds (transformer.runAt graph root base) root.nodeReferences := by
  intro before result after hyields htracked hclears
  obtain ⟨between, htransformed, rfl⟩ := (TransformM.yields_around _ _ _).mp hyields
  obtain ⟨hbetween, hadvances⟩ := discovers_transformValue h hheap
    (fun _ => discovers_transformNode h hgraph hheap _) hroot _ _ _ htransformed
    (htracked.congr rfl rfl rfl) hclears
  exact ⟨hbetween.congr rfl rfl rfl, hadvances⟩

end Transformer

end ConfigLowering
