import ConfigLowering.Proofs.Graph.Parts
import ConfigLowering.Proofs.Value.Objects
import ConfigLowering.Transformer

/-!
# Local rules

A transformation is local when what becomes of a value depends on the value and its transformed
parts alone. It can be said by plain recursion then: nothing is kept, and what stands in several
places is transformed at each of them. Results are contents, without identities, and an error
may depend on the place where it is met.
-/

namespace ConfigLowering

/-! ## Outcomes at a place -/

/-- What comes of a value; an error may depend on the path at which the value stands. -/
abbrev Located (ε α : Type) := Except (Path → ε) α

namespace Located

variable {ε α β : Type}

/-- The outcome of a part, for the whole in which it stands one step below. -/
def below (step : PathStep) (outcome : Located ε α) : Located ε α :=
  outcome.mapError fun error path => error (path.child step)

/-- The outcome if the value stands at the path. -/
def atPath (outcome : Located ε α) (path : Path) : Except ε α := outcome.mapError (· path)

theorem atPath_below (step : PathStep) (outcome : Located ε α) (path : Path) :
    atPath (below step outcome) path = atPath outcome (path.child step) := by
  cases outcome <;> rfl

theorem atPath_eq_ok_iff {outcome : Located ε α} {path : Path} {value : α} :
    atPath outcome path = .ok value ↔ outcome = .ok value := by
  cases outcome <;> simp [atPath, Except.mapError]

end Located

/-! ## Rules -/

/-- Either a result, or what to make of the contents of the transformed parts. -/
inductive LocalPlan (ε parts : Type) where
  | replace (result : Value)
  | rebuild (finish : parts → Located ε Value)

/-- What becomes of a config node, given its transformed arguments, and of any other value, given
the value with its children transformed. -/
structure LocalRules (ε : Type) where
  ofGraphError : GraphError → ε
  onNode : NodeId → Buildable → Located ε (LocalPlan ε (Arguments Value))
  onValue : Value → Located ε (LocalPlan ε Value)

namespace LocalRules

variable {ε : Type}

def follow {parts : Type} (plan : LocalPlan ε parts) (transformed : Located ε parts) :
    Located ε Value := do
  match plan with
  | .replace result => return result
  | .rebuild finish => finish (← transformed)

/-! ## Plain recursion -/

mutual

def ofValue (rules : LocalRules ε) (enter : NodeId → Located ε Value) : Value → Located ε Value
  | .node id => enter id
  | .list items => do
      let plan ← rules.onValue (.list items)
      follow plan do
        return .list (← ofItems rules enter items 0)
  | .tuple items => do
      let plan ← rules.onValue (.tuple items)
      follow plan do
        return .tuple (← ofItems rules enter items 0)
  | .dict entries => do
      let plan ← rules.onValue (.dict entries)
      follow plan do
        return .dict (← ofEntries rules enter .key entries)
  | .call id callee positional named history => do
      let plan ← rules.onValue (.call id callee positional named history)
      follow plan do
        let positional ← ofItems rules enter positional 0
        let named ← ofEntries rules enter .field named
        return .call ⟨0⟩ callee positional named history
  | .tagged id tagNames item => do
      let plan ← rules.onValue (.tagged id tagNames item)
      follow plan do
        let item ← Located.below (.field "item_to_tag") (ofValue rules enter item)
        return .tagged ⟨0⟩ tagNames item
  | leaf => do
      let plan ← rules.onValue leaf
      follow plan (return leaf)

def ofItems (rules : LocalRules ε) (enter : NodeId → Located ε Value) :
    List Value → Nat → Located ε (List Value)
  | [], _ => return []
  | item :: items, position => do
      let item ← Located.below (.index position) (ofValue rules enter item)
      return item :: (← ofItems rules enter items (position + 1))

def ofEntries (rules : LocalRules ε) (enter : NodeId → Located ε Value)
    (step : String → PathStep) : List (String × Value) → Located ε (List (String × Value))
  | [] => return []
  | (name, item) :: entries => do
      let item ← Located.below (step name) (ofValue rules enter item)
      return (name, item) :: (← ofEntries rules enter step entries)

end

/-- What becomes of a config node, given what becomes of the nodes it refers to. -/
def ofFound (rules : LocalRules ε) (graph : ConfigGraph) (enter : NodeId → Located ε Value)
    (id : NodeId) : Located ε Value :=
  match graph.node id with
  | .error error => throw fun _ => rules.ofGraphError error
  | .ok buildable => do
      let plan ← rules.onNode id buildable
      follow plan do
        return ⟨← ofEntries rules enter .field buildable.arguments.entries⟩

/-- The depth bounds how many references are followed one inside the other. -/
def ofNode (rules : LocalRules ε) (graph : ConfigGraph) : Nat → NodeId → Located ε Value
  | 0, id => throw fun _ => rules.ofGraphError (.reentered id)
  | depth + 1, id => rules.ofFound graph (ofNode rules graph depth) id

def transform (rules : LocalRules ε) (graph : ConfigGraph) (depth : Nat) (root : Value) :
    Located ε Value :=
  rules.ofValue (rules.ofNode graph depth) root

/-! ## Depth -/

variable {rules : LocalRules ε} {enter further : NodeId → Located ε Value}

theorem ofItems_congr {items : List Value}
    (h : ∀ item ∈ items, rules.ofValue enter item = rules.ofValue further item)
    (position : Nat) : rules.ofItems enter items position = rules.ofItems further items position := by
  induction items generalizing position with
  | nil => rfl
  | cons item items ih =>
      obtain ⟨hitem, hitems⟩ := List.forall_mem_cons.mp h
      rw [ofItems, ofItems, hitem, ih hitems]

theorem ofEntries_congr {entries : List (String × Value)}
    (h : ∀ item ∈ entries.map Prod.snd, rules.ofValue enter item = rules.ofValue further item)
    (step : String → PathStep) :
    rules.ofEntries enter step entries = rules.ofEntries further step entries := by
  induction entries with
  | nil => rfl
  | cons entry entries ih =>
      obtain ⟨name, item⟩ := entry
      obtain ⟨hitem, hentries⟩ := List.forall_mem_cons.mp h
      rw [ofEntries, ofEntries, hitem, ih hentries]

theorem ofValue_congr {value : Value} (h : ∀ id ∈ value.nodeReferences, enter id = further id) :
    rules.ofValue enter value = rules.ofValue further value := by
  induction value using Value.induction_children with
  | step value ih =>
      have hchildren : ∀ child ∈ value.children,
          rules.ofValue enter child = rules.ofValue further child := fun child hchild =>
        ih child hchild fun id hid => h id (Value.mem_nodeReferences_of_mem_children hchild hid)
      cases value with
      | node id => exact h id (by simp [Value.nodeReferences])
      | list items =>
          have hitems := ofItems_congr (show ∀ item ∈ items, _ from hchildren) 0
          rw [ofValue, ofValue, hitems]
      | tuple items =>
          have hitems := ofItems_congr (show ∀ item ∈ items, _ from hchildren) 0
          rw [ofValue, ofValue, hitems]
      | dict entries =>
          have hentries := ofEntries_congr (show ∀ item ∈ entries.map Prod.snd, _ from hchildren) .key
          rw [ofValue, ofValue, hentries]
      | call id callee positional named history =>
          have hpositional := ofItems_congr
            (fun item hitem => hchildren item (List.mem_append_left _ hitem)) 0
          have hnamed := ofEntries_congr
            (fun item hitem => hchildren item (List.mem_append_right _ hitem)) .field
          rw [ofValue, ofValue, hpositional, hnamed]
      | tagged id tagNames item =>
          rw [ofValue, ofValue, hchildren item List.mem_cons_self]
      | _ => rfl

variable {graph : ConfigGraph}

/-- All depths that cover a node give the same. -/
theorem ofNode_eq_of_rank_le (hgraph : graph.WellFormed) {id : NodeId} {depth other : Nat}
    (hdepth : graph.rank id ≤ depth) (hother : graph.rank id ≤ other) :
    rules.ofNode graph depth id = rules.ofNode graph other id := by
  have hpos := graph.rank_pos id
  induction depth generalizing id other with
  | zero => omega
  | succ depth ih =>
      obtain ⟨other, rfl⟩ : ∃ less, other = less + 1 := ⟨other - 1, by omega⟩
      rw [ofNode, ofNode, ofFound, ofFound, graph.node_eq]
      cases hfound : graph.get? id with
      | none => rfl
      | some buildable =>
          have hsame : ∀ item ∈ buildable.arguments.values,
              rules.ofValue (rules.ofNode graph depth) item =
                rules.ofValue (rules.ofNode graph other) item := by
            intro item hitem
            rw [← ConfigGraph.parts_node hfound] at hitem
            exact ofValue_congr fun child hchild =>
              ih (hgraph.covers_argument hdepth hitem child hchild)
                (hgraph.covers_argument hother hitem child hchild) (graph.rank_pos child)
          simp only [Option.elim_some, ofEntries_congr hsame .field]

/-- A depth that exceeds the number of nodes does for the nodes referred to as well. -/
theorem ofNode_eq_ofFound (hgraph : graph.WellFormed) {depth : Nat}
    (hdepth : graph.nodeCount < depth) (id : NodeId) :
    rules.ofNode graph depth id = rules.ofFound graph (rules.ofNode graph depth) id := by
  have hrank := (hgraph.rank_le id).trans (Nat.succ_le_of_lt hdepth)
  exact ofNode_eq_of_rank_le hgraph hrank (Nat.le_succ_of_le hrank)

end LocalRules

end ConfigLowering
