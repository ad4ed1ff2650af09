import ConfigLowering.Proofs.Outcome
import ConfigLowering.Proofs.Value.Places
import ConfigLowering.Walk

/-!
# Steps of walks

Everything that a walk does when it succeeds, as a relation between the walk before,
the places still to visit and the walk after.
-/

namespace ConfigLowering

namespace Walk

/-! ## Outcomes -/

theorem run_bind_eq_ok {α β : Type} {action : WalkM α} {next : α → WalkM β}
    {before after : Walk} {result : β}
    (h : (action >>= next).run before = .ok (result, after)) :
    ∃ value between, action.run before = .ok (value, between) ∧
      (next value).run between = .ok (result, after) := by
  rw [StateT.run_bind] at h
  cases hrun : action.run before with
  | error error =>
      rw [hrun] at h
      contradiction
  | ok outcome =>
      rw [hrun] at h
      exact ⟨outcome.1, outcome.2, rfl, h⟩

/-- The walk with one more entry. -/
def recorded (walk : Walk) (visit : Visit) (path : Path) : Walk :=
  { walk with entries := walk.entries.push (visit, path) }

theorem of_record {visit : Visit} {path : Path} {before after : Walk}
    (h : (record visit path).run before = .ok ((), after)) :
    after = before.recorded visit path :=
  (Prod.mk.inj (Except.ok.inj h)).2.symm

theorem run_mark (id : NodeId) (walk : Walk) :
    (mark id).run walk =
      if id ∈ walk.seen then .ok (false, walk)
      else .ok (true, { walk with seen := id :: walk.seen }) := by
  have heq : (mark id).run walk =
      if walk.seen.contains id then .ok (false, walk)
      else .ok (true, { walk with seen := id :: walk.seen }) := by
    change StateT.run (if walk.seen.contains id then _ else _) walk = _
    split <;> rfl
  rw [heq]
  simp only [List.contains_iff_mem]

/-! ## Every success takes steps -/

inductive Walked (graph : ConfigGraph) : Walk → List (Value × Path) → Walk → Prop
  | nil (walk : Walk) : Walked graph walk [] walk
  | cons {before between after : Walk} {place : Value × Path}
      {places : List (Value × Path)} :
      Walked graph before [place] between → Walked graph between places after →
      Walked graph before (place :: places) after
  | seen {walk : Walk} {id : NodeId} (path : Path) :
      id ∈ walk.seen → Walked graph walk [(.node id, path)] walk
  | node {before after : Walk} {id : NodeId} {buildable : Buildable} {path : Path} :
      id ∉ before.seen → graph.get? id = some buildable →
      Walked graph (recorded { before with seen := id :: before.seen } (.node id buildable) path)
        (entryPlaces path .field buildable.arguments.entries) after →
      Walked graph before [(.node id, path)] after
  | value {before after : Walk} {value : Value} {path : Path} :
      value.asNode? = none →
      Walked graph (before.recorded (.value value) path) (value.places path) after →
      Walked graph before [(value, path)] after

variable {graph : ConfigGraph}

theorem Walked.append {before between after : Walk} {places more : List (Value × Path)}
    (h : Walked graph before places between) (hmore : Walked graph between more after) :
    Walked graph before (places ++ more) after := by
  induction h with
  | nil => exact hmore
  | cons hfirst _ _ ih => exact .cons hfirst (ih hmore)
  | seen path hseen => exact .cons (.seen path hseen) hmore
  | node hnew hnode harguments => exact .cons (.node hnew hnode harguments) hmore
  | value hnode hchildren => exact .cons (.value hnode hchildren) hmore

/-- What the action does when it succeeds are the steps from one place. -/
def Followed (graph : ConfigGraph) (action : WalkM Unit) (value : Value) (path : Path) : Prop :=
  ∀ before after, action.run before = .ok ((), after) →
    Walked graph before [(value, path)] after

variable {enter : NodeId → Path → WalkM Unit} {before after : Walk} {path : Path}

theorem walked_of_walkItems {items : List Value} {position : Nat}
    (h : ∀ item ∈ items, ∀ path, Followed graph (walkValue enter item path) item path)
    (hrun : (walkItems enter items position path).run before = .ok ((), after)) :
    Walked graph before (itemPlaces path items position) after := by
  induction items generalizing position before with
  | nil =>
      obtain ⟨-, rfl⟩ := Prod.mk.inj (Except.ok.inj hrun)
      exact .nil before
  | cons item items ih =>
      obtain ⟨⟨⟩, between, hitem, hitems⟩ := run_bind_eq_ok hrun
      exact .cons (h item List.mem_cons_self _ _ _ hitem)
        (ih (fun other hother => h other (List.mem_cons_of_mem _ hother)) hitems)

theorem walked_of_walkEntries {entries : List (String × Value)} {step : String → PathStep}
    (h : ∀ item ∈ entries.map Prod.snd, ∀ path,
      Followed graph (walkValue enter item path) item path)
    (hrun : (walkEntries enter step entries path).run before = .ok ((), after)) :
    Walked graph before (entryPlaces path step entries) after := by
  induction entries generalizing before with
  | nil =>
      obtain ⟨-, rfl⟩ := Prod.mk.inj (Except.ok.inj hrun)
      exact .nil before
  | cons entry entries ih =>
      obtain ⟨name, item⟩ := entry
      obtain ⟨⟨⟩, between, hitem, hentries⟩ := run_bind_eq_ok hrun
      exact .cons (h item List.mem_cons_self _ _ _ hitem)
        (ih (fun other hother => h other (List.mem_cons_of_mem _ hother)) hentries)

/-- A value that is no reference to a node is listed before its children. -/
theorem followed_of_record {value : Value} {children : WalkM Unit}
    (hnode : value.asNode? = none)
    (h : ∀ before after, children.run before = .ok ((), after) →
      Walked graph before (value.places path) after) :
    Followed graph (do record (.value value) path; children) value path := by
  intro before after hrun
  obtain ⟨⟨⟩, between, hrecord, hchildren⟩ := run_bind_eq_ok hrun
  obtain rfl := of_record hrecord
  exact .value hnode (h _ _ hchildren)

theorem followed_walkValue
    (henter : ∀ id path, Followed graph (enter id path) (.node id) path) (value : Value)
    (path : Path) : Followed graph (walkValue enter value path) value path := by
  induction value using Value.induction_children generalizing path with
  | step value ih =>
      cases value with
      | node id => exact henter id path
      | list items =>
          rw [walkValue]
          exact followed_of_record rfl fun _ _ => walked_of_walkItems ih
      | tuple items =>
          rw [walkValue]
          exact followed_of_record rfl fun _ _ => walked_of_walkItems ih
      | dict entries =>
          rw [walkValue]
          exact followed_of_record rfl fun _ _ => walked_of_walkEntries ih
      | call id callee positional named history =>
          rw [walkValue]
          refine followed_of_record rfl fun before after hrun => ?_
          obtain ⟨⟨⟩, between, hpositional, hnamed⟩ := run_bind_eq_ok hrun
          exact (walked_of_walkItems
            (fun item hitem => ih item (List.mem_append_left _ hitem)) hpositional).append
            (walked_of_walkEntries
              (fun item hitem => ih item (List.mem_append_right _ hitem)) hnamed)
      | tagged id tagNames item =>
          rw [walkValue]
          exact followed_of_record rfl fun _ _ => ih item List.mem_cons_self _ _ _
      | _ =>
          intro before after hrun
          obtain rfl := of_record hrun
          exact .value rfl (.nil _)

theorem followed_walkNode (depth : Nat) (id : NodeId) (path : Path) :
    Followed graph (walkNode graph depth id path) (.node id) path := by
  induction depth generalizing id path with
  | zero => exact fun _ _ hrun => nomatch hrun
  | succ depth ih =>
      intro before after hrun
      rw [walkNode] at hrun
      obtain ⟨new, between, hmark, hrun⟩ := run_bind_eq_ok hrun
      rw [run_mark] at hmark
      split at hmark
      · next hseen =>
          obtain ⟨rfl, rfl⟩ := Prod.mk.inj (Except.ok.inj hmark)
          obtain ⟨-, rfl⟩ := Prod.mk.inj (Except.ok.inj hrun)
          exact .seen path hseen
      · next hnew =>
          obtain ⟨rfl, rfl⟩ := Prod.mk.inj (Except.ok.inj hmark)
          obtain ⟨buildable, _, hnode, hrun⟩ := run_bind_eq_ok hrun
          obtain ⟨⟨⟩, _, hrecord, harguments⟩ := run_bind_eq_ok hrun
          obtain rfl := of_record hrecord
          cases hfound : graph.get? id with
          | none =>
              rw [graph.node_eq, hfound] at hnode
              contradiction
          | some found =>
              rw [graph.node_eq, hfound] at hnode
              obtain ⟨rfl, rfl⟩ := Prod.mk.inj (Except.ok.inj hnode)
              exact .node hnew hfound
                (walked_of_walkEntries (fun item _ => followed_walkValue ih item) harguments)

theorem walked_of_forM {follow : Value × Path → WalkM Unit}
    (h : ∀ place, Followed graph (follow place) place.1 place.2) {places : List (Value × Path)}
    (hrun : (places.forM follow).run before = .ok ((), after)) :
    Walked graph before places after := by
  induction places generalizing before with
  | nil =>
      obtain ⟨-, rfl⟩ := Prod.mk.inj (Except.ok.inj hrun)
      exact .nil before
  | cons place places ih =>
      obtain ⟨⟨⟩, between, hplace, hplaces⟩ := run_bind_eq_ok hrun
      exact .cons (h place _ _ hplace) (ih hplaces)

theorem walked_of_iterateAll {roots : List (Value × Path)} {entries : List (Visit × Path)}
    (h : graph.iterateAll roots = .ok entries) :
    ∃ after, Walked graph .empty roots after ∧ entries = after.entries.toList := by
  rw [ConfigGraph.iterateAll, bind_eq_ok_iff] at h
  obtain ⟨⟨⟨⟩, after⟩, hrun, hentries⟩ := h
  have hfollowed := fun place : Value × Path =>
    followed_walkValue (@followed_walkNode graph (graph.nodeCount + 1)) place.1 place.2
  exact ⟨after, walked_of_forM hfollowed hrun, (Except.ok.inj hentries).symm⟩

end Walk

end ConfigLowering
