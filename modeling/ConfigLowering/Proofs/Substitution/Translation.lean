import ConfigLowering.Proofs.Graph.Parts
import ConfigLowering.Substitution

/-!
# Translation

What the substitution makes of a body, said by plain recursion: nothing is kept and
no name is registered. Names are read off one import manager, and the identity of an
object off its origin, the part of the input that it is made for.
-/

namespace ConfigLowering

inductive Origin where
  | node (id : NodeId)
  /-- The tags on a field of a config node. -/
  | wrapper (id : NodeId) (field : String)
  | code (id : CodeId)
  deriving DecidableEq, Repr

structure Translation where
  graph : ConfigGraph
  imports : ImportManager
  baseModule : String
  history : Buildable → History
  identity : Origin → CodeId

namespace Translation

/-! ## Values -/

mutual

def ofValue (translation : Translation) (enter : NodeId → Option Value) :
    Value → Option Value
  | .node id => enter id
  | .list items => do
      return .list (← ofItems translation enter items)
  | .tuple items => do
      return .tuple (← ofItems translation enter items)
  | .dict entries => do
      return .dict (← ofEntries translation enter entries)
  | .call id callee positional named history => do
      let positional ← ofItems translation enter positional
      let named ← ofEntries translation enter named
      return .call (translation.identity (.code id)) callee positional named history
  | .tagged id tagNames item => do
      let item ← ofValue translation enter item
      return .tagged (translation.identity (.code id)) tagNames item
  | .symbol symbol =>
      if (Value.symbol symbol).role = .importableSymbol then some (.reference symbol)
      else some (.symbol symbol)
  | leaf => some leaf

def ofItems (translation : Translation) (enter : NodeId → Option Value) :
    List Value → Option (List Value)
  | [] => some []
  | item :: items => do
      let item ← ofValue translation enter item
      return item :: (← ofItems translation enter items)

def ofEntries (translation : Translation) (enter : NodeId → Option Value) :
    List (String × Value) → Option (List (String × Value))
  | [] => some []
  | (name, item) :: entries => do
      let item ← ofValue translation enter item
      return (name, item) :: (← ofEntries translation enter entries)

end

/-! ## Config nodes -/

/-- An argument as it is, or with the names of its field's tags if there are any. -/
def attach (translation : Translation) (id : NodeId) (buildable : Buildable) :
    String × Value → Option (String × Value)
  | (field, item) =>
      if (buildable.tagsOf field).isEmpty then some (field, item)
      else do
        let tagNames ← (buildable.tagsOf field).toList.mapM translation.imports.nameOf?
        return (field, .tagged (translation.identity (.wrapper id field)) tagNames item)

/-- The depth bounds how many references are followed one inside the other. -/
def ofNode (translation : Translation) : Nat → NodeId → Option Value
  | 0, _ => none
  | depth + 1, id => do
      let buildable ← translation.graph.get? id
      let callee ← translation.imports.nameOf? (buildable.kind.wrapper translation.baseModule)
      let items ← translation.ofEntries (ofNode translation depth) buildable.arguments.entries
      let arguments ← items.mapM (translation.attach id buildable)
      return .call (translation.identity (.node id)) callee [.reference buildable.callable]
        arguments (translation.history buildable)

def translate (translation : Translation) (depth : Nat) : Value → Option Value :=
  translation.ofValue (translation.ofNode depth)

variable (translation : Translation) (enter : NodeId → Option Value)

/-! ## Values from their parts -/

theorem ofItems_eq {items results : List Value}
    (h : items.map (translation.ofValue enter) = results.map some) :
    translation.ofItems enter items = some results := by
  induction items generalizing results with
  | nil => simp_all [ofItems]
  | cons item items ih =>
      cases results with
      | nil => simp at h
      | cons result results =>
          obtain ⟨hitem, hitems⟩ := List.cons.inj h
          simp [ofItems, hitem, ih hitems]

theorem ofEntries_eq {entries : List (String × Value)} {results : List Value}
    (h : (entries.map Prod.snd).map (translation.ofValue enter) = results.map some) :
    translation.ofEntries enter entries = some ((entries.map Prod.fst).zip results) := by
  induction entries generalizing results with
  | nil => simp_all [ofEntries]
  | cons entry entries ih =>
      cases results with
      | nil => simp at h
      | cons result results =>
          obtain ⟨hitem, hitems⟩ := List.cons.inj h
          simp [ofEntries, hitem, ih hitems]

theorem ofValue_rebuild {value : Value} {results : List Value} (id : CodeId)
    (hnode : value.asNode? = none) (hrole : value.role = .ordinary)
    (hid : ∀ code, value.codeId? = some code → id = translation.identity (.code code))
    (h : value.children.map (translation.ofValue enter) = results.map some) :
    translation.ofValue enter value = some (value.rebuild id results) := by
  cases value with
  | node => simp [Value.asNode?] at hnode
  | symbol => simp [ofValue, hrole, Value.rebuild]
  | list items =>
      have hitems : translation.ofItems enter items = some results :=
        translation.ofItems_eq enter h
      simp [ofValue, hitems, Value.rebuild]
  | tuple items =>
      have hitems : translation.ofItems enter items = some results :=
        translation.ofItems_eq enter h
      simp [ofValue, hitems, Value.rebuild]
  | dict entries => simp [ofValue, translation.ofEntries_eq enter h, Value.rebuild]
  | call code callee positional named history =>
      obtain ⟨firsts, seconds, rfl, hfirsts, hseconds⟩ :=
        List.append_eq_map_iff.mp ((List.map_append ..).symm.trans h)
      have hlength : firsts.length = positional.length := by
        simpa using (congrArg List.length hfirsts)
      simp [ofValue, translation.ofItems_eq enter hfirsts.symm,
        translation.ofEntries_eq enter hseconds.symm, hid code rfl, Value.rebuild, ← hlength]
  | tagged code tagNames item =>
      obtain ⟨result, rfl⟩ : ∃ result, results = [result] := by
        have hlength := congrArg List.length h
        simpa [Value.children, eq_comm, List.length_eq_one_iff] using hlength
      have hitem : translation.ofValue enter item = some result := by
        simpa [Value.children] using h
      simp [ofValue, hitem, hid code rfl, Value.rebuild]
  | _ => rfl

theorem mapM_eq_some {α β : Type} {change : α → Option β} {items : List α}
    {results : List β} (h : items.map change = results.map some) :
    items.mapM change = some results := by
  induction items generalizing results with
  | nil => simp_all
  | cons item items ih =>
      cases results with
      | nil => simp at h
      | cons result results =>
          obtain ⟨hitem, hitems⟩ := List.cons.inj h
          simp [hitem, ih hitems]

theorem ofNode_call {id : NodeId} {buildable : Buildable} {callee : String} {depth : Nat}
    {results : List Value} {arguments : List (String × Value)}
    (hnode : translation.graph.get? id = some buildable)
    (hcallee : translation.imports.nameOf? (buildable.kind.wrapper translation.baseModule) =
      some callee)
    (hresults : buildable.arguments.values.map (translation.translate depth) =
      results.map some)
    (harguments : (buildable.arguments.names.zip results).map
      (translation.attach id buildable) = arguments.map some) :
    translation.ofNode (depth + 1) id =
      some (.call (translation.identity (.node id)) callee [.reference buildable.callable]
        arguments (translation.history buildable)) := by
  have hitems := translation.ofEntries_eq (translation.ofNode depth) hresults
  have hattached := mapM_eq_some harguments
  rw [Arguments.names] at hattached
  simp [ofNode, hnode, hcallee, hitems, hattached]

end Translation

end ConfigLowering
