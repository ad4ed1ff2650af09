import ConfigLowering.Proofs.Arguments.Histories
import ConfigLowering.Transformer

/-!
# Rebuilding arguments

Arguments are transformed by putting what becomes of each value under its name, in order. Names
are distinct, so this loses none of them and moves none, whatever the transformation does.
-/

namespace ConfigLowering

namespace Arguments

section

variable {m : Type → Type} [Monad m] {α β : Type}

/-! ## Insertion one by one -/

/-- Inserts the result of an action under the name of the value that it came from. -/
def insertResult (action : String → α → m β) (mapped : Arguments β) (entry : String × α) :
    m (Arguments β) := do
  let result ← action entry.1 entry.2
  return (mapped.insert entry.1 result).2

/-- The arguments with the results of an action on the values, in order. -/
def mapNamed (action : String → α → m β) (arguments : Arguments α) : m (Arguments β) :=
  arguments.entries.foldlM (insertResult action) empty

/-- The result of an action, beside the name of the value that it came from. -/
def mapEntry (action : String → α → m β) (entry : String × α) : m (String × β) := do
  let result ← action entry.1 entry.2
  return (entry.1, result)

variable [LawfulMonad m]

theorem insertResult_of_not_mem {entry : String × α} {done : List (String × β)}
    (h : entry.1 ∉ done.map Prod.fst) (action : String → α → m β) :
    insertResult action ⟨done⟩ entry =
      (fun result => ⟨done ++ [result]⟩) <$> mapEntry action entry := by
  have hinsert : ∀ result : β, ((⟨done⟩ : Arguments β).insert entry.1 result).2 =
      ⟨done ++ [(entry.1, result)]⟩ :=
    fun result => congrArg mk (insertEntry_of_not_mem h result)
  simp only [insertResult, mapEntry, hinsert, map_bind, map_pure]

theorem names_mapM (entries : List (String × α)) (action : String → α → m β) :
    List.map Prod.fst <$> entries.mapM (mapEntry action) =
      (fun _ => entries.map Prod.fst) <$> entries.mapM (mapEntry action) := by
  induction entries with
  | nil => simp
  | cons entry entries ih =>
      have hcons := congrArg (Functor.map (entry.1 :: ·)) ih
      simp only [Functor.map_map] at hcons
      simp only [List.mapM_cons, mapEntry, bind_assoc, pure_bind, map_bind, map_pure, List.map_cons]
      refine bind_congr fun result => ?_
      simpa using hcons

/-- Behind entries with other names the results are inserted one after the other. -/
theorem foldlM_insertResult {rest : List (String × α)} {done : List (String × β)}
    (h : (done.map Prod.fst ++ rest.map Prod.fst).Nodup) (action : String → α → m β) :
    rest.foldlM (insertResult action) ⟨done⟩ =
      (fun results => ⟨done ++ results⟩) <$> rest.mapM (mapEntry action) := by
  induction rest generalizing done with
  | nil => simp
  | cons entry rest ih =>
      have hfresh : entry.1 ∉ done.map Prod.fst := fun hmem =>
        (List.nodup_append.mp h).2.2 entry.1 hmem entry.1 List.mem_cons_self rfl
      have hrest : ∀ result : β,
          ((done ++ [(entry.1, result)]).map Prod.fst ++ rest.map Prod.fst).Nodup := by
        intro result
        simpa using h
      rw [List.foldlM_cons, insertResult_of_not_mem hfresh, List.mapM_cons]
      simp only [mapEntry, bind_assoc, pure_bind, map_bind, map_pure]
      refine bind_congr fun result => ?_
      rw [ih (hrest result)]
      simp

theorem mapNamed_eq_mapM {arguments : Arguments α} (h : arguments.names.Nodup)
    (action : String → α → m β) :
    mapNamed action arguments = mk <$> arguments.entries.mapM (mapEntry action) := by
  have hall : (List.map Prod.fst ([] : List (String × β)) ++ arguments.names).Nodup := h
  rw [mapNamed, empty, foldlM_insertResult hall]
  rfl

theorem names_mapNamed {arguments : Arguments α} (h : arguments.names.Nodup)
    (action : String → α → m β) :
    names <$> mapNamed action arguments =
      (fun _ => arguments.names) <$> mapNamed action arguments := by
  rw [mapNamed_eq_mapM h, Functor.map_map, Functor.map_map]
  exact names_mapM arguments.entries action

end

/-! ## Transformed arguments -/

variable {σ ε : Type}

theorem transformEntries_eq_mapM (transformer : Transformer σ ε)
    (enter : NodeId → TransformM σ ε Value) (step : String → PathStep)
    (entries : List (String × Value)) :
    transformer.transformEntries enter step entries =
      entries.mapM (mapEntry fun name item =>
        TransformM.below (step name) (transformer.transformValue enter item)) := by
  induction entries with
  | nil => rfl
  | cons entry entries ih =>
      obtain ⟨name, item⟩ := entry
      rw [Transformer.transformEntries, ih, List.mapM_cons]
      simp only [mapEntry, bind_assoc, pure_bind]

/-- A transformer may as well insert what becomes of the arguments one by one. -/
theorem transformEntries_eq_mapNamed (transformer : Transformer σ ε)
    (enter : NodeId → TransformM σ ε Value) {arguments : Arguments Value}
    (h : arguments.names.Nodup) :
    mk <$> transformer.transformEntries enter .field arguments.entries =
      mapNamed (fun name item =>
        TransformM.below (.field name) (transformer.transformValue enter item)) arguments := by
  rw [transformEntries_eq_mapM, mapNamed_eq_mapM h]

/-- Whatever changes were made, names are distinct and stand in the order in which they were
inserted, the value of a name is the last one set since it is there, and a name is there from its
insertion to its removal. An insertion and a removal give the value from before. Names stay when
the values are mapped in order and inserted again, which is what a transformer does. -/
theorem insertion_ordered (changes : List (Change Value)) :
    (ofChanges changes).names.Nodup ∧
      ((ofChanges changes).names.Pairwise fun earlier later =>
        insertedAt earlier changes < insertedAt later changes) ∧
      (∀ name, (ofChanges changes).get? name = lastValue? name changes ∧
        (name ∈ (ofChanges changes).names ↔ lifetime name changes ≠ [])) ∧
      (∀ name value, ((ofChanges changes).insert name value).1 = (ofChanges changes).get? name ∧
        ((ofChanges changes).remove name).1 = (ofChanges changes).get? name) ∧
      (∀ (σ ε : Type) (action : String → Value → TransformM σ ε Value),
        names <$> mapNamed action (ofChanges changes) =
          (fun _ => (ofChanges changes).names) <$> mapNamed action (ofChanges changes)) ∧
      ∀ (σ ε : Type) (transformer : Transformer σ ε) (enter : NodeId → TransformM σ ε Value),
        mk <$> transformer.transformEntries enter .field (ofChanges changes).entries =
          mapNamed (fun name item =>
            TransformM.below (.field name) (transformer.transformValue enter item))
            (ofChanges changes) := by
  have h := reflects_ofChanges changes
  refine ⟨h.nodup, h.pairwise_insertedAt, fun name => ⟨h.get?_eq name, h.mem_iff name⟩,
    fun name value => ⟨insert_displaced _ name value, remove_removed _ name⟩, ?_, ?_⟩
  · exact fun σ ε action => names_mapNamed h.nodup action
  · exact fun σ ε transformer enter => transformEntries_eq_mapNamed transformer enter h.nodup

end Arguments

end ConfigLowering
