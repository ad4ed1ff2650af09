import ConfigLowering.Proofs.Substitution.Translation
import ConfigLowering.Proofs.Value.Objects

/-!
# Origins by place

Which part of the input each object of a translated body is made for. Identities do
nothing else than name these origins: other identities give the same translation with
other names.
-/

namespace ConfigLowering

namespace ConfigGraph

/-! ## Origins -/

mutual

/-- The origin of the object at each place of a value's translation. -/
def originsOfValue (enter : NodeId → List Origin) : Value → List Origin
  | .node id => enter id
  | .list items | .tuple items => originsOfItems enter items
  | .dict entries => originsOfEntries enter entries
  | .call id _ positional named _ =>
      .code id :: (originsOfItems enter positional ++ originsOfEntries enter named)
  | .tagged id _ item => .code id :: originsOfValue enter item
  | _ => []

def originsOfItems (enter : NodeId → List Origin) : List Value → List Origin
  | [] => []
  | item :: items => originsOfValue enter item ++ originsOfItems enter items

def originsOfEntries (enter : NodeId → List Origin) : List (String × Value) → List Origin
  | [] => []
  | (_, item) :: entries => originsOfValue enter item ++ originsOfEntries enter entries

end

def originsOfArgument (id : NodeId) (buildable : Buildable) (enter : NodeId → List Origin)
    (argument : String × Value) : List Origin :=
  if (buildable.tagsOf argument.1).isEmpty then originsOfValue enter argument.2
  else .wrapper id argument.1 :: originsOfValue enter argument.2

def originsOfNode (graph : ConfigGraph) : Nat → NodeId → List Origin
  | 0, _ => []
  | depth + 1, id =>
      match graph.get? id with
      | none => []
      | some buildable =>
          .node id :: buildable.arguments.entries.flatMap
            (originsOfArgument id buildable (originsOfNode graph depth))

def origins (graph : ConfigGraph) (depth : Nat) : Value → List Origin :=
  originsOfValue (graph.originsOfNode depth)

end ConfigGraph

namespace Translation

variable (translation : Translation)

/-! ## Objects of a translation -/

mutual

theorem objects_ofValue {enter : NodeId → Option Value} {origins : NodeId → List Origin}
    (henter : ∀ id result, enter id = some result →
      result.objects = (origins id).map translation.identity) (value : Value) :
    ∀ result, translation.ofValue enter value = some result →
      result.objects = (ConfigGraph.originsOfValue origins value).map translation.identity := by
  intro result h
  cases value with
  | node id => exact henter id result h
  | list items =>
      obtain ⟨results, hitems, ⟨⟩⟩ := Option.bind_eq_some_iff.mp h
      exact objects_ofItems henter items results hitems
  | tuple items =>
      obtain ⟨results, hitems, ⟨⟩⟩ := Option.bind_eq_some_iff.mp h
      exact objects_ofItems henter items results hitems
  | dict entries =>
      obtain ⟨results, hentries, ⟨⟩⟩ := Option.bind_eq_some_iff.mp h
      exact objects_ofEntries henter entries results hentries
  | call id callee positional named history =>
      obtain ⟨firsts, hpositional, h⟩ := Option.bind_eq_some_iff.mp h
      obtain ⟨seconds, hnamed, ⟨⟩⟩ := Option.bind_eq_some_iff.mp h
      simp [Value.objects, ConfigGraph.originsOfValue,
        objects_ofItems henter positional firsts hpositional,
        objects_ofEntries henter named seconds hnamed]
  | tagged id tagNames item =>
      obtain ⟨transformed, hitem, ⟨⟩⟩ := Option.bind_eq_some_iff.mp h
      simp [Value.objects, ConfigGraph.originsOfValue,
        objects_ofValue henter item transformed hitem]
  | symbol symbol =>
      rw [ofValue] at h
      split at h <;> obtain rfl := Option.some.inj h <;> rfl
  | _ =>
      obtain rfl := Option.some.inj h
      rfl

theorem objects_ofItems {enter : NodeId → Option Value} {origins : NodeId → List Origin}
    (henter : ∀ id result, enter id = some result →
      result.objects = (origins id).map translation.identity) (items : List Value) :
    ∀ results, translation.ofItems enter items = some results →
      Value.objectsOfItems results =
        (ConfigGraph.originsOfItems origins items).map translation.identity := by
  intro results h
  cases items with
  | nil =>
      obtain rfl := Option.some.inj h
      rfl
  | cons item items =>
      obtain ⟨result, hitem, h⟩ := Option.bind_eq_some_iff.mp h
      obtain ⟨rest, hitems, ⟨⟩⟩ := Option.bind_eq_some_iff.mp h
      simp [Value.objectsOfItems, ConfigGraph.originsOfItems,
        objects_ofValue henter item result hitem, objects_ofItems henter items rest hitems]

theorem objects_ofEntries {enter : NodeId → Option Value} {origins : NodeId → List Origin}
    (henter : ∀ id result, enter id = some result →
      result.objects = (origins id).map translation.identity)
    (entries : List (String × Value)) :
    ∀ results, translation.ofEntries enter entries = some results →
      Value.objectsOfEntries results =
        (ConfigGraph.originsOfEntries origins entries).map translation.identity := by
  intro results h
  cases entries with
  | nil =>
      obtain rfl := Option.some.inj h
      rfl
  | cons entry entries =>
      obtain ⟨name, item⟩ := entry
      obtain ⟨result, hitem, h⟩ := Option.bind_eq_some_iff.mp h
      obtain ⟨rest, hentries, ⟨⟩⟩ := Option.bind_eq_some_iff.mp h
      simp [Value.objectsOfEntries, ConfigGraph.originsOfEntries,
        objects_ofValue henter item result hitem, objects_ofEntries henter entries rest hentries]

end

theorem objects_attach {id : NodeId} {buildable : Buildable} {field : String}
    {item : Value} {argument : String × Value}
    (h : translation.attach id buildable (field, item) = some argument) :
    argument.2.objects =
      (if (buildable.tagsOf field).isEmpty then []
        else [translation.identity (.wrapper id field)]) ++ item.objects := by
  rw [attach] at h
  split at h
  · next htags =>
      obtain rfl := Option.some.inj h
      simp [htags]
  · next htags =>
      obtain ⟨tagNames, -, ⟨⟩⟩ := Option.bind_eq_some_iff.mp h
      simp [htags, Value.objects]

theorem objects_arguments {enter : NodeId → Option Value} {origins : NodeId → List Origin}
    (henter : ∀ id result, enter id = some result →
      result.objects = (origins id).map translation.identity)
    (id : NodeId) (buildable : Buildable) (entries : List (String × Value))
    {items arguments : List (String × Value)}
    (hitems : translation.ofEntries enter entries = some items)
    (harguments : items.mapM (translation.attach id buildable) = some arguments) :
    Value.objectsOfEntries arguments =
      (entries.flatMap (ConfigGraph.originsOfArgument id buildable origins)).map
        translation.identity := by
  induction entries generalizing items arguments with
  | nil =>
      obtain rfl := Option.some.inj hitems
      obtain rfl : [] = arguments := by simpa using harguments
      rfl
  | cons entry entries ih =>
      obtain ⟨field, value⟩ := entry
      obtain ⟨item, hitem, hitems⟩ := Option.bind_eq_some_iff.mp hitems
      obtain ⟨rest, hrest, ⟨⟩⟩ := Option.bind_eq_some_iff.mp hitems
      rw [List.mapM_cons] at harguments
      obtain ⟨argument, hargument, harguments⟩ := Option.bind_eq_some_iff.mp harguments
      obtain ⟨others, hothers, ⟨⟩⟩ := Option.bind_eq_some_iff.mp harguments
      have hfirst := translation.objects_attach hargument
      rw [translation.objects_ofValue henter value item hitem] at hfirst
      simp only [Value.objectsOfEntries, hfirst, ih hrest hothers, List.flatMap_cons,
        ConfigGraph.originsOfArgument]
      split <;> simp

theorem objects_ofNode (depth : Nat) (id : NodeId) (result : Value)
    (h : translation.ofNode depth id = some result) :
    result.objects = (translation.graph.originsOfNode depth id).map translation.identity := by
  induction depth generalizing id result with
  | zero => simp [ofNode] at h
  | succ depth ih =>
      obtain ⟨buildable, hnode, h⟩ := Option.bind_eq_some_iff.mp h
      obtain ⟨callee, -, h⟩ := Option.bind_eq_some_iff.mp h
      obtain ⟨items, hitems, h⟩ := Option.bind_eq_some_iff.mp h
      obtain ⟨arguments, harguments, ⟨⟩⟩ := Option.bind_eq_some_iff.mp h
      simp [Value.objects, Value.objectsOfItems, ConfigGraph.originsOfNode, hnode,
        translation.objects_arguments ih id buildable _ hitems harguments]

/-- The objects of a translated value are named after their origins, place by place. -/
theorem objects_translate {depth : Nat} {value result : Value}
    (h : translation.translate depth value = some result) :
    result.objects = (translation.graph.origins depth value).map translation.identity :=
  translation.objects_ofValue (translation.objects_ofNode depth) value result h

theorem objects_of_translate {depth : Nat} {values results : List Value}
    (h : values.map (translation.translate depth) = results.map some) :
    results.flatMap Value.objects =
      (values.flatMap (translation.graph.origins depth)).map translation.identity := by
  induction values generalizing results with
  | nil =>
      obtain rfl : results = [] := by simpa using h.symm
      rfl
  | cons value values ih =>
      cases results with
      | nil => simp at h
      | cons result results =>
          obtain ⟨hvalue, hvalues⟩ := List.cons.inj h
          rw [List.flatMap_cons, List.flatMap_cons, List.map_append, ih hvalues,
            translation.objects_translate hvalue]

/-! ## Other identities -/

def relabeled (change : CodeId → CodeId) : Translation :=
  { translation with identity := fun origin => change (translation.identity origin) }

variable (change : CodeId → CodeId)

@[simp] theorem graph_relabeled : (translation.relabeled change).graph = translation.graph := rfl

@[simp] theorem imports_relabeled :
    (translation.relabeled change).imports = translation.imports := rfl

@[simp] theorem baseModule_relabeled :
    (translation.relabeled change).baseModule = translation.baseModule := rfl

mutual

theorem ofValue_relabeled {enter changed : NodeId → Option Value}
    (henter : ∀ id, changed id = (enter id).map (Value.relabel change)) (value : Value) :
    (translation.relabeled change).ofValue changed value =
      (translation.ofValue enter value).map (Value.relabel change) := by
  cases value with
  | node id => exact henter id
  | list items =>
      simp only [ofValue, ofItems_relabeled henter items]
      cases translation.ofItems enter items <;> rfl
  | tuple items =>
      simp only [ofValue, ofItems_relabeled henter items]
      cases translation.ofItems enter items <;> rfl
  | dict entries =>
      simp only [ofValue, ofEntries_relabeled henter entries]
      cases translation.ofEntries enter entries <;> rfl
  | call id callee positional named history =>
      simp only [ofValue, ofItems_relabeled henter positional,
        ofEntries_relabeled henter named]
      cases translation.ofItems enter positional <;>
        cases translation.ofEntries enter named <;> rfl
  | tagged id tagNames item =>
      simp only [ofValue, ofValue_relabeled henter item]
      cases translation.ofValue enter item <;> rfl
  | symbol symbol =>
      simp only [ofValue]
      split <;> rfl
  | _ => rfl

theorem ofItems_relabeled {enter changed : NodeId → Option Value}
    (henter : ∀ id, changed id = (enter id).map (Value.relabel change))
    (items : List Value) :
    (translation.relabeled change).ofItems changed items =
      (translation.ofItems enter items).map (Value.relabelItems change) := by
  cases items with
  | nil => rfl
  | cons item items =>
      simp only [ofItems, ofValue_relabeled henter item, ofItems_relabeled henter items]
      cases translation.ofValue enter item <;> cases translation.ofItems enter items <;> rfl

theorem ofEntries_relabeled {enter changed : NodeId → Option Value}
    (henter : ∀ id, changed id = (enter id).map (Value.relabel change))
    (entries : List (String × Value)) :
    (translation.relabeled change).ofEntries changed entries =
      (translation.ofEntries enter entries).map (Value.relabelEntries change) := by
  cases entries with
  | nil => rfl
  | cons entry entries =>
      obtain ⟨name, item⟩ := entry
      simp only [ofEntries, ofValue_relabeled henter item,
        ofEntries_relabeled henter entries]
      cases translation.ofValue enter item <;> cases translation.ofEntries enter entries <;> rfl

end

theorem attach_relabeled (id : NodeId) (buildable : Buildable) (field : String)
    (item : Value) :
    (translation.relabeled change).attach id buildable (field, item.relabel change) =
      (translation.attach id buildable (field, item)).map
        fun (field, item) => (field, item.relabel change) := by
  simp only [attach]
  split
  · rfl
  · rw [imports_relabeled]
    cases (buildable.tagsOf field).toList.mapM translation.imports.nameOf? <;> rfl

theorem attachEach_relabeled (id : NodeId) (buildable : Buildable)
    (items : List (String × Value)) :
    (Value.relabelEntries change items).mapM
        ((translation.relabeled change).attach id buildable) =
      (items.mapM (translation.attach id buildable)).map (Value.relabelEntries change) := by
  induction items with
  | nil => rfl
  | cons entry items ih =>
      obtain ⟨field, item⟩ := entry
      simp only [Value.relabelEntries, List.mapM_cons, attach_relabeled, ih]
      cases translation.attach id buildable (field, item) <;>
        cases items.mapM (translation.attach id buildable) <;> rfl

theorem ofNode_relabeled (depth : Nat) (id : NodeId) :
    (translation.relabeled change).ofNode depth id =
      (translation.ofNode depth id).map (Value.relabel change) := by
  induction depth generalizing id with
  | zero => rfl
  | succ depth ih =>
      simp only [ofNode, translation.ofEntries_relabeled change ih, graph_relabeled,
        imports_relabeled, baseModule_relabeled]
      cases translation.graph.get? id with
      | none => rfl
      | some buildable =>
          simp only [Option.bind_eq_bind, Option.bind_some]
          cases translation.imports.nameOf? (buildable.kind.wrapper translation.baseModule) with
          | none => rfl
          | some callee =>
              cases translation.ofEntries (translation.ofNode depth)
                buildable.arguments.entries with
              | none => rfl
              | some items =>
                  simp only [Option.bind_some, Option.map_some, attachEach_relabeled]
                  cases items.mapM (translation.attach id buildable) <;> rfl

theorem translate_relabeled (depth : Nat) (value : Value) :
    (translation.relabeled change).translate depth value =
      (translation.translate depth value).map (Value.relabel change) :=
  translation.ofValue_relabeled change (translation.ofNode_relabeled change depth) value

end Translation

end ConfigLowering
