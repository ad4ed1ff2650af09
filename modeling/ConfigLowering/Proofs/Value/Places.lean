import ConfigLowering.Path
import ConfigLowering.Proofs.Graph.Parts

/-!
# Places

Where the children of a value stand, and what a path leads to: it goes through containers
and code into their items, and through references into the arguments of config nodes.
-/

namespace ConfigLowering

def itemPlaces (path : Path) (items : List Value) (position : Nat) : List (Value × Path) :=
  (items.zipIdx position).map fun (item, index) => (item, path.child (.index index))

def entryPlaces (path : Path) (step : String → PathStep) (entries : List (String × Value)) :
    List (Value × Path) :=
  entries.map fun (name, item) => (item, path.child (step name))

/-- The children of a value that stands at a path, each with its own path. -/
def Value.places (path : Path) : Value → List (Value × Path)
  | list items | tuple items => itemPlaces path items 0
  | dict entries => entryPlaces path .key entries
  | call _ _ positional named _ => itemPlaces path positional 0 ++ entryPlaces path .field named
  | tagged _ _ item => [(item, path.child (.field "item_to_tag"))]
  | _ => []

theorem map_fst_itemPlaces (path : Path) (items : List Value) (position : Nat) :
    (itemPlaces path items position).map Prod.fst = items := by
  rw [itemPlaces, List.map_map]
  exact List.zipIdx_map_fst position items

theorem map_fst_entryPlaces (path : Path) (step : String → PathStep)
    (entries : List (String × Value)) :
    (entryPlaces path step entries).map Prod.fst = entries.map Prod.snd := by
  rw [entryPlaces, List.map_map]
  rfl

theorem Value.map_fst_places (path : Path) (value : Value) :
    (value.places path).map Prod.fst = value.children := by
  cases value <;> simp [places, children, map_fst_itemPlaces, map_fst_entryPlaces]

namespace ConfigGraph

variable {graph : ConfigGraph}

/-- The places one step below a place. -/
def places (graph : ConfigGraph) : Value × Path → List (Value × Path)
  | (.node id, path) =>
      (graph.get? id).elim [] fun buildable => entryPlaces path .field buildable.arguments.entries
  | (value, path) => value.places path

def Leads (graph : ConfigGraph) : Value × Path → Value × Path → Prop :=
  Relation.ReflTransGen fun place next => next ∈ graph.places place

theorem places_node {id : NodeId} {buildable : Buildable} (h : graph.get? id = some buildable)
    (path : Path) :
    graph.places (.node id, path) = entryPlaces path .field buildable.arguments.entries := by
  simp [places, h]

theorem places_value {value : Value} (h : value.asNode? = none) (path : Path) :
    graph.places (value, path) = value.places path := by
  cases value <;> simp_all [places, Value.asNode?]

/-- The places one step below a place hold its parts, in their order. -/
theorem map_fst_places (graph : ConfigGraph) (place : Value × Path) :
    (graph.places place).map Prod.fst = graph.parts place.1 := by
  obtain ⟨value, path⟩ := place
  cases hnode : value.asNode? with
  | none => rw [places_value hnode, Value.map_fst_places, graph.parts_eq_children hnode]
  | some id =>
      cases value <;> simp only [Value.asNode?, reduceCtorEq] at hnode
      case node id =>
        cases hfound : graph.get? id with
        | none => simp [places, parts, hfound]
        | some buildable =>
            rw [places_node hfound, map_fst_entryPlaces, parts_node hfound]
            rfl

end ConfigGraph

end ConfigLowering
