import ConfigLowering.Proofs.Document.Fields
import ConfigLowering.Proofs.Json.Nesting

/-!
# Documents survive serialization

A document is written as a tree from which it is read again, if its floating point numbers are
finite. The reader needs as many levels as the tree nests.
-/

namespace ConfigLowering

open Json (depth_array_le_iff depth_object_le_iff depth_variant_le_iff)

/-! ## Floating point numbers in documents -/

namespace DocumentValue

mutual

def floats : DocumentValue → List Float
  | float value => [value]
  | list items | tuple items => floatsOfItems items
  | dict entries => floatsOfEntries entries
  | none | bool _ | int _ | str _ | node _ | symbol _ => []

def floatsOfItems : List DocumentValue → List Float
  | [] => []
  | item :: items => item.floats ++ floatsOfItems items

def floatsOfEntries : List (String × DocumentValue) → List Float
  | [] => []
  | (_, item) :: entries => item.floats ++ floatsOfEntries entries

end

end DocumentValue

def NodeEntry.floats (node : NodeEntry) : List Float :=
  node.arguments.flatMap fun argument => (argument.value.map DocumentValue.floats).getD []

def floatsOfVariables (declarations : List VariableEntry) : List Float :=
  declarations.flatMap (·.value.floats)

namespace FixtureEntry

mutual

def floats : FixtureEntry → List Float
  | entry _ _ declarations output children =>
      floatsOfVariables declarations ++ output.floats ++ floatsOfChildren children

def floatsOfChildren : List FixtureEntry → List Float
  | [] => []
  | child :: children => child.floats ++ floatsOfChildren children

end

end FixtureEntry

def GraphDocument.floats (document : GraphDocument) : List Float :=
  document.nodes.flatMap NodeEntry.floats ++ document.fixture.floats

/-! ## Symbols and kinds -/

variable {levels : Nat}

theorem SymbolKind.ofJson?_name (kind : SymbolKind) (levels : Nat) :
    SymbolKind.ofJson? levels (.string kind.name) = some kind := by
  cases kind <;> cases levels <;> rfl

theorem BuildableKind.ofJson?_name (kind : BuildableKind) (levels : Nat) :
    BuildableKind.ofJson? levels (.string kind.name) = some kind := by
  cases kind <;> cases levels <;> rfl

theorem Symbol.ofJson?_toJson (symbol : Symbol) (hdepth : symbol.toJson.depth ≤ levels) :
    Symbol.ofJson? levels symbol.toJson = some symbol := by
  obtain ⟨below, rfl, -⟩ := depth_object_le_iff.mp hdepth
  have hrecord : symbol.toJson.record? ["module", "qualname", "kind"] (below + 1) =
      some (below, [some (.string symbol.module), some (.string symbol.qualname),
        some (.string symbol.kind.name)]) := rfl
  rw [Symbol.ofJson?_of_record hrecord]
  simp [Symbol.ofFields?, Json.required, Json.string?, Json.defaulted, SymbolKind.ofJson?_name]

/-! ## Values -/

namespace DocumentValue

theorem ofJson?_list (below : Nat) (items : List Json) :
    ofJson? (below + 2) (.object [("list", .array items)]) =
      (items.mapM (ofJson? below)).map .list := rfl

theorem ofJson?_tuple (below : Nat) (items : List Json) :
    ofJson? (below + 2) (.object [("tuple", .array items)]) =
      (items.mapM (ofJson? below)).map .tuple := rfl

theorem ofJson?_dict (below : Nat) (items : List Json) :
    ofJson? (below + 3) (.object [("dict", .array items)]) =
      (items.mapM (Json.pair? (ofJson? below))).map .dict := by
  cases items <;> rfl

theorem isInt64_toInt (value : Int64) : Decimal.isInt64 value.toInt := by
  rw [Decimal.isInt64, Bool.and_eq_true, decide_eq_true_iff, decide_eq_true_iff]
  exact ⟨value.le_toInt, value.toInt_lt⟩

theorem toJson_isNull (value : DocumentValue) : value.toJson.isNull = false := by
  cases value <;> rfl

mutual

theorem ofJson?_toJson (value : DocumentValue) {levels : Nat}
    (hdepth : value.toJson.depth ≤ levels) (hfinite : ∀ number ∈ value.floats, number.isFinite) :
    ofJson? levels value.toJson = some value := by
  cases value with
  | none => cases levels <;> rfl
  | bool _ | str _ | node _ =>
      obtain ⟨below, rfl, -⟩ := depth_variant_le_iff.mp hdepth
      rfl
  | int value =>
      obtain ⟨below, rfl, -⟩ := depth_variant_le_iff.mp hdepth
      change leaf? below "int" (.integer value.toInt) = _
      rw [leaf?, if_pos (isInt64_toInt value), Int64.ofInt_toInt]
  | float value =>
      obtain ⟨below, rfl, -⟩ := depth_variant_le_iff.mp hdepth
      rw [floats, List.forall_mem_singleton] at hfinite
      rw [toJson, Json.ofFloat, if_pos hfinite]
      rfl
  | symbol entity =>
      obtain ⟨below, rfl, hsymbol⟩ := depth_variant_le_iff.mp hdepth
      change (Symbol.ofJson? below entity.toJson).map DocumentValue.symbol = _
      rw [Symbol.ofJson?_toJson entity hsymbol, Option.map_some]
  | list items =>
      obtain ⟨_, rfl, harray⟩ := depth_variant_le_iff.mp hdepth
      obtain ⟨below, rfl, hitems⟩ := depth_array_le_iff.mp harray
      rw [toJson, ofJson?_list, mapM_itemsToJson items hitems hfinite, Option.map_some]
  | tuple items =>
      obtain ⟨_, rfl, harray⟩ := depth_variant_le_iff.mp hdepth
      obtain ⟨below, rfl, hitems⟩ := depth_array_le_iff.mp harray
      rw [toJson, ofJson?_tuple, mapM_itemsToJson items hitems hfinite, Option.map_some]
  | dict entries =>
      obtain ⟨_, rfl, harray⟩ := depth_variant_le_iff.mp hdepth
      obtain ⟨_, rfl, hentries⟩ := depth_array_le_iff.mp harray
      cases entries with
      | nil => rfl
      | cons entry entries =>
          obtain ⟨below, rfl, -⟩ := depth_array_le_iff.mp (hentries _ List.mem_cons_self)
          rw [toJson, ofJson?_dict, mapM_entriesToJson (entry :: entries) hentries hfinite,
            Option.map_some]

theorem mapM_itemsToJson (items : List DocumentValue) {levels : Nat}
    (hdepth : ∀ json ∈ itemsToJson items, json.depth ≤ levels)
    (hfinite : ∀ number ∈ floatsOfItems items, number.isFinite) :
    (itemsToJson items).mapM (ofJson? levels) = some items := by
  cases items with
  | nil => rfl
  | cons item items =>
      rw [itemsToJson, List.forall_mem_cons] at hdepth
      rw [floatsOfItems, List.forall_mem_append] at hfinite
      have hfirst := ofJson?_toJson item hdepth.1 hfinite.1
      have hrest := mapM_itemsToJson items hdepth.2 hfinite.2
      simp [itemsToJson, hfirst, hrest]

theorem mapM_entriesToJson (entries : List (String × DocumentValue)) {levels : Nat}
    (hdepth : ∀ json ∈ entriesToJson entries, json.depth ≤ levels + 1)
    (hfinite : ∀ number ∈ floatsOfEntries entries, number.isFinite) :
    (entriesToJson entries).mapM (Json.pair? (ofJson? levels)) = some entries := by
  cases entries with
  | nil => rfl
  | cons entry entries =>
      rw [entriesToJson, List.forall_mem_cons] at hdepth
      rw [floatsOfEntries, List.forall_mem_append] at hfinite
      obtain ⟨below, hbelow, hpair⟩ := depth_array_le_iff.mp hdepth.1
      obtain rfl := Nat.succ.inj hbelow
      have hvalue := hpair _ (List.mem_cons_of_mem _ List.mem_cons_self)
      have hfirst := ofJson?_toJson entry.2 hvalue hfinite.1
      have hrest := mapM_entriesToJson entries hdepth.2 hfinite.2
      have hentry : Json.pair? (ofJson? levels)
          (.pair (.string entry.1) entry.2.toJson) = some entry := by
        rw [Json.pair, Json.pair?, hfirst]
        rfl
      simp [entriesToJson, hentry, hrest]

end

end DocumentValue

/-! ## Nodes -/

theorem ArgumentEntry.ofJson?_toJson (argument : ArgumentEntry)
    (hdepth : argument.toJson.depth ≤ levels)
    (hfinite : ∀ number ∈ (argument.value.map DocumentValue.floats).getD [], number.isFinite) :
    ArgumentEntry.ofJson? levels argument.toJson = some argument := by
  obtain ⟨below, rfl, hfields⟩ := depth_object_le_iff.mp hdepth
  obtain ⟨name, value, tags⟩ := argument
  have hrecord : (toJson ⟨name, value, tags⟩).record? ["name", "value", "tags"] (below + 1) =
      some (below, [some (.string name), value.map DocumentValue.toJson,
        if tags.isEmpty then none else some (.ofList Symbol.toJson tags)]) := by
    cases value <;> cases tags <;> rfl
  have hvalue : Json.nullable (DocumentValue.ofJson? below) (value.map DocumentValue.toJson) =
      some value := by
    cases value with
    | none => rfl
    | some value =>
        have hread := value.ofJson?_toJson (hfields ("value", value.toJson) (by simp)) hfinite
        rw [Option.map_some, Json.nullable_some, value.toJson_isNull, hread]
        rfl
  have htags : Json.listField below Symbol.ofJson?
      (if tags.isEmpty then none else some (.ofList Symbol.toJson tags)) = some tags := by
    cases tags with
    | nil => rfl
    | cons tag tags =>
        refine Json.listField_ofList (hfields ("tags", .ofList Symbol.toJson (tag :: tags)) ?_)
          fun tag _ _ hdepth => tag.ofJson?_toJson hdepth
        simp
  rw [ofJson?_of_record hrecord, ofFields?, hvalue, htags]
  rfl

theorem NodeEntry.ofJson?_toJson (node : NodeEntry) (hdepth : node.toJson.depth ≤ levels)
    (hfinite : ∀ number ∈ node.floats, number.isFinite) :
    NodeEntry.ofJson? levels node.toJson = some node := by
  obtain ⟨below, rfl, hfields⟩ := depth_object_le_iff.mp hdepth
  obtain ⟨id, kind, callable, arguments⟩ := node
  have hrecord : (toJson ⟨id, kind, callable, arguments⟩).record?
      ["id", "kind", "callable", "arguments"] (below + 1) =
        some (below, [some (.string id), some (.string kind.name), some callable.toJson,
          some (.ofList ArgumentEntry.toJson arguments)]) := rfl
  have hcallable : Symbol.ofJson? below callable.toJson = some callable :=
    callable.ofJson?_toJson (hfields ("callable", callable.toJson) (by simp))
  have harguments : Json.listField below ArgumentEntry.ofJson?
      (some (.ofList ArgumentEntry.toJson arguments)) = some arguments := by
    refine Json.listField_ofList
      (hfields ("arguments", .ofList ArgumentEntry.toJson arguments) (by simp)) ?_
    intro argument hargument below hdepth
    refine argument.ofJson?_toJson hdepth fun number hnumber => hfinite number ?_
    exact List.mem_flatMap.mpr ⟨argument, hargument, hnumber⟩
  rw [ofJson?_of_record hrecord, ofFields?, harguments]
  simp [Json.required, Json.string?, Json.defaulted, BuildableKind.ofJson?_name, hcallable]

/-! ## Fixtures -/

theorem VariableEntry.ofJson?_toJson (declaration : VariableEntry)
    (hdepth : declaration.toJson.depth ≤ levels)
    (hfinite : ∀ number ∈ declaration.value.floats, number.isFinite) :
    VariableEntry.ofJson? levels declaration.toJson = some declaration := by
  obtain ⟨below, rfl, hfields⟩ := depth_object_le_iff.mp hdepth
  obtain ⟨name, value⟩ := declaration
  have hrecord : (toJson ⟨name, value⟩).record? ["name", "value"] (below + 1) =
      some (below, [some (.string name), some value.toJson]) := rfl
  have hvalue := value.ofJson?_toJson (hfields ("value", value.toJson) (by simp)) hfinite
  rw [ofJson?_of_record hrecord]
  simp [ofFields?, Json.required, Json.string?, hvalue]

theorem listField_variables (declarations : List VariableEntry)
    (hdepth : (Json.ofList VariableEntry.toJson declarations).depth ≤ levels)
    (hfinite : ∀ number ∈ floatsOfVariables declarations, number.isFinite) :
    Json.listField levels VariableEntry.ofJson?
      (some (.ofList VariableEntry.toJson declarations)) = some declarations := by
  refine Json.listField_ofList hdepth fun declaration hmem below hbelow => ?_
  refine declaration.ofJson?_toJson hbelow fun number hnumber => hfinite number ?_
  exact List.mem_flatMap.mpr ⟨declaration, hmem, hnumber⟩

theorem listField_texts (texts : List String)
    (hdepth : (Json.ofList Json.string texts).depth ≤ levels) :
    Json.listField levels Json.text? (some (.ofList Json.string texts)) = some texts :=
  Json.listField_ofList hdepth fun _ _ _ _ => rfl

namespace FixtureEntry

mutual

theorem ofJson?_toJson (fixture : FixtureEntry) {levels : Nat}
    (hdepth : fixture.toJson.depth ≤ levels)
    (hfinite : ∀ number ∈ fixture.floats, number.isFinite) :
    ofJson? levels fixture.toJson = some fixture := by
  obtain ⟨name, parameters, declarations, output, children⟩ := fixture
  obtain ⟨below, rfl, hfields⟩ := depth_object_le_iff.mp hdepth
  simp only [List.forall_mem_cons] at hfields
  obtain ⟨-, hparameters, hdeclarations, houtput, hchildren, -⟩ := hfields
  rw [floats, List.forall_mem_append, List.forall_mem_append] at hfinite
  have hvalues : (toJson (.entry name parameters declarations output children)).fieldValues
      fieldNames = some [some (.string name), some (.ofList .string parameters),
        some (.ofList VariableEntry.toJson declarations), some output.toJson,
        some (.array (childrenToJson children))] := rfl
  have hread : Json.listField below ofJson? (some (.array (childrenToJson children))) =
      some children := by
    obtain ⟨below, rfl, hitems⟩ := depth_array_le_iff.mp hchildren
    exact mapM_childrenToJson children hitems hfinite.2
  rw [ofJson?_succ, ofFields?_of_fieldValues hvalues, ofParts?, hread,
    listField_texts parameters hparameters,
    listField_variables declarations hdeclarations hfinite.1.1]
  simp [Json.required, Json.string?, output.ofJson?_toJson houtput hfinite.1.2]

theorem mapM_childrenToJson (children : List FixtureEntry) {levels : Nat}
    (hdepth : ∀ json ∈ childrenToJson children, json.depth ≤ levels)
    (hfinite : ∀ number ∈ floatsOfChildren children, number.isFinite) :
    (childrenToJson children).mapM (ofJson? levels) = some children := by
  cases children with
  | nil => rfl
  | cons child children =>
      rw [childrenToJson, List.forall_mem_cons] at hdepth
      rw [floatsOfChildren, List.forall_mem_append] at hfinite
      have hfirst := ofJson?_toJson child hdepth.1 hfinite.1
      have hrest := mapM_childrenToJson children hdepth.2 hfinite.2
      simp [childrenToJson, hfirst, hrest]

end

end FixtureEntry

/-! ## Documents -/

theorem GraphDocument.ofJson?_toJson (document : GraphDocument)
    (hdepth : document.toJson.depth ≤ levels)
    (hfinite : ∀ number ∈ document.floats, number.isFinite) :
    GraphDocument.ofJson? levels document.toJson = some document := by
  obtain ⟨below, rfl, hfields⟩ := depth_object_le_iff.mp hdepth
  obtain ⟨nodes, fixture⟩ := document
  simp only [List.forall_mem_cons] at hfields
  obtain ⟨hnodes, hfixture, -⟩ := hfields
  obtain ⟨hnodeFloats, hfixtureFloats⟩ := List.forall_mem_append.mp hfinite
  have hrecord : (toJson ⟨nodes, fixture⟩).record? ["nodes", "fixture"] (below + 1) =
      some (below, [some (.ofList NodeEntry.toJson nodes), some fixture.toJson]) := rfl
  have hread : Json.listField below NodeEntry.ofJson? (some (.ofList NodeEntry.toJson nodes)) =
      some nodes := by
    refine Json.listField_ofList hnodes fun node hnode below hbelow => ?_
    refine node.ofJson?_toJson hbelow fun number hnumber => hnodeFloats number ?_
    exact List.mem_flatMap.mpr ⟨node, hnode, hnumber⟩
  rw [ofJson?_of_record hrecord, ofFields?, hread]
  simp [Json.required, fixture.ofJson?_toJson hfixture hfixtureFloats]

end ConfigLowering
