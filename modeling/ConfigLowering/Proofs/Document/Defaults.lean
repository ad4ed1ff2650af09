import ConfigLowering.Proofs.Document.Serialization
import ConfigLowering.Proofs.Json.Defaults

/-!
# Fields left out of documents

A document may leave out every field that has a default: the kinds of symbols and nodes, the
arguments, tags and values, the parameters, variables and children of fixtures, and the nodes.
It then reads as the document that spells these fields out.
-/

namespace ConfigLowering

open Json (FieldRule SpelledRecord SpelledList SpelledEntry SpelledVariant Fits
  required defaulted nullable listField)

/-! ## Rules -/

def Symbol.rules : List FieldRule := [
  ⟨"module", none, Eq⟩, ⟨"qualname", none, Eq⟩,
  ⟨"kind", some (.string SymbolKind.function.name), Eq⟩]

def Symbol.Spelled : Json → Json → Prop := SpelledRecord Symbol.rules

/-- Spelled out in the outermost layers of values. -/
def DocumentValue.Spelled : Nat → Json → Json → Prop
  | 0 => Eq
  | layers + 1 => SpelledVariant [
      ("symbol", Symbol.Spelled),
      ("list", SpelledList (Spelled layers)),
      ("tuple", SpelledList (Spelled layers)),
      ("dict", SpelledList (SpelledEntry (Spelled layers)))]

def ArgumentEntry.rules (layers : Nat) : List FieldRule := [
  ⟨"name", none, Eq⟩, ⟨"value", some .null, DocumentValue.Spelled layers⟩,
  ⟨"tags", some (.array []), SpelledList Symbol.Spelled⟩]

def NodeEntry.rules (layers : Nat) : List FieldRule := [
  ⟨"id", none, Eq⟩, ⟨"kind", some (.string BuildableKind.config.name), Eq⟩,
  ⟨"callable", none, Symbol.Spelled⟩,
  ⟨"arguments", some (.array []), SpelledList (SpelledRecord (ArgumentEntry.rules layers))⟩]

def VariableEntry.rules (layers : Nat) : List FieldRule := [
  ⟨"name", none, Eq⟩, ⟨"value", none, DocumentValue.Spelled layers⟩]

/-- Spelled out in the outermost layers of fixtures. -/
def FixtureEntry.Spelled : Nat → Json → Json → Prop
  | 0 => Eq
  | layers + 1 => SpelledRecord [
      ⟨"name", none, Eq⟩, ⟨"parameters", some (.array []), SpelledList Eq⟩,
      ⟨"variables", some (.array []), SpelledList (SpelledRecord (VariableEntry.rules layers))⟩,
      ⟨"output", none, DocumentValue.Spelled layers⟩,
      ⟨"children", some (.array []), SpelledList (Spelled layers)⟩]

def GraphDocument.rules (layers : Nat) : List FieldRule := [
  ⟨"nodes", some (.array []), SpelledList (SpelledRecord (NodeEntry.rules layers))⟩,
  ⟨"fixture", none, FixtureEntry.Spelled layers⟩]

/-- The second tree is the first one with defaults spelled out, down to some layer. -/
def GraphDocument.Spelled (layers : Nat) : Json → Json → Prop :=
  SpelledRecord (GraphDocument.rules layers)

/-! ## Fields -/

section

variable {α : Type} {name : String} {default : Option Json} {spells : Json → Json → Prop}
  {field field' : Option Json} {levels : Nat}

theorem Json.FieldRule.Agrees.eq (h : Agrees ⟨name, none, Eq⟩ field field') :
    field = field' := by
  cases h with
  | missing => rfl
  | kept hsame => exact congrArg some hsame
  | written hdefault => contradiction

theorem Json.FieldRule.Agrees.required_eq {decode : Json → Option α}
    (h : Agrees ⟨name, none, spells⟩ field field')
    (hdecode : ∀ json json', field' = some json' → spells json json' →
      decode json = decode json') :
    required decode field = required decode field' := by
  cases h with
  | missing => rfl
  | kept hspells => exact hdecode _ _ rfl hspells
  | written hdefault => contradiction

theorem Json.FieldRule.Agrees.defaulted_eq {decode : Json → Option α} {value : α} {json : Json}
    (h : Agrees ⟨name, some json, Eq⟩ field field') (hjson : decode json = some value) :
    defaulted value decode field = defaulted value decode field' := by
  cases h with
  | missing => rfl
  | kept hsame => exact congrArg decode hsame
  | written hdefault =>
      obtain rfl := Option.some.inj hdefault
      exact hjson.symm

theorem Json.FieldRule.Agrees.nullable_eq {decode : Json → Option α}
    (h : Agrees ⟨name, some .null, spells⟩ field field')
    (hdecode : ∀ json json', spells json json' →
      json.isNull = json'.isNull ∧ decode json = decode json') :
    nullable decode field = nullable decode field' := by
  cases h with
  | missing => rfl
  | @kept json json' hspells =>
      obtain ⟨hnull, hread⟩ := hdecode json json' hspells
      rw [Json.nullable_some, Json.nullable_some, hnull, hread]
  | written hdefault =>
      obtain rfl := Option.some.inj hdefault
      rfl

end

/-! ## Symbols and values -/

theorem Symbol.ofJson?_spelled {json json' : Json} (h : Symbol.Spelled json json')
    (levels : Nat) : Symbol.ofJson? levels json = Symbol.ofJson? levels json' := by
  obtain hsame | ⟨below, fields, fields', rfl, hfields, hfields', -, hagree⟩ :=
    SpelledRecord.record?_cases h levels
  · exact congrArg (· >>= _) hsame
  · obtain _ | ⟨hmodule, _ | ⟨hqualname, _ | ⟨hkind, ⟨⟩⟩⟩⟩ := hagree
    rw [ofJson?_of_record hfields, ofJson?_of_record hfields', ofFields?, ofFields?, hmodule.eq,
      hqualname.eq, hkind.defaulted_eq (SymbolKind.ofJson?_name .function below)]

namespace DocumentValue

theorem isNull_spelled {layers : Nat} {json json' : Json} (h : Spelled layers json json') :
    json.isNull = json'.isNull := by
  cases layers with
  | zero => exact congrArg Json.isNull h
  | succ layers => cases h <;> rfl

theorem ofJson?_symbol (below : Nat) (json : Json) :
    ofJson? (below + 1) (.object [("symbol", json)]) =
      (Symbol.ofJson? below json).map DocumentValue.symbol := by
  cases json <;> rfl

theorem ofJson?_items_spelled {variant : String} (hvariant : variant = "list" ∨ variant = "tuple")
    {spells : Json → Json → Prop} {json json' : Json} (h : SpelledList spells json json')
    (hread : ∀ levels json json', spells json json' → ofJson? levels json = ofJson? levels json')
    (levels : Nat) :
    ofJson? levels (.object [(variant, json)]) = ofJson? levels (.object [(variant, json')]) := by
  cases h with
  | same => rfl
  | items hitems =>
      have hsame := fun below => Json.mapM_spelled hitems fun json json' _ => hread below json json'
      obtain rfl | rfl := hvariant
      · match levels with
        | 0 | 1 => rfl
        | below + 2 => rw [ofJson?_list, ofJson?_list, hsame]
      · match levels with
        | 0 | 1 => rfl
        | below + 2 => rw [ofJson?_tuple, ofJson?_tuple, hsame]

theorem ofJson?_dict_spelled {spells : Json → Json → Prop} {json json' : Json}
    (h : SpelledList (SpelledEntry spells) json json')
    (hread : ∀ levels json json', spells json json' → ofJson? levels json = ofJson? levels json')
    (levels : Nat) :
    ofJson? levels (.object [("dict", json)]) = ofJson? levels (.object [("dict", json')]) := by
  cases h with
  | same => rfl
  | items hentries =>
      match levels with
      | 0 => rfl
      | 1 | 2 => cases hentries <;> rfl
      | below + 3 =>
          have hsame := Json.mapM_spelled hentries fun json json' _ hentry =>
            hentry.pair?_eq (hread below)
          rw [ofJson?_dict, ofJson?_dict, hsame]

theorem ofJson?_spelled {layers : Nat} {json json' : Json} (h : Spelled layers json json')
    (levels : Nat) : ofJson? levels json = ofJson? levels json' := by
  induction layers generalizing levels json json' with
  | zero => exact congrArg (ofJson? levels) h
  | succ layers ih =>
      have hread := fun levels (json json' : Json) h => @ih json json' h levels
      obtain _ | ⟨hmem, hspells⟩ := h
      · rfl
      · simp only [List.mem_cons, Prod.mk.injEq, List.not_mem_nil, or_false] at hmem
        obtain ⟨rfl, rfl⟩ | ⟨rfl, rfl⟩ | ⟨rfl, rfl⟩ | ⟨rfl, rfl⟩ := hmem
        · cases levels with
          | zero => rfl
          | succ below => rw [ofJson?_symbol, ofJson?_symbol, Symbol.ofJson?_spelled hspells]
        · exact ofJson?_items_spelled (.inl rfl) hspells hread levels
        · exact ofJson?_items_spelled (.inr rfl) hspells hread levels
        · exact ofJson?_dict_spelled hspells hread levels

end DocumentValue

/-! ## Nodes -/

variable {layers levels : Nat} {json json' : Json}

theorem ArgumentEntry.ofJson?_spelled (h : SpelledRecord (rules layers) json json')
    (hfits : Fits (2 ≤ ·) levels json') :
    ArgumentEntry.ofJson? levels json = ArgumentEntry.ofJson? levels json' := by
  obtain hsame | ⟨below, fields, fields', rfl, hfields, hfields', hvalues, hagree⟩ :=
    SpelledRecord.record?_cases h levels
  · exact congrArg (· >>= _) hsame
  · obtain _ | ⟨hname, _ | ⟨hvalue, _ | ⟨htags, ⟨⟩⟩⟩⟩ := hagree
    have hvalue := hvalue.nullable_eq fun json json' hspells =>
      ⟨DocumentValue.isNull_spelled hspells, DocumentValue.ofJson?_spelled hspells below⟩
    have htags := htags.listField_eq Symbol.ofJson?
      (fun value hfield => hfits.field hvalues value (by simp [hfield])) (by omega)
      fun below _ _ _ _ hspells => Symbol.ofJson?_spelled hspells below
    rw [ofJson?_of_record hfields, ofJson?_of_record hfields', ofFields?, ofFields?, hname.eq,
      hvalue, htags]

theorem NodeEntry.ofJson?_spelled (h : SpelledRecord (rules layers) json json')
    (hfits : Fits (4 ≤ ·) levels json') :
    NodeEntry.ofJson? levels json = NodeEntry.ofJson? levels json' := by
  obtain hsame | ⟨below, fields, fields', rfl, hfields, hfields', hvalues, hagree⟩ :=
    SpelledRecord.record?_cases h levels
  · exact congrArg (· >>= _) hsame
  · obtain _ | ⟨hid, _ | ⟨hkind, _ | ⟨hcallable, _ | ⟨harguments, ⟨⟩⟩⟩⟩⟩ := hagree
    have hcallable := hcallable.required_eq fun json json' _ hspells =>
      Symbol.ofJson?_spelled hspells below
    have harguments := harguments.listField_eq ArgumentEntry.ofJson?
      (fun value hfield => hfits.field hvalues value (by simp [hfield])) (by omega)
      fun below _ _ _ hfits hspells =>
        ArgumentEntry.ofJson?_spelled hspells (hfits.mono (by omega))
    rw [ofJson?_of_record hfields, ofJson?_of_record hfields', ofFields?, ofFields?, hid.eq,
      hkind.defaulted_eq (BuildableKind.ofJson?_name .config below), hcallable, harguments]

/-! ## Fixtures -/

theorem VariableEntry.ofJson?_spelled (h : SpelledRecord (rules layers) json json') (levels : Nat) :
    VariableEntry.ofJson? levels json = VariableEntry.ofJson? levels json' := by
  obtain hsame | ⟨below, fields, fields', rfl, hfields, hfields', -, hagree⟩ :=
    SpelledRecord.record?_cases h levels
  · exact congrArg (· >>= _) hsame
  · obtain _ | ⟨hname, _ | ⟨hvalue, ⟨⟩⟩⟩ := hagree
    have hvalue := hvalue.required_eq fun json json' _ hspells =>
      DocumentValue.ofJson?_spelled hspells below
    rw [ofJson?_of_record hfields, ofJson?_of_record hfields', ofFields?, ofFields?, hname.eq,
      hvalue]

/-- Fixtures nest by two levels, so where the levels are even there is one left for each list
of a fixture. -/
theorem FixtureEntry.ofJson?_spelled (h : Spelled layers json json')
    (hfits : Fits (· % 2 = 0) levels json') :
    FixtureEntry.ofJson? levels json = FixtureEntry.ofJson? levels json' := by
  induction layers generalizing levels json json' with
  | zero => exact congrArg (ofJson? levels) h
  | succ layers ih =>
      cases levels with
      | zero => rfl
      | succ below =>
          rw [ofJson?_succ, ofJson?_succ]
          obtain hsame | ⟨fields, fields', hfields, hfields', hagree⟩ :=
            SpelledRecord.fieldValues_cases h
          · exact congrArg (· >>= _) hsame
          · obtain _ | ⟨hname, _ | ⟨hparameters, _ | ⟨hdeclarations, _ | ⟨houtput,
              _ | ⟨hchildren, ⟨⟩⟩⟩⟩⟩⟩ := hagree
            have hfield := hfits.field hfields'
            have hparameters := hparameters.listField_eq Json.text?
              (fun value hvalue => hfield value (by simp [hvalue])) (by omega)
              fun below _ _ _ _ hsame => congrArg (Json.text? below) hsame
            have hdeclarations := hdeclarations.listField_eq VariableEntry.ofJson?
              (fun value hvalue => hfield value (by simp [hvalue])) (by omega)
              fun below _ _ _ _ hspells => VariableEntry.ofJson?_spelled hspells below
            have houtput := houtput.required_eq fun json json' _ hspells =>
              DocumentValue.ofJson?_spelled hspells below
            have hchildren := hchildren.listField_eq ofJson?
              (fun value hvalue => hfield value (by simp [hvalue])) (by omega)
              fun _ _ _ _ hfits hspells => ih hspells (hfits.mono (by omega))
            rw [ofFields?_of_fieldValues hfields, ofFields?_of_fieldValues hfields', ofParts?,
              ofParts?, hname.eq, hparameters, hdeclarations, houtput, hchildren]

/-! ## Documents -/

theorem GraphDocument.ofJson?_spelled (h : Spelled layers json json')
    (hfits : Fits (fun levels => 6 ≤ levels ∧ levels % 2 = 1) levels json') :
    ofJson? levels json = ofJson? levels json' := by
  obtain hsame | ⟨below, fields, fields', rfl, hfields, hfields', hvalues, hagree⟩ :=
    SpelledRecord.record?_cases h levels
  · exact congrArg (· >>= _) hsame
  · obtain _ | ⟨hnodes, _ | ⟨hfixture, ⟨⟩⟩⟩ := hagree
    have hfield := hfits.field hvalues
    have hnodes := hnodes.listField_eq NodeEntry.ofJson?
      (fun value hvalue => hfield value (by simp [hvalue])) (by omega)
      fun _ _ _ _ hfits hspells => NodeEntry.ofJson?_spelled hspells (hfits.mono (by omega))
    have hfixture := hfixture.required_eq fun json json' hjson hspells =>
      FixtureEntry.ofJson?_spelled hspells ((hfield json' (by simp [hjson])).mono (by omega))
    rw [ofJson?_of_record hfields, ofJson?_of_record hfields', ofFields?, ofFields?, hnodes,
      hfixture]

/-- A document with finite numbers is read back from the tree that it is written as, by every
reader with levels enough for the tree. A tree that leaves out defaults reads as the tree that
spells them out, be it that the reader has the levels of documents or levels enough. -/
theorem documents_survive_serialization :
    (∀ document : GraphDocument, (∀ number ∈ document.floats, number.isFinite) →
      ∀ levels, document.toJson.depth ≤ levels →
        GraphDocument.ofJson? levels document.toJson = some document) ∧
      ∀ layers json spelled, GraphDocument.Spelled layers json spelled →
        ∀ levels, levels = documentLevels ∨ spelled.depth ≤ levels →
          GraphDocument.ofJson? levels json = GraphDocument.ofJson? levels spelled := by
  refine ⟨fun document hfinite levels hdepth => document.ofJson?_toJson hdepth hfinite, ?_⟩
  intro layers json spelled h levels hlevels
  refine GraphDocument.ofJson?_spelled h (hlevels.imp_left ?_)
  rintro rfl
  decide

/-- A value that is left out, one that is none, one with a number, and a child. -/
def nestedDocument : GraphDocument where
  nodes := [
    ⟨"encoder", .config, .classType "models" "Encoder", [
      ⟨"dropout", none, [.classType "models.tags" "Rate"]⟩, ⟨"bias", some .none, []⟩,
      ⟨"scale", some (.dict [("low", .float 0.5), ("high", .tuple [.int 3, .list []])]), []⟩]⟩]
  fixture := .entry "build" [] [⟨"shared", .node "encoder"⟩] (.node "encoder")
    [.entry "head" ["width"] [] (.symbol (.builtin "zip")) []]

/-- A document with all its defaults left out, and the same one with all of them spelled out. -/
def terseTree : Json :=
  .object [("fixture", .object [
    ("name", .string "build"),
    ("output", .object [("list", .array [.object [("symbol", .object [
      ("module", .string "models"), ("qualname", .string "load")])]])])])]

def spelledTree : Json :=
  .object [
    ("fixture", .object [
      ("children", .array []),
      ("name", .string "build"),
      ("output", .object [("list", .array [.object [("symbol", .object [
        ("module", .string "models"), ("kind", .string "function"),
        ("qualname", .string "load")])]])]),
      ("parameters", .array []),
      ("variables", .array [])]),
    ("nodes", .array [])]

theorem spelled_terseTree : GraphDocument.Spelled 3 terseTree spelledTree := by
  have hsymbol : Symbol.Spelled
      (.object [("module", .string "models"), ("qualname", .string "load")])
      (.object [("module", .string "models"), ("kind", .string "function"),
        ("qualname", .string "load")]) := by
    refine .object ?_
    simp only [Symbol.rules, List.forall_mem_cons, List.not_mem_nil, IsEmpty.forall_iff,
      implies_true, and_true]
    exact ⟨.kept (.cons rfl .nil), .kept (.cons rfl .nil), .written rfl⟩
  refine .object ?_
  simp only [GraphDocument.rules, List.forall_mem_cons, List.not_mem_nil, IsEmpty.forall_iff,
    implies_true, and_true]
  refine ⟨.written rfl, .kept (.cons (.object ?_) .nil)⟩
  simp only [List.forall_mem_cons, List.not_mem_nil, IsEmpty.forall_iff, implies_true, and_true]
  refine ⟨.kept (.cons rfl .nil), .written rfl, .written rfl, .kept (.cons ?_ .nil), .written rfl⟩
  refine .payload (List.mem_cons_of_mem _ List.mem_cons_self) (.items (.cons ?_ .nil))
  exact .payload List.mem_cons_self hsymbol

theorem documents_survive_serialization_nested :
    (∀ number ∈ nestedDocument.floats, number.isFinite) ∧
      nestedDocument.toJson.depth ≤ documentLevels ∧
      GraphDocument.ofJson? documentLevels nestedDocument.toJson = some nestedDocument ∧
      GraphDocument.Spelled 3 terseTree spelledTree ∧
      GraphDocument.ofJson? documentLevels terseTree =
        GraphDocument.ofJson? documentLevels spelledTree := by
  have hfinite : ∀ number ∈ nestedDocument.floats, number.isFinite := by decide +kernel
  have hdepth : nestedDocument.toJson.depth ≤ documentLevels := by decide +kernel
  obtain ⟨hread, hsame⟩ := documents_survive_serialization
  exact ⟨hfinite, hdepth, hread nestedDocument hfinite documentLevels hdepth, spelled_terseTree,
    hsame 3 terseTree spelledTree spelled_terseTree documentLevels (.inl rfl)⟩

end ConfigLowering
