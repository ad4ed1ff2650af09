import ConfigLowering.Proofs.Document.Ordering
import ConfigLowering.Proofs.Document.Tasks

/-!
# Loading documents

A document that gives no argument of a node twice loads exactly when its ids are distinct, its
references are known and no id refers back to itself. Each node of the document is then a node
of the graph, with its arguments in order and all tags that are listed for a field.
-/

namespace ConfigLowering

open Relation

/-! ## Tags of a node -/

namespace Buildable

variable {buildable : Buildable} {field other : String} {tag : Symbol}

theorem hasTag_ofCallable (kind : BuildableKind) (callable : Symbol) :
    (ofCallable kind callable).hasTag field tag = false := by
  simp [hasTag, tagsOf, ofCallable]

theorem hasTag_addTag_iff (added : Symbol) :
    (buildable.addTag field added).hasTag other tag ↔
      (other = field ∧ tag = added) ∨ buildable.hasTag other tag := by
  by_cases hother : other = field
  · subst hother
    simp [hasTag, tagsOf, addTag, Std.ExtTreeSet.contains_insert, eq_comm (a := tag)]
  · simp [hasTag, tagsOf, addTag, Std.ExtTreeMap.getD_insert, hother, Ne.symm hother]

theorem hasTag_addTags_iff (tags : List Symbol) :
    (tags.foldl (fun buildable tag => buildable.addTag field tag) buildable).hasTag other tag ↔
      (other = field ∧ tag ∈ tags) ∨ buildable.hasTag other tag := by
  induction tags generalizing buildable with
  | nil => simp
  | cons added tags ih =>
      rw [List.foldl_cons, ih, hasTag_addTag_iff, List.mem_cons]
      tauto

theorem made_addTags (tags : List Symbol) :
    (tags.foldl (fun buildable tag => buildable.addTag field tag) buildable).kind =
        buildable.kind ∧
      (tags.foldl (fun buildable tag => buildable.addTag field tag) buildable).callable =
        buildable.callable := by
  induction tags generalizing buildable with
  | nil => exact ⟨rfl, rfl⟩
  | cons added tags ih => exact ih

end Buildable

/-! ## What a node becomes -/

namespace NodeEntry

/-- The node as the document writes it, with the ids in its values resolved. -/
structure Becomes (node : NodeEntry) (place : String → NodeId) (buildable : Buildable) :
    Prop where
  kind : buildable.kind = node.kind
  callable : buildable.callable = node.callable
  arguments : buildable.arguments.entries =
    node.valued.map fun (name, value) => (name, value.toValue place)
  tags : ∀ field tag, buildable.hasTag field tag ↔
    ∃ argument ∈ node.arguments, argument.name = field ∧ tag ∈ argument.tags

variable {place : String → NodeId} {buildable : Buildable} {field : String} {tag : Symbol}

theorem hasTag_assignTo_iff (argument : ArgumentEntry) :
    (argument.assignTo place buildable).hasTag field tag ↔
      (argument.name = field ∧ tag ∈ argument.tags) ∨ buildable.hasTag field tag := by
  rw [ArgumentEntry.assignTo, Buildable.hasTag_addTags_iff, eq_comm]
  cases argument.value <;> exact Iff.rfl

theorem made_assignTo (argument : ArgumentEntry) :
    (argument.assignTo place buildable).kind = buildable.kind ∧
      (argument.assignTo place buildable).callable = buildable.callable := by
  obtain ⟨hkind, hcallable⟩ := @Buildable.made_addTags
    (argument.value.elim buildable fun value =>
      buildable.assign argument.name (value.toValue place)) argument.name argument.tags
  rw [ArgumentEntry.assignTo, hkind, hcallable]
  cases argument.value <;> exact ⟨rfl, rfl⟩

theorem hasTag_toBuildable_iff (node : NodeEntry) :
    (node.toBuildable place).hasTag field tag ↔
      ∃ argument ∈ node.arguments, argument.name = field ∧ tag ∈ argument.tags := by
  have hfold : ∀ (arguments : List ArgumentEntry) (buildable : Buildable),
      (arguments.foldl (ArgumentEntry.assignTo place) buildable).hasTag field tag ↔
        (∃ argument ∈ arguments, argument.name = field ∧ tag ∈ argument.tags) ∨
          buildable.hasTag field tag := by
    intro arguments
    induction arguments with
    | nil => simp
    | cons argument arguments ih =>
        intro buildable
        rw [List.foldl_cons, ih, hasTag_assignTo_iff, List.exists_mem_cons_iff, or_left_comm,
          or_assoc]
  rw [toBuildable, hfold, bare, Buildable.hasTag_ofCallable]
  simp

theorem made_toBuildable (node : NodeEntry) :
    (node.toBuildable place).kind = node.kind ∧
      (node.toBuildable place).callable = node.callable :=
  List.foldlRecOn node.arguments (ArgumentEntry.assignTo place)
    (motive := fun buildable => buildable.kind = node.kind ∧ buildable.callable = node.callable)
    ⟨rfl, rfl⟩ fun buildable hmade argument _ => by
      obtain ⟨hkind, hcallable⟩ := @made_assignTo place buildable argument
      rw [hkind, hcallable]
      exact hmade

theorem becomes_toBuildable {node : NodeEntry} (hnames : (node.valued.map Prod.fst).Nodup)
    (place : String → NodeId) : node.Becomes place (node.toBuildable place) where
  kind := node.made_toBuildable.1
  callable := node.made_toBuildable.2
  arguments := by
    rw [arguments_toBuildable, settled, Arguments.map, Arguments.entries_ofList hnames]
  tags _ _ := node.hasTag_toBuildable_iff

end NodeEntry

namespace GraphDocument

variable {document : GraphDocument}

/-! ## Which documents load -/

/-- No node gives a value to one argument twice. -/
def NamesOnce (document : GraphDocument) : Prop :=
  ∀ node ∈ document.nodes, (node.valued.map Prod.fst).Nodup

def Acyclic (document : GraphDocument) : Prop :=
  ∀ id, ¬ TransGen document.Mentions id id

theorem refers_iff_mentions (h : document.NamesOnce) (parent child : String) :
    document.Refers parent child ↔ document.Mentions parent child := by
  constructor
  · exact Refers.mentions
  · rintro ⟨node, hnode, rfl, argument, hargument, value, hvalue, hchild⟩
    refine ⟨node, hnode, rfl, value, ?_, hchild⟩
    rw [Arguments.values, NodeEntry.settled, Arguments.entries_ofList (h node hnode)]
    refine List.mem_map.mpr ⟨(argument.name, value), ?_, rfl⟩
    exact List.mem_filterMap.mpr ⟨argument, hargument, by rw [hvalue]; rfl⟩

theorem exists_buildGraph_iff_acyclic (h : document.NamesOnce) :
    (∃ result, document.buildGraph = .ok result) ↔
      document.ids.Nodup ∧
        (∀ parent child, document.Mentions parent child → child ∈ document.ids) ∧
        document.Acyclic := by
  have hsame : document.Refers = document.Mentions :=
    funext₂ fun parent child => propext (refers_iff_mentions h parent child)
  rw [exists_buildGraph_iff (repeatsHarmlessly_of_nodup h), hsame]
  refine and_congr_right fun _ => ⟨fun hmentions => ⟨fun parent child hchild => ?_, fun id => ?_⟩, ?_⟩
  · exact (hmentions parent child hchild).1
  · intro hcycle
    -- A way back to the id begins with one of its own references.
    obtain ⟨child, hchild, hback⟩ := TransGen.head'_iff.mp hcycle
    exact (hmentions id child hchild).2 hback
  · rintro ⟨hknown, hacyclic⟩ parent child hchild
    exact ⟨hknown parent child hchild, fun hback => hacyclic parent (.head' hchild hback)⟩

theorem exists_toTask_iff (document : GraphDocument) (settings : ImportSettings) :
    (∃ result, document.toTask settings = .ok result) ↔
      (∃ result, document.buildGraph = .ok result) ∧
        document.fixture.references ⊆ document.ids := by
  constructor
  · rintro ⟨⟨task, positions⟩, hok⟩
    obtain ⟨graph, hgraph, hknown, -⟩ := toTask_eq_ok hok
    exact ⟨⟨_, hgraph⟩, hknown⟩
  · rintro ⟨⟨⟨graph, positions⟩, hgraph⟩, hknown⟩
    obtain ⟨-, rfl, -, -⟩ := of_buildGraph hgraph
    have htree := (FixtureEntry.toCallTree_eq_ok_iff (places_positionsOf document.ids)
      document.fixture).mpr ⟨hknown, rfl⟩
    rw [toTask]
    simp only [bind_eq_ok_iff]
    exact ⟨_, _, hgraph, _, htree, rfl⟩

/-! ## Operations -/

theorem built_addNode {before after : ConfigGraph × NodePositions} {node : NodeEntry}
    (h : before.1.Built) (hok : addNode before node = .ok after) : after.1.Built := by
  obtain ⟨graph, positions⟩ := before
  by_cases hid : (positions.lookup node.id).isSome
  · simp [addNode, hid, bind, Except.bind, throw, throwThe, MonadExceptOf.throw] at hok
  · simp only [addNode, hid, Bool.false_eq_true, if_false, bind_eq_ok_iff] at hok
    obtain ⟨⟨position, graph'⟩, hadd, ⟨⟩⟩ := hok
    exact h.addNode (.ofCallable _ _) (liftGraph_eq_ok_iff.mp hadd)

theorem built_assignArgument {positions : NodePositions} {id : NodeId} {before after : ConfigGraph}
    {argument : ArgumentEntry} (h : before.Built)
    (hok : assignArgument positions id before argument = .ok after) : after.Built := by
  obtain ⟨assigned, hassigned, htags⟩ := (bind_eq_ok_iff _ _).mp hok
  have hbuilt : assigned.Built := by
    rw [assignValue] at hassigned
    cases hvalue : argument.value with
    | none =>
        rw [hvalue] at hassigned
        exact Except.ok.inj hassigned ▸ h
    | some value =>
        simp only [hvalue, bind_eq_ok_iff] at hassigned
        obtain ⟨_, -, ⟨displaced, graph⟩, hset, ⟨⟩⟩ := hassigned
        exact h.setArgument (liftGraph_eq_ok_iff.mp hset)
  refine kept_of_foldlM_eq_ok ConfigGraph.Built (fun before tag after hbefore hstep => ?_)
    hbuilt htags
  simp only [bind_eq_ok_iff] at hstep
  obtain ⟨⟨new, graph⟩, htag, ⟨⟩⟩ := hstep
  exact hbefore.addTag (liftGraph_eq_ok_iff.mp htag)

/-- The graph of a document is made by operations, like any other. -/
theorem built_buildGraph {graph : ConfigGraph} {positions : NodePositions}
    (h : document.buildGraph = .ok (graph, positions)) : graph.Built := by
  obtain ⟨⟨bare, _⟩, hbare, hok⟩ := (bind_eq_ok_iff _ _).mp h
  obtain ⟨after, hafter, ⟨⟩⟩ := (bind_eq_ok_iff _ _).mp hok
  have hbuilt : bare.Built := kept_of_foldlM_eq_ok (fun state => state.1.Built)
    (fun _ _ _ => built_addNode) .empty hbare
  refine kept_of_foldlM_eq_ok ConfigGraph.Built (fun before node after hbefore hnode => ?_)
    hbuilt hafter
  rw [assignArguments] at hnode
  cases hid : positions.lookup node.id with
  | none =>
      rw [hid] at hnode
      contradiction
  | some id =>
      rw [hid] at hnode
      exact kept_of_foldlM_eq_ok ConfigGraph.Built (fun _ _ _ => built_assignArgument) hbefore hnode

/-! ## Repeated ids -/

/-- The first node whose id an earlier node has already. -/
theorem exists_first_repeated (h : ¬ document.ids.Nodup) :
    ∃ earlier node later, document.nodes = earlier ++ node :: later ∧
      (earlier.map NodeEntry.id).Nodup ∧ node.id ∈ earlier.map NodeEntry.id := by
  have hsplit : ∀ rest earlier : List NodeEntry, (earlier.map NodeEntry.id).Nodup →
      ¬ ((earlier ++ rest).map NodeEntry.id).Nodup →
      ∃ first node later, earlier ++ rest = first ++ node :: later ∧
        (first.map NodeEntry.id).Nodup ∧ node.id ∈ first.map NodeEntry.id := by
    intro rest
    induction rest with
    | nil =>
        intro earlier hearlier hrepeated
        rw [List.append_nil] at hrepeated
        exact absurd hearlier hrepeated
    | cons node rest ih =>
        intro earlier hearlier hrepeated
        by_cases hid : node.id ∈ earlier.map NodeEntry.id
        · exact ⟨earlier, node, rest, rfl, hearlier, hid⟩
        · have hlonger := ih (earlier ++ [node])
          rw [List.append_assoc, List.singleton_append] at hlonger
          refine hlonger ?_ hrepeated
          rw [List.map_append, List.map_singleton, List.nodup_append]
          refine ⟨hearlier, List.nodup_singleton _, ?_⟩
          rintro id hmem _ hother rfl
          exact hid (List.mem_singleton.mp hother ▸ hmem)
  exact hsplit document.nodes [] List.nodup_nil h

theorem buildGraph_of_repeated {earlier later : List NodeEntry} {node : NodeEntry}
    (hnodes : document.nodes = earlier ++ node :: later)
    (hearlier : (earlier.map NodeEntry.id).Nodup) (hid : node.id ∈ earlier.map NodeEntry.id) :
    document.buildGraph = .error (.duplicateNode node.id) := by
  have hadded := (@foldlM_addNode_eq_ok_iff [] earlier List.nodup_nil _).mpr ⟨hearlier, rfl⟩
  have hbare : document.nodes.foldlM addNode (.empty, []) = .error (.duplicateNode node.id) := by
    change document.nodes.foldlM addNode (listed []) = _
    rw [hnodes, List.foldlM_append, hadded]
    change (node :: later).foldlM addNode (listed earlier) = _
    rw [List.foldlM_cons, addNode_listed, if_pos hid]
    rfl
  rw [buildGraph, hbare]
  rfl

theorem toTask_of_buildGraph_error {error : DocumentError}
    (h : document.buildGraph = .error error) (settings : ImportSettings) :
    document.toTask settings = .error error := by
  rw [toTask, h]
  rfl

/-! ## Loading -/

/-- A document that gives no argument twice loads exactly when its ids are distinct and its
references are known and close no cycle; the fixtures must refer to known ids besides. What
loads is what the document says, node for node, and an id that comes twice is reported before
anything else. -/
theorem loads_exactly_acyclic (document : GraphDocument) :
    (document.NamesOnce →
      ((∃ result, document.buildGraph = .ok result) ↔
        document.ids.Nodup ∧
          (∀ parent child, document.Mentions parent child → child ∈ document.ids) ∧
          document.Acyclic) ∧
      ∀ graph positions, document.buildGraph = .ok (graph, positions) →
        graph.nodeCount = document.nodes.length ∧
        ∀ (index : Nat) (node : NodeEntry), document.nodes[index]? = some node →
          positions.lookup node.id = some ⟨index⟩ ∧ document.place node.id = ⟨index⟩ ∧
            ∃ buildable, graph.get? ⟨index⟩ = some buildable ∧
              node.Becomes document.place buildable) ∧
    (∀ settings, (∃ result, document.toTask settings = .ok result) ↔
      (∃ result, document.buildGraph = .ok result) ∧
        document.fixture.references ⊆ document.ids) ∧
    (¬ document.ids.Nodup → ∃ earlier node later,
      document.nodes = earlier ++ node :: later ∧ (earlier.map NodeEntry.id).Nodup ∧
        node.id ∈ earlier.map NodeEntry.id ∧
        document.buildGraph = .error (.duplicateNode node.id) ∧
        ∀ settings, document.toTask settings = .error (.duplicateNode node.id)) := by
  refine ⟨fun hnames => ⟨exists_buildGraph_iff_acyclic hnames, ?_⟩, document.exists_toTask_iff,
    fun hrepeated => ?_⟩
  · intro graph positions hok
    obtain ⟨hnodup, rfl, -, hnodes⟩ := of_buildGraph hok
    refine ⟨by simp [ConfigGraph.nodeCount, hnodes], fun index node hnode => ?_⟩
    have hmem := List.mem_of_getElem? hnode
    have hplace := place_of_node hnodup hnode
    refine ⟨?_, hplace, node.toBuildable document.place, ?_,
      NodeEntry.becomes_toBuildable (hnames node hmem) document.place⟩
    · have hid : node.id ∈ document.ids := List.mem_map_of_mem hmem
      rw [places_positionsOf document.ids node.id, if_pos hid]
      exact congrArg some hplace
    · rw [ConfigGraph.get?, hnodes, List.getElem?_map, hnode, Option.map_some]
  · obtain ⟨earlier, node, later, hnodes, hearlier, hid⟩ := exists_first_repeated hrepeated
    have herror := buildGraph_of_repeated hnodes hearlier hid
    exact ⟨earlier, node, later, hnodes, hearlier, hid, herror, toTask_of_buildGraph_error herror⟩

/-- The encoder has a field with tags, listed twice, and no value. -/
def encoder : NodeEntry :=
  ⟨"encoder", .config, .classType "models" "Encoder",
    [⟨"size", some (.int 128), []⟩, ⟨"rate", none, [.classType "tags" "Rate"]⟩,
      ⟨"rate", none, [.classType "tags" "Decay"]⟩]⟩

/-- The head comes before the encoder that a list in it refers to. -/
def headFirst : GraphDocument :=
  documentOf [nodeWith "head" [("parts", .list [.node "encoder", .none])], encoder]

/-- An id that comes twice, and a reference to an id that does not come at all. -/
def headTwice : GraphDocument :=
  documentOf [nodeWith "head" [], nodeWith "head" [("parts", .node "missing")]]

theorem loads_exactly_acyclic_headFirst :
    headFirst.NamesOnce ∧ headFirst.Acyclic ∧
      (∃ result, headFirst.toTask .default = .ok result) ∧
      (∃ graph positions buildable, headFirst.buildGraph = .ok (graph, positions) ∧
        graph.get? ⟨1⟩ = some buildable ∧ buildable.arguments.entries = [("size", .int 128)] ∧
        buildable.hasTag "rate" (.classType "tags" "Decay")) ∧
      ¬ headTwice.ids.Nodup ∧
      ∃ id, headTwice.toTask .default = .error (.duplicateNode id) := by
  have hnames : headFirst.NamesOnce := by
    unfold NamesOnce
    decide
  obtain ⟨hloads, htask, -⟩ := loads_exactly_acyclic headFirst
  obtain ⟨hbuilds, hbuilt⟩ := hloads hnames
  have hok : ∃ result, headFirst.buildGraph = .ok result := ⟨_, rfl⟩
  have hrepeated : ¬ headTwice.ids.Nodup := by decide
  obtain ⟨_, node, _, _, _, _, _, herror⟩ := (loads_exactly_acyclic headTwice).2.2 hrepeated
  refine ⟨hnames, (hbuilds.mp hok).2.2, (htask .default).mpr ⟨hok, by decide⟩, ?_, hrepeated,
    node.id, herror .default⟩
  obtain ⟨⟨graph, positions⟩, hgraph⟩ := hok
  obtain ⟨-, -, buildable, hbuildable, hbecomes⟩ := (hbuilt graph positions hgraph).2 1 encoder rfl
  refine ⟨graph, positions, buildable, hgraph, hbuildable, hbecomes.arguments, ?_⟩
  exact (hbecomes.tags "rate" (.classType "tags" "Decay")).mpr
    ⟨_, List.mem_cons_of_mem _ (List.mem_cons_of_mem _ List.mem_cons_self), rfl,
      List.mem_cons_self⟩

end GraphDocument

end ConfigLowering
