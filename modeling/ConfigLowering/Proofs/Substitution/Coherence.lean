import ConfigLowering.Proofs.Substitution.Closed
import ConfigLowering.Proofs.Substitution.Tasks
import ConfigLowering.Proofs.Value.Relabeling

/-!
# Coherence of translated bodies

Whatever a translation makes for an origin is the same value, at every place and every depth.
So an identity stands for one object in the new bodies, as it did in the old ones.
-/

namespace ConfigLowering

theorem Value.asNode?_of_ordinary {value : Value} (h : value.role = .ordinary) :
    value.asNode? = Option.none := by
  cases value <;> simp_all [role, asNode?]

theorem Value.role_cases (value : Value) :
    (∃ id, value = .node id) ∨
      (∃ symbol, value = .symbol symbol ∧ value.role = .importableSymbol) ∨
      value.role = .ordinary := by
  cases value with
  | node id => exact .inl ⟨id, rfl⟩
  | symbol symbol =>
      cases hrole : (Value.symbol symbol).role with
      | configNode =>
          simp only [role] at hrole
          split at hrole <;> contradiction
      | importableSymbol => exact .inr (.inl ⟨symbol, rfl, rfl⟩)
      | ordinary => exact .inr (.inr rfl)
  | _ => exact .inr (.inr rfl)

namespace Translation

variable {translation : Translation} {enter further : NodeId → Option Value}

/-! ## Parts of a translation -/

theorem results_of_ofItems {items results : List Value}
    (h : translation.ofItems enter items = some results) :
    items.map (translation.ofValue enter) = results.map some := by
  induction items generalizing results with
  | nil =>
      obtain rfl := Option.some.inj h
      rfl
  | cons item items ih =>
      obtain ⟨result, hitem, h⟩ := Option.bind_eq_some_iff.mp h
      obtain ⟨rest, hitems, ⟨⟩⟩ := Option.bind_eq_some_iff.mp h
      rw [List.map_cons, hitem, ih hitems, List.map_cons]

theorem results_of_ofEntries {entries transformed : List (String × Value)}
    (h : translation.ofEntries enter entries = some transformed) :
    ∃ results, transformed = (entries.map Prod.fst).zip results ∧
      (entries.map Prod.snd).map (translation.ofValue enter) = results.map some := by
  induction entries generalizing transformed with
  | nil =>
      obtain rfl := Option.some.inj h
      exact ⟨[], rfl, rfl⟩
  | cons entry entries ih =>
      obtain ⟨result, hitem, h⟩ := Option.bind_eq_some_iff.mp h
      obtain ⟨rest, hentries, ⟨⟩⟩ := Option.bind_eq_some_iff.mp h
      obtain ⟨results, rfl, hresults⟩ := ih hentries
      exact ⟨result :: results, rfl, by simp [hitem, hresults]⟩

/-- A translated value is rebuilt from its translated children. -/
theorem rebuild_of_ofValue {value result : Value} (hnode : value.asNode? = none)
    (hrole : value.role = .ordinary) (h : translation.ofValue enter value = some result) :
    ∃ id results, (∀ code, value.codeId? = some code → id = translation.identity (.code code)) ∧
      value.children.map (translation.ofValue enter) = results.map some ∧
      result = value.rebuild id results := by
  cases value with
  | node => simp [Value.asNode?] at hnode
  | symbol symbol =>
      simp only [ofValue, hrole, reduceCtorEq, if_false, Option.some.injEq] at h
      exact ⟨⟨0⟩, [], by rintro _ ⟨⟩, rfl, h.symm⟩
  | list items =>
      obtain ⟨results, hitems, ⟨⟩⟩ := Option.bind_eq_some_iff.mp h
      exact ⟨⟨0⟩, results, by rintro _ ⟨⟩, results_of_ofItems hitems, rfl⟩
  | tuple items =>
      obtain ⟨results, hitems, ⟨⟩⟩ := Option.bind_eq_some_iff.mp h
      exact ⟨⟨0⟩, results, by rintro _ ⟨⟩, results_of_ofItems hitems, rfl⟩
  | dict entries =>
      obtain ⟨_, hentries, ⟨⟩⟩ := Option.bind_eq_some_iff.mp h
      obtain ⟨results, rfl, hresults⟩ := results_of_ofEntries hentries
      exact ⟨⟨0⟩, results, by rintro _ ⟨⟩, hresults, rfl⟩
  | call id callee positional named history =>
      obtain ⟨firsts, hpositional, h⟩ := Option.bind_eq_some_iff.mp h
      obtain ⟨_, hnamed, ⟨⟩⟩ := Option.bind_eq_some_iff.mp h
      obtain ⟨seconds, rfl, hseconds⟩ := results_of_ofEntries hnamed
      have hfirsts := results_of_ofItems hpositional
      have hlength : firsts.length = positional.length := by
        simpa using (congrArg List.length hfirsts).symm
      refine ⟨translation.identity (.code id), firsts ++ seconds, ?_, ?_, ?_⟩
      · rintro code ⟨⟩
        rfl
      · rw [Value.children, List.map_append, hfirsts, hseconds, List.map_append]
      · simp [Value.rebuild, ← hlength]
  | tagged id tagNames item =>
      obtain ⟨result, hitem, ⟨⟩⟩ := Option.bind_eq_some_iff.mp h
      refine ⟨translation.identity (.code id), [result], ?_, ?_, rfl⟩
      · rintro code ⟨⟩
        rfl
      · simp [Value.children, hitem]
  | _ =>
      obtain rfl := Option.some.inj h
      exact ⟨⟨0⟩, [], by rintro _ ⟨⟩, rfl, rfl⟩

theorem results_of_mapM {α β : Type} {change : α → Option β} {items : List α} {results : List β}
    (h : items.mapM change = some results) : items.map change = results.map some := by
  induction items generalizing results with
  | nil =>
      obtain rfl : [] = results := by simpa using h
      rfl
  | cons item items ih =>
      rw [List.mapM_cons] at h
      obtain ⟨result, hitem, h⟩ := Option.bind_eq_some_iff.mp h
      obtain ⟨rest, hitems, ⟨⟩⟩ := Option.bind_eq_some_iff.mp h
      rw [List.map_cons, hitem, ih hitems, List.map_cons]

theorem call_of_ofNode {depth : Nat} {id : NodeId} {result : Value}
    (h : translation.ofNode (depth + 1) id = some result) :
    ∃ buildable callee results arguments,
      translation.graph.get? id = some buildable ∧
      translation.imports.nameOf? (buildable.kind.wrapper translation.baseModule) = some callee ∧
      buildable.arguments.values.map (translation.translate depth) = results.map some ∧
      (buildable.arguments.names.zip results).map (translation.attach id buildable) =
        arguments.map some ∧
      result = .call (translation.identity (.node id)) callee [.reference buildable.callable]
        arguments (translation.history buildable) := by
  obtain ⟨buildable, hnode, h⟩ := Option.bind_eq_some_iff.mp h
  obtain ⟨callee, hcallee, h⟩ := Option.bind_eq_some_iff.mp h
  obtain ⟨_, hitems, h⟩ := Option.bind_eq_some_iff.mp h
  obtain ⟨arguments, harguments, ⟨⟩⟩ := Option.bind_eq_some_iff.mp h
  obtain ⟨results, rfl, hresults⟩ := results_of_ofEntries hitems
  exact ⟨buildable, callee, results, arguments, hnode, hcallee, hresults,
    results_of_mapM harguments, rfl⟩

/-! ## Depths -/

theorem map_mono {α β : Type} {change further : α → Option β} {items : List α} {results : List β}
    (hfurther : ∀ item ∈ items, ∀ result, change item = some result →
      further item = some result)
    (h : items.map change = results.map some) : items.map further = results.map some := by
  rw [← h]
  refine List.map_congr_left fun item hitem => ?_
  have hmem : change item ∈ results.map some := h ▸ List.mem_map_of_mem hitem
  obtain ⟨result, -, hresult⟩ := List.mem_map.mp hmem
  rw [← hresult]
  exact hfurther item hitem result hresult.symm

theorem ofValue_mono (hfurther : ∀ id result, enter id = some result → further id = some result)
    {value result : Value} (h : translation.ofValue enter value = some result) :
    translation.ofValue further value = some result := by
  induction value using Value.induction_children generalizing result with
  | step value ih =>
      obtain ⟨id, rfl⟩ | ⟨symbol, rfl, -⟩ | hrole := value.role_cases
      · exact hfurther id result h
      · exact h
      · have hnode := Value.asNode?_of_ordinary hrole
        obtain ⟨id, results, hid, hresults, rfl⟩ := rebuild_of_ofValue hnode hrole h
        exact translation.ofValue_rebuild further id hnode hrole hid
          (map_mono (fun child hchild _ => ih child hchild) hresults)

theorem ofNode_mono {depth deeper : Nat} (hdepth : depth ≤ deeper) {id : NodeId} {result : Value}
    (h : translation.ofNode depth id = some result) :
    translation.ofNode deeper id = some result := by
  induction depth generalizing deeper id result with
  | zero => simp [ofNode] at h
  | succ depth ih =>
      obtain ⟨deeper, rfl⟩ := Nat.exists_eq_add_of_lt hdepth
      obtain ⟨buildable, callee, results, arguments, hnode, hcallee, hresults, hattached, rfl⟩ :=
        call_of_ofNode h
      have hdeeper :
          buildable.arguments.values.map (translation.translate (depth + deeper)) =
            results.map some :=
        map_mono (fun _ _ _ => ofValue_mono fun _ _ => ih (Nat.le_add_right depth deeper))
          hresults
      exact translation.ofNode_call hnode hcallee hdeeper hattached

theorem translate_mono {depth deeper : Nat} (hdepth : depth ≤ deeper) {value result : Value}
    (h : translation.translate depth value = some result) :
    translation.translate deeper value = some result :=
  ofValue_mono (fun _ _ => ofNode_mono hdepth) h

theorem translate_unique {depth other : Nat} {value first second : Value}
    (hfirst : translation.translate depth value = some first)
    (hsecond : translation.translate other value = some second) : first = second :=
  Option.some.inj ((translate_mono (Nat.le_max_left depth other) hfirst).symm.trans
    (translate_mono (Nat.le_max_right depth other) hsecond))

/-! ## Objects of origins -/

/-- What the translation makes for an origin, at some depth. -/
inductive Makes (translation : Translation) (holds : Value → Prop) : Origin → Value → Prop
  | node {depth : Nat} {id : NodeId} {result : Value} :
      translation.translate depth (.node id) = some result →
      Makes translation holds (.node id) result
  | wrapper {depth : Nat} {id : NodeId} {buildable : Buildable} {field : String}
      {argument item result : Value} :
      translation.graph.get? id = some buildable → (field, argument) ∈ buildable.arguments.entries →
      translation.translate depth argument = some item →
      translation.attach id buildable (field, item) = some (field, result) →
      Makes translation holds (.wrapper id field) result
  | code {depth : Nat} {value result : Value} {id : CodeId} :
      holds value → value.codeId? = some id → translation.translate depth value = some result →
      Makes translation holds (.code id) result

variable {holds : Value → Prop}

theorem Makes.unique (hgraph : translation.graph.WellFormed)
    (hheap : Heap translation.graph holds) {origin : Origin} {first second : Value}
    (hfirst : translation.Makes holds origin first)
    (hsecond : translation.Makes holds origin second) : first = second := by
  cases hfirst with
  | node hfirst =>
      cases hsecond with
      | node hsecond => exact translate_unique hfirst hsecond
  | wrapper hnode hentry hitem hfirst =>
      cases hsecond with
      | wrapper hnode' hentry' hitem' hsecond =>
          obtain rfl := Option.some.inj (hnode.symm.trans hnode')
          have hnodup := (hgraph.nodes _ _ hnode).names_nodup
          obtain ⟨-, rfl⟩ := Prod.mk.inj (List.inj_on_of_nodup_map hnodup hentry hentry' rfl)
          obtain rfl := translate_unique hitem hitem'
          exact (Prod.mk.inj (Option.some.inj (hfirst.symm.trans hsecond))).2
  | code hvalue hcode hfirst =>
      cases hsecond with
      | code hvalue' hcode' hsecond =>
          obtain rfl := hheap.coherent _ _ _ hvalue hvalue' hcode hcode'
          exact translate_unique hfirst hsecond

/-- A value that is an object stands for the origin after which it is named. -/
def Stands (translation : Translation) (holds : Value → Prop) (value : Value) : Prop :=
  ∀ id, value.codeId? = some id →
    ∃ origin, id = translation.identity origin ∧ translation.Makes holds origin value

theorem exists_argument_of_mem_zip {entries : List (String × Value)} {results : List Value}
    {change : Value → Option Value} (h : (entries.map Prod.snd).map change = results.map some)
    {field : String} {item : Value} (hmem : (field, item) ∈ (entries.map Prod.fst).zip results) :
    ∃ argument, (field, argument) ∈ entries ∧ change argument = some item := by
  induction entries generalizing results with
  | nil => contradiction
  | cons entry entries ih =>
      cases results with
      | nil => contradiction
      | cons result results =>
          obtain ⟨hentry, hentries⟩ := List.cons.inj h
          obtain heq | hmem := List.mem_cons.mp hmem
          · obtain ⟨rfl, rfl⟩ := Prod.mk.inj heq
            exact ⟨entry.2, List.mem_cons_self, hentry⟩
          · obtain ⟨argument, hargument, hitem⟩ := ih hentries hmem
            exact ⟨argument, List.mem_cons_of_mem _ hargument, hitem⟩

theorem mem_children_of_results {value : Value} {results : List Value}
    {change : Value → Option Value} (h : value.children.map change = results.map some)
    {result : Value} (hresult : result ∈ results) :
    ∃ child ∈ value.children, change child = some result := by
  have hmem : some result ∈ value.children.map change := h ▸ List.mem_map_of_mem hresult
  obtain ⟨child, hchild, heq⟩ := List.mem_map.mp hmem
  exact ⟨child, hchild, heq⟩

theorem stands_reference (translation : Translation) (holds : Value → Prop) (symbol : Symbol) :
    (Value.reference symbol).Everywhere (translation.Stands holds) := by
  refine (Value.everywhere_iff _).mpr ⟨?_, List.forall_mem_nil _⟩
  rintro _ ⟨⟩

theorem stands_ofValue (hparts : ∀ whole, holds whole →
      ∀ part ∈ translation.graph.parts whole, holds part) {depth : Nat}
    (hnodes : ∀ id result, holds (.node id) → translation.ofNode depth id = some result →
      result.Everywhere (translation.Stands holds))
    {value result : Value} (hvalue : holds value)
    (h : translation.translate depth value = some result) :
    result.Everywhere (translation.Stands holds) := by
  induction value using Value.induction_children generalizing result with
  | step value ih =>
      obtain ⟨id, rfl⟩ | ⟨symbol, rfl, hrole⟩ | hrole := value.role_cases
      · exact hnodes id result hvalue h
      · simp only [translate, ofValue, hrole, if_true, Option.some.injEq] at h
        subst h
        exact translation.stands_reference holds _
      · have hnode := Value.asNode?_of_ordinary hrole
        have hheld := hparts value hvalue
        rw [translation.graph.parts_eq_children hnode] at hheld
        obtain ⟨id, results, hid, hresults, heq⟩ := rebuild_of_ofValue hnode hrole h
        have hlength : results.length = value.children.length := by
          simpa using (congrArg List.length hresults).symm
        rw [heq]
        refine Value.everywhere_rebuild hlength (fun code hcode => ?_) fun part hpart => ?_
        · rw [Value.codeId?_rebuild, Option.map_eq_some_iff] at hcode
          obtain ⟨old, hold, rfl⟩ := hcode
          exact ⟨.code old, hid old hold, .code hvalue hold (heq ▸ h)⟩
        · obtain ⟨child, hchild, hpart⟩ := mem_children_of_results hresults hpart
          exact ih child hchild (hheld child hchild) hpart

theorem stands_ofNode (hparts : ∀ whole, holds whole →
      ∀ part ∈ translation.graph.parts whole, holds part) {depth : Nat} {id : NodeId}
    {result : Value} (hid : holds (.node id)) (h : translation.ofNode depth id = some result) :
    result.Everywhere (translation.Stands holds) := by
  induction depth generalizing id result with
  | zero => simp [ofNode] at h
  | succ depth ih =>
      obtain ⟨buildable, callee, results, arguments, hnode, -, hresults, hattached, heq⟩ :=
        call_of_ofNode h
      have hheld := hparts _ hid
      rw [ConfigGraph.parts_node hnode] at hheld
      rw [heq, Value.everywhere_iff]
      refine ⟨?_, fun child hchild => ?_⟩
      · rintro code ⟨⟩
        exact ⟨.node id, rfl, .node (heq ▸ h : translation.translate (depth + 1) (.node id) = _)⟩
      obtain hchild | hchild := List.mem_append.mp hchild
      · rw [List.mem_singleton.mp hchild]
        exact translation.stands_reference holds _
      -- An argument is the translation of the old one, perhaps with a wrapper around it.
      obtain ⟨⟨name, child⟩, hargument, rfl⟩ := List.mem_map.mp hchild
      have hmem : some (name, child) ∈
          (buildable.arguments.names.zip results).map (translation.attach id buildable) :=
        hattached ▸ List.mem_map_of_mem hargument
      obtain ⟨⟨field, item⟩, hzip, hattach⟩ := List.mem_map.mp hmem
      obtain ⟨argument, hentry, hitem⟩ := exists_argument_of_mem_zip hresults hzip
      have hinner := stands_ofValue hparts (fun _ _ => ih)
        (hheld argument (List.mem_map_of_mem hentry)) hitem
      have hwhole := hattach
      rw [attach] at hattach
      split at hattach
      · obtain ⟨rfl, rfl⟩ := Prod.mk.inj (Option.some.inj hattach)
        exact hinner
      · obtain ⟨tagNames, -, ⟨⟩⟩ := Option.bind_eq_some_iff.mp hattach
        refine (Value.everywhere_iff _).mpr ⟨?_, List.forall_mem_singleton.mpr hinner⟩
        rintro code ⟨⟩
        exact ⟨.wrapper id name, rfl, .wrapper hnode hentry hitem hwhole⟩

/-- Every object in a translated value is what the translation makes for its origin. -/
theorem stands_translate (hparts : ∀ whole, holds whole →
      ∀ part ∈ translation.graph.parts whole, holds part) {depth : Nat} {value result : Value}
    (hvalue : holds value) (h : translation.translate depth value = some result) :
    result.Everywhere (translation.Stands holds) :=
  stands_ofValue hparts (fun _ _ => stands_ofNode hparts) hvalue h

end Translation

end ConfigLowering
