import ConfigLowering.Proofs.Substitution.Making

/-!
# Runs translate

A run gives the translation of its values, with the names that are known in the end
and the identities that its objects got. The results that a state keeps are
translations too, which is what makes it right to use them again.
-/

namespace ConfigLowering

theorem Value.role_of_codeId? {value : Value} {id : CodeId}
    (h : value.codeId? = some id) : value.role = .ordinary := by
  cases value <;> simp_all [codeId?, role]

namespace Substitution

/-- What a state keeps is what plain recursion gives, at every depth that suffices. -/
structure Sound (translation : Translation) (holds : Value → Prop) (state : State) :
    Prop where
  nodes : ∀ id result, state.nodeResults.lookup id = some result →
    ∀ depth, translation.graph.rank id ≤ depth → translation.ofNode depth id = some result
  codes : ∀ id result, state.codeResults.lookup id = some result →
    ∀ value, holds value → value.codeId? = some id →
      ∀ depth, translation.graph.Covers depth value →
        translation.translate depth value = some result

variable {translation : Translation} {holds : Value → Prop} {before after : State}
  {values results : List Value} {made : List Origin}

theorem Sound.keepNode {state : State} (h : Sound translation holds state) {id : NodeId}
    {result : Value}
    (hresult : ∀ depth, translation.graph.rank id ≤ depth →
      translation.ofNode depth id = some result) :
    Sound translation holds { state with
      nodeResults := (id, result) :: state.nodeResults } where
  nodes := by
    intro other found hfound
    rw [Arguments.lookup_cons_ite] at hfound
    split at hfound
    · next heq =>
        rw [heq, ← Option.some.inj hfound]
        exact hresult
    · exact h.nodes other found hfound
  codes := h.codes

theorem Sound.keepCode {state : State} (h : Sound translation holds state)
    (hheap : Heap translation.graph holds) {value result : Value} {id next : CodeId}
    (hvalue : holds value) (hid : value.codeId? = some id)
    (hresult : ∀ depth, translation.graph.Covers depth value →
      translation.translate depth value = some result) :
    Sound translation holds { state with
      nextCode := next
      codeResults := (id, result) :: state.codeResults } where
  nodes := h.nodes
  codes := by
    intro other found hfound
    rw [Arguments.lookup_cons_ite] at hfound
    split at hfound
    · next heq =>
        intro same hsame hother
        -- One identity is one object, so this is the value just translated.
        rw [hheap.coherent same value id hsame hvalue (heq ▸ hother) hid,
          ← Option.some.inj hfound]
        exact hresult
    · exact h.codes other found hfound

/-! ## Values and nodes from their parts -/

theorem translate_rebuild {value : Value} (id : CodeId) (hnode : value.asNode? = none)
    (hrole : value.role = .ordinary)
    (hid : ∀ code, value.codeId? = some code → id = translation.identity (.code code))
    (hchildren : ∀ depth,
      (∀ child ∈ value.children, translation.graph.Covers depth child) →
        value.children.map (translation.translate depth) = results.map some)
    (depth : Nat) (hcovers : translation.graph.Covers depth value) :
    translation.translate depth value = some (value.rebuild id results) :=
  translation.ofValue_rebuild (translation.ofNode depth) id hnode hrole hid
    (hchildren depth fun _ hchild => hcovers.children hchild)

theorem ofNode_finished (hgraph : translation.graph.WellFormed) {id : NodeId}
    {buildable : Buildable} {callee : String} {attached : List (String × Value)}
    (hnode : translation.graph.get? id = some buildable)
    (hcallee : translation.imports.nameOf? (buildable.kind.wrapper translation.baseModule) =
      some callee)
    (harguments : ∀ depth,
      (∀ argument ∈ buildable.arguments.values, translation.graph.Covers depth argument) →
        buildable.arguments.values.map (translation.translate depth) = results.map some)
    (hattached : (buildable.arguments.names.zip results).map
      (translation.attach id buildable) = attached.map some)
    (depth : Nat) (hdepth : translation.graph.rank id ≤ depth) :
    translation.ofNode depth id =
      some (.call (translation.identity (.node id)) callee [.reference buildable.callable]
        attached (translation.history buildable)) := by
  have hpos := translation.graph.rank_pos id
  cases depth with
  | zero => omega
  | succ depth =>
      refine translation.ofNode_call hnode hcallee (harguments depth ?_) hattached
      intro argument hargument
      rw [← ConfigGraph.parts_node hnode] at hargument
      exact hgraph.covers_argument hdepth hargument

/-! ## Soundness -/

theorem Run.sound (hgraph : translation.graph.WellFormed)
    (hheap : Heap translation.graph holds)
    (h : Run translation.graph translation.baseModule translation.history before values
      results made after)
    (hvalues : ∀ value ∈ values, holds value)
    (hlater : after.context.Grows translation.imports)
    (hidentity : made.map translation.identity = before.nextCode.range made.length)
    (hsound : Sound translation holds before) :
    Sound translation holds after ∧
      ∀ depth, (∀ value ∈ values, translation.graph.Covers depth value) →
        values.map (translation.translate depth) = results.map some := by
  induction h with
  | nil state => exact ⟨hsound, fun _ _ => rfl⟩
  | cons hfirst hrest ihfirst ihrest =>
      obtain ⟨-, hnext⟩ := hfirst.advances hgraph
      obtain ⟨hgrows, -⟩ := hrest.advances hgraph
      obtain ⟨hids, hids'⟩ := CodeId.split_range _ hnext hidentity
      obtain ⟨hbetween, hvalue⟩ := ihfirst
        (fun value hvalue => hvalues value (List.mem_singleton.mp hvalue ▸ List.mem_cons_self))
        (hgrows.trans hlater) hids hsound
      obtain ⟨hafter, hothers⟩ := ihrest
        (fun value hvalue => hvalues value (List.mem_cons_of_mem _ hvalue)) hlater hids' hbetween
      refine ⟨hafter, fun depth hcovers => ?_⟩
      have hhead := hvalue depth fun value hvalue =>
        hcovers value (List.mem_singleton.mp hvalue ▸ List.mem_cons_self)
      rw [List.map_cons, List.map_cons, (List.cons.inj hhead).1,
        hothers depth fun value hvalue => hcovers value (List.mem_cons_of_mem _ hvalue)]
  | moved start finish _ ih =>
      obtain ⟨hafter, hresults⟩ := ih hvalues hlater hidentity ⟨hsound.nodes, hsound.codes⟩
      exact ⟨⟨hafter.nodes, hafter.codes⟩, hresults⟩
  | symbol hrole hadd =>
      refine ⟨⟨hsound.nodes, hsound.codes⟩, fun depth _ => ?_⟩
      simp [Translation.translate, Translation.ofValue, hrole]
  | plain hnode hcode hrole _ ih =>
      have hheld := hheap.parts _ (hvalues _ (List.mem_singleton_self _))
      rw [translation.graph.parts_eq_children hnode] at hheld
      obtain ⟨hafter, hchildren⟩ := ih hheld hlater hidentity hsound
      refine ⟨hafter, fun depth hcovers => ?_⟩
      have hvalue := translate_rebuild ⟨0⟩ hnode hrole (by simp [hcode]) hchildren depth
        (hcovers _ (List.mem_singleton_self _))
      simp [hvalue]
  | knownCode hcode hknown =>
      refine ⟨hsound, fun depth hcovers => ?_⟩
      have hvalue := hsound.codes _ _ hknown _ (hvalues _ (List.mem_singleton_self _)) hcode
        depth (hcovers _ (List.mem_singleton_self _))
      simp [hvalue]
  | code hcode _ hrun ih =>
      have hnode := Value.asNode?_of_codeId? hcode
      have hvalue := hvalues _ (List.mem_singleton_self _)
      have hheld := hheap.parts _ hvalue
      rw [translation.graph.parts_eq_children hnode] at hheld
      obtain ⟨-, hnext⟩ := hrun.advances hgraph
      obtain ⟨hids, hown⟩ := CodeId.split_range _ hnext hidentity
      obtain ⟨hafter, hchildren⟩ := ih hheld hlater hids hsound
      have hid : translation.identity (.code _) = _ := (List.cons.inj hown).1
      have hresult := translate_rebuild _ hnode (Value.role_of_codeId? hcode)
        (fun other hother => by rw [← Option.some.inj (hcode.symm.trans hother), hid])
        hchildren
      refine ⟨hafter.keepCode hheap hvalue hcode hresult, fun depth hcovers => ?_⟩
      simp [hresult depth (hcovers _ (List.mem_singleton_self _))]
  | knownNode hknown =>
      refine ⟨hsound, fun depth hcovers => ?_⟩
      have hrank := hcovers _ (List.mem_singleton_self _) _
        (by rw [Value.nodeReferences]; exact List.mem_singleton_self _)
      have hnode := hsound.nodes _ _ hknown depth hrank
      simp [Translation.translate, Translation.ofValue, hnode]
  | @node _ _ after _ _ _ _ _ _ _ _ _ _ hnode hcallee hcallable hrun hfinish ih =>
      have hheld := hheap.parts _ (hvalues _ (List.mem_singleton_self _))
      rw [ConfigGraph.parts_node hnode] at hheld
      obtain ⟨hgrows, hfinished, hcall⟩ := hrun.finished hgraph hnode hfinish
      obtain ⟨hgrows', hnext⟩ := hrun.advances hgraph
      obtain ⟨hids, hown⟩ := CodeId.split_range _ hnext hidentity
      obtain ⟨attached, hattached, rfl⟩ := hcall translation hlater hown
      obtain ⟨hbetween, harguments⟩ := ih hheld (hgrows.trans hlater) hids
        ⟨hsound.nodes, hsound.codes⟩
      -- The wrapper got its name before the arguments were transformed, and keeps it.
      have hnamed := ImportManager.grows_add hcallee
      have hlast := (ImportManager.grows_add hcallable).1.trans
        (hgrows'.trans (hgrows.trans hlater))
      have hresult := ofNode_finished hgraph hnode (hlast _ _ hnamed.2) harguments hattached
      have hafter : Sound translation holds after := by
        rw [hfinished]
        exact ⟨hbetween.nodes, hbetween.codes⟩
      refine ⟨hafter.keepNode hresult, fun depth hcovers => ?_⟩
      have hrank := hcovers _ (List.mem_singleton_self _) _
        (by rw [Value.nodeReferences]; exact List.mem_singleton_self _)
      simp [Translation.translate, Translation.ofValue, hresult depth hrank]

end Substitution

end ConfigLowering
