import ConfigLowering.Proofs.Imports.Growth
import ConfigLowering.Proofs.Substitution.Runs
import ConfigLowering.Proofs.Value.Objects

/-!
# Attaching tags

What finishing a config node makes of its transformed arguments: each argument of a
tagged field is wrapped, in the order of the tags, and the wrappers and the call take
the next identities.
-/

namespace ConfigLowering

/-! ## Names of symbols -/

theorem ImportManager.Grows.names {before after : ImportManager} (h : before.Grows after)
    {symbols : List Symbol} {names : List String}
    (hnames : symbols.map before.nameOf? = names.map some) :
    symbols.map after.nameOf? = names.map some := by
  induction symbols generalizing names with
  | nil => simpa using hnames
  | cons symbol symbols ih =>
      cases names with
      | nil => simp at hnames
      | cons name names =>
          obtain ⟨hname, hrest⟩ := List.cons.inj hnames
          simp only [List.map_cons, ih hrest, List.cons.injEq, and_true]
          exact h _ _ hname

namespace Substitution

theorem names_of_mapM_nameOf {symbols : List Symbol} {names : List String}
    {before after : State} (h : (symbols.mapM nameOf).Yields before names after) :
    ∃ imports, before.context.Grows imports ∧
      symbols.map imports.nameOf? = names.map some ∧
      after = { before with context := imports } := by
  induction symbols generalizing before names with
  | nil =>
      obtain ⟨rfl, rfl⟩ := h.of_pure
      exact ⟨after.context, .refl _, rfl, rfl⟩
  | cons symbol symbols ih =>
      rw [List.mapM_cons] at h
      obtain ⟨name, between, hname, h⟩ := h.of_bind
      obtain ⟨rest, _, hrest, hpure⟩ := h.of_bind
      obtain ⟨rfl, rfl⟩ := hpure.of_pure
      obtain ⟨imports, hadd, rfl⟩ := (yields_nameOf symbol).mp hname
      obtain ⟨hgrows, hknown⟩ := ImportManager.grows_add hadd
      obtain ⟨imports', hgrows', hnames, rfl⟩ := ih hrest
      refine ⟨imports', hgrows.trans hgrows', ?_, rfl⟩
      simp only [List.map_cons, hnames, List.cons.injEq, and_true]
      exact hgrows' _ _ hknown

/-! ## Tagged fields -/

theorem attachTags_spec {buildable : Buildable} {arguments attached : Arguments Value}
    {field : String} {tags : TagSet} {before after : State}
    (h : (attachTags buildable arguments field tags).Yields before attached after) :
    ∃ imports tagNames, before.context.Grows imports ∧
      tags.toList.map imports.nameOf? = tagNames.map some ∧
      attached = arguments.modify field (.tagged before.nextCode tagNames ·) ∧
      after = { before with
        context := imports
        nextCode := ⟨before.nextCode.index + 1⟩ } := by
  rw [attachTags] at h
  split at h
  · simp at h
  · obtain ⟨tagNames, between, hnames, h⟩ := h.of_bind
    obtain ⟨fresh, _, hfresh, hpure⟩ := h.of_bind
    obtain ⟨rfl, rfl⟩ := TransformM.yields_freshCode.mp hfresh
    obtain ⟨rfl, rfl⟩ := hpure.of_pure
    obtain ⟨imports, hgrows, hknown, rfl⟩ := names_of_mapM_nameOf hnames
    exact ⟨imports, tagNames, hgrows, hknown, rfl, rfl⟩

/-- An argument in the wrapper of its field, if the field is one of those listed. -/
def wrapIn (wrapper : String → CodeId) (tagNames : String → List String)
    (fields : List String) : String × Value → String × Value
  | (field, item) =>
      if field ∈ fields then (field, .tagged (wrapper field) (tagNames field) item)
      else (field, item)

theorem wrapIn_nil (wrapper : String → CodeId) (tagNames : String → List String) :
    wrapIn wrapper tagNames [] = id := by
  funext entry
  simp [wrapIn]

/-- The field that is wrapped first and those after it are different fields. -/
theorem wrapIn_cons {wrapper : String → CodeId} {tagNames : String → List String}
    {names fields : List String} {field : String} (hfresh : field ∉ fields)
    (entry : String × Value) :
    wrapIn wrapper tagNames fields
        (if entry.1 = field then (entry.1, .tagged (wrapper field) names entry.2)
          else (entry.1, entry.2)) =
      wrapIn wrapper (fun other => if other = field then names else tagNames other)
        (field :: fields) entry := by
  obtain ⟨other, item⟩ := entry
  by_cases hother : other = field
  · subst hother
    simp [wrapIn, hfresh]
  · by_cases hmem : other ∈ fields <;> simp [wrapIn, hother, hmem]

theorem foldlM_attachTags_spec {buildable : Buildable} {fields : List (String × TagSet)}
    {arguments attached : Arguments Value} {before after : State}
    (hfields : (fields.map Prod.fst).Nodup) (harguments : arguments.names.Nodup)
    (h : (fields.foldlM (fun arguments (field, tags) =>
      attachTags buildable arguments field tags) arguments).Yields before attached after) :
    ∃ imports tagNames, before.context.Grows imports ∧
      (∀ field tags, (field, tags) ∈ fields →
        tags.toList.map imports.nameOf? = (tagNames field).map some) ∧
      (∀ wrapper : String → CodeId,
        fields.map (fun field => wrapper field.1) = before.nextCode.range fields.length →
        attached.entries =
          arguments.entries.map (wrapIn wrapper tagNames (fields.map Prod.fst))) ∧
      after = { before with
        context := imports
        nextCode := ⟨before.nextCode.index + fields.length⟩ } := by
  induction fields generalizing arguments before with
  | nil =>
      obtain ⟨rfl, rfl⟩ := h.of_pure
      exact ⟨after.context, fun _ => [], .refl _, by simp, by simp [wrapIn_nil], rfl⟩
  | cons entry fields ih =>
      obtain ⟨field, tags⟩ := entry
      rw [List.foldlM_cons] at h
      obtain ⟨first, between, hfirst, hrest⟩ := h.of_bind
      obtain ⟨imports, names, hgrows, hnames, rfl, rfl⟩ := attachTags_spec hfirst
      obtain ⟨hfresh, hothers⟩ := List.nodup_cons.mp hfields
      have hchanged := Arguments.modifyEntry_eq_map field
        (.tagged before.nextCode names ·) harguments
      obtain ⟨imports', tagNames, hgrows', htags, hentries, rfl⟩ :=
        ih hothers (by rwa [Arguments.names_modify]) hrest
      refine ⟨imports', fun other => if other = field then names else tagNames other,
        hgrows.trans hgrows', ?_, ?_, ?_⟩
      · intro other tags' hmem
        obtain heq | hmem := List.mem_cons.mp hmem
        · obtain ⟨rfl, rfl⟩ := Prod.mk.inj heq
          simpa using hgrows'.names hnames
        · have hother : other ≠ field := fun heq =>
            hfresh (List.mem_map.mpr ⟨_, hmem, heq⟩)
          simpa [hother] using htags other tags' hmem
      · intro wrapper hwrapper
        -- The first field takes the first identity, and the others those after it.
        rw [List.map_cons, List.length_cons, CodeId.range_succ] at hwrapper
        obtain ⟨hfield, hwrapper⟩ := List.cons.inj hwrapper
        rw [hentries wrapper hwrapper, Arguments.modify, hchanged, List.map_map]
        apply List.map_congr_left
        intro entry _
        rw [List.map_cons, ← wrapIn_cons hfresh, hfield]
        rfl
      · simp only [List.length_cons]
        congr 2
        omega

/-! ## Finished nodes -/

theorem attach_eq_wrapIn {translation : Translation} {id : NodeId} {buildable : Buildable}
    {tagNames : String → List String} (hbuildable : buildable.WellFormed)
    (htags : ∀ field tags, (field, tags) ∈ buildable.tags.toList →
      tags.toList.map translation.imports.nameOf? = (tagNames field).map some)
    (entry : String × Value) :
    translation.attach id buildable entry =
      some (wrapIn (fun field => translation.identity (.wrapper id field)) tagNames
        (buildable.tags.toList.map Prod.fst) entry) := by
  obtain ⟨field, item⟩ := entry
  cases hfield : buildable.tags[field]? with
  | none =>
      have habsent : field ∉ buildable.tags.toList.map Prod.fst := by
        rw [List.mem_map]
        rintro ⟨⟨other, tags⟩, hmem, rfl⟩
        rw [Std.ExtTreeMap.mem_toList_iff_getElem?_eq_some, hfield] at hmem
        contradiction
      have hnone : buildable.tagsOf field = ∅ := by
        rw [Buildable.tagsOf, Std.ExtTreeMap.getD_eq_getD_getElem?, hfield, Option.getD_none]
      rw [Translation.attach, wrapIn, if_neg habsent, hnone]
      simp
  | some tags =>
      have hmem : (field, tags) ∈ buildable.tags.toList :=
        Std.ExtTreeMap.mem_toList_iff_getElem?_eq_some.mpr hfield
      have hsome : buildable.tagsOf field = tags := by
        rw [Buildable.tagsOf, Std.ExtTreeMap.getD_eq_getD_getElem?, hfield, Option.getD_some]
      have hempty : tags.isEmpty = false := by
        simpa using hbuildable.tags_nonempty field tags hfield
      have hlisted : field ∈ buildable.tags.toList.map Prod.fst :=
        List.mem_map.mpr ⟨_, hmem, rfl⟩
      have hknown := Translation.mapM_eq_some (htags field tags hmem)
      simp only [Translation.attach, wrapIn, hsome, hempty, hlisted, hknown, if_true]
      rfl

/-- What finishing a config node does: it registers names, gives identities to the objects
made for the node, and makes the call that any translation with these names and identities
has for it. -/
structure Finished (history : Buildable → History) (id : NodeId) (buildable : Buildable)
    (callee : String) (items : List (String × Value)) (before : State) (result : Value)
    (after : State) : Prop where
  grows : before.context.Grows after.context
  state : after = { before with
    context := after.context
    nextCode := ⟨before.nextCode.index + (madeFor id buildable).length⟩ }
  call : ∀ translation : Translation, after.context.Grows translation.imports →
    (madeFor id buildable).map translation.identity =
      before.nextCode.range (madeFor id buildable).length →
    ∃ attached, items.map (translation.attach id buildable) = attached.map some ∧
      result = .call (translation.identity (.node id)) callee
        [.reference buildable.callable] attached (history buildable)

theorem finished_of_finishNode {history : Buildable → History} {buildable : Buildable}
    {callee : String} {arguments : Arguments Value} {before after : State} {result : Value}
    (hbuildable : buildable.WellFormed) (harguments : arguments.names.Nodup) (id : NodeId)
    (h : (finishNode history buildable callee arguments).Yields before result after) :
    Finished history id buildable callee arguments.entries before result after := by
  rw [finishNode] at h
  obtain ⟨attached, between, hattached, h⟩ := h.of_bind
  obtain ⟨fresh, _, hfresh, hpure⟩ := h.of_bind
  obtain ⟨rfl, rfl⟩ := TransformM.yields_freshCode.mp hfresh
  obtain ⟨rfl, rfl⟩ := hpure.of_pure
  have hfields : (buildable.tags.toList.map Prod.fst).Nodup := by
    rw [Std.ExtTreeMap.map_fst_toList_eq_keys]
    exact Std.ExtTreeMap.nodup_keys
  obtain ⟨imports, tagNames, hgrows, htags, hentries, rfl⟩ :=
    foldlM_attachTags_spec hfields harguments hattached
  have hlength : (madeFor id buildable).length = buildable.tags.toList.length + 1 := by
    simp [madeFor]
  refine ⟨hgrows, by simp [hlength, Nat.add_assoc], fun translation hlater hidentity => ?_⟩
  rw [hlength, CodeId.range_add, madeFor, ← Std.ExtTreeMap.map_fst_toList_eq_keys,
    List.map_append, List.map_map, List.map_map] at hidentity
  obtain ⟨hwrappers, hcall⟩ := List.append_inj' hidentity (by simp)
  refine ⟨attached.entries, ?_, ?_⟩
  · rw [hentries (fun field => translation.identity (.wrapper id field)) hwrappers,
      List.map_map]
    apply List.map_congr_left
    intro entry _
    exact attach_eq_wrapIn hbuildable
      (fun field tags hmem => hlater.names (htags field tags hmem)) entry
  · have hid := (List.cons.inj hcall).1
    rw [hid]

end Substitution

end ConfigLowering
